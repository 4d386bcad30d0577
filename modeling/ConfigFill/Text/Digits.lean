/-!
# Numbers in digits

Digits in bases up to sixteen and the numbers that they write. The main statements are
`number?_ten_eq_some_iff`, that decimal digits and no other texts are read as numbers, and
`number?_to_digits` and `number?_sixteen_to_digits`, that the decimal and the hexadecimal digits of a
number are read as that number.
-/

namespace ConfigFill.Text

/-- The value of a digit, with letters of either case for ten and more. Any other character has the
value sixteen, which is a digit of no base. -/
def digitValue (digit : Char) : Nat :=
  if digit.isDigit then digit.toNat - '0'.toNat
  else if 'a' ≤ digit ∧ digit ≤ 'f' then digit.toNat - 'a'.toNat + 10
  else if 'A' ≤ digit ∧ digit ≤ 'F' then digit.toNat - 'A'.toNat + 10
  else 16

/-- The number that one digit or more write in a base. -/
def number? (base : Nat) (digits : List Char) : Option Nat :=
  if digits.isEmpty || !digits.all (digitValue · < base) then none
  else some (digits.foldl (fun value digit ↦ base * value + digitValue digit) 0)

/-- The value of a decimal digit is its distance from zero. -/
theorem digit_value_of_is_digit {digit : Char} (h : digit.isDigit = true) :
    digitValue digit = digit.toNat - '0'.toNat := by
  simp [digitValue, h]

/-- Decimal digits have the values below ten. -/
theorem digit_value_lt_ten {digit : Char} (h : digit.isDigit = true) : digitValue digit < 10 := by
  have hrange : '0'.toNat ≤ digit.toNat ∧ digit.toNat ≤ '9'.toNat := by
    simpa [Char.isDigit, Char.le_def, UInt32.le_iff_toNat_le] using h
  have h0 : '0'.toNat = 48 := rfl
  have h9 : '9'.toNat = 57 := rfl
  rw [digit_value_of_is_digit h]
  omega

/-- A number in base ten is written with decimal digits. -/
theorem is_digit_of_mem_to_digits {value : Nat} {digit : Char} (h : digit ∈ Nat.toDigits 10 value) :
    digit.isDigit = true :=
  Nat.isDigit_of_mem_toDigits (by decide) (by decide) h

/-- Only digits of the base are read as a number. -/
theorem digit_value_lt_of_number? {base value : Nat} {digits : List Char}
    (h : number? base digits = some value) : ∀ digit ∈ digits, digitValue digit < base := by
  unfold number? at h
  split at h
  · cases h
  · rename_i hdigits
    simp only [Bool.or_eq_true, not_or, Bool.not_eq_true', Bool.not_eq_false] at hdigits
    intro digit hmem
    simpa using List.all_eq_true.1 hdigits.2 digit hmem

/-- Only decimal digits have values below ten. -/
theorem is_digit_of_digit_value_lt_ten {digit : Char} (h : digitValue digit < 10) :
    digit.isDigit = true := by
  unfold digitValue at h
  split at h
  · assumption
  · split at h
    · omega
    · split at h <;> omega

/-- Decimal digits are added up to the number that they write. -/
theorem foldl_digit_value {digits : List Char} (h : ∀ digit ∈ digits, digit.isDigit = true)
    (start : Nat) :
    digits.foldl (fun value digit ↦ 10 * value + digitValue digit) start =
      Nat.ofDigitChars 10 digits start := by
  induction digits generalizing start with
  | nil => rfl
  | cons digit rest ih =>
      have hdigit : digit.isDigit = true := h digit List.mem_cons_self
      have hrest : ∀ other ∈ rest, other.isDigit = true :=
        fun other hmem ↦ h other (List.mem_cons_of_mem digit hmem)
      rw [List.foldl_cons, Nat.ofDigitChars_cons, ih hrest, digit_value_of_is_digit hdigit]

/-- One decimal digit or more, and nothing else, are read as the number that they write. -/
theorem number?_ten_eq_some_iff {digits : List Char} {value : Nat} :
    number? 10 digits = some value ↔
      digits ≠ [] ∧ (∀ digit ∈ digits, digit.isDigit = true) ∧
        Nat.ofDigitChars 10 digits 0 = value := by
  constructor
  · intro h
    have hdigits : ∀ digit ∈ digits, digit.isDigit = true :=
      fun digit hmem ↦ is_digit_of_digit_value_lt_ten (digit_value_lt_of_number? h digit hmem)
    unfold number? at h
    split at h
    · cases h
    · rename_i hread
      simp only [Bool.or_eq_true, not_or, List.isEmpty_iff] at hread
      rw [foldl_digit_value hdigits] at h
      exact ⟨hread.1, hdigits, Option.some.inj h⟩
  · rintro ⟨hne, hdigits, rfl⟩
    have hall : digits.all (digitValue · < 10) = true :=
      List.all_eq_true.2 fun digit hmem ↦ by simpa using digit_value_lt_ten (hdigits digit hmem)
    simp [number?, hne, hall, foldl_digit_value hdigits]

/-- The decimal digits of a number are read as that number. -/
theorem number?_to_digits (value : Nat) : number? 10 (Nat.toDigits 10 value) = some value := by
  refine number?_ten_eq_some_iff.2 ⟨?_, fun _ ↦ is_digit_of_mem_to_digits, ?_⟩
  · simp
  · exact Nat.ofDigitChars_ten_toDigits

/-- A number is written with at least one digit. -/
theorem exists_first_digit (value : Nat) :
    ∃ first rest, Nat.toDigits 10 value = first :: rest ∧ first.isDigit = true := by
  obtain ⟨first, rest, hdigits⟩ :=
    List.exists_cons_of_ne_nil (Nat.toDigits_ne_nil (n := value) (b := 10))
  have hmem : first ∈ Nat.toDigits 10 value := by simp [hdigits]
  exact ⟨first, rest, hdigits, is_digit_of_mem_to_digits hmem⟩

/-- The decimal digits of a number that is not zero do not begin with a zero. -/
theorem head_to_digits_ne {value : Nat} (h : 0 < value) :
    (Nat.toDigits 10 value).head? ≠ some '0' := by
  induction value using Nat.strongRecOn with
  | ind value ih =>
      by_cases hsmall : value < 10
      · rw [Nat.toDigits_of_lt_base hsmall]
        have hdigit : ∀ digit < 10, 0 < digit → Nat.digitChar digit ≠ '0' := by decide
        simpa using hdigit value hsmall h
      · have hquotient := ih (value / 10) (by omega) (by omega)
        obtain ⟨first, rest, hdigits, _⟩ := exists_first_digit (value / 10)
        rw [Nat.toDigits_of_base_le (by decide) (by omega), hdigits]
        simpa [hdigits] using hquotient

/-- The text of an integer: a dash before a negative one, and the digits of its size. -/
theorem to_list_to_string_int (value : Int) :
    (toString value).toList =
      if value < 0 then '-' :: Nat.toDigits 10 value.natAbs else Nat.toDigits 10 value.natAbs := by
  rw [Int.toString_eq_repr, Int.repr_eq_if]
  by_cases hnegative : value < 0
  · have hsize : (-value).toNat = value.natAbs := by omega
    rw [if_neg (by omega), if_pos hnegative, String.toList_append, Nat.toList_repr, hsize]
    rfl
  · have hsize : value.toNat = value.natAbs := by omega
    rw [if_pos (by omega), if_neg hnegative, Nat.toList_repr, hsize]

/-- A digit is no character that is not one. -/
theorem ne_of_is_digit {digit other : Char} (h : digit.isDigit = true)
    (hother : other.isDigit = false) : digit ≠ other := by
  rintro rfl
  exact Bool.false_ne_true (hother.symm.trans h)

/-- A hexadecimal digit in upper case has the value that it writes. -/
theorem digit_value_to_upper : ∀ value < 16, digitValue value.digitChar.toUpper = value := by
  decide

/-- Upper-case hexadecimal digits are added up to the number that they write. -/
theorem foldl_to_digits_sixteen (value : Nat) :
    ((Nat.toDigits 16 value).map Char.toUpper).foldl
      (fun sum digit ↦ 16 * sum + digitValue digit) 0 = value := by
  induction value using Nat.strongRecOn with
  | ind value ih =>
      by_cases hsmall : value < 16
      · rw [Nat.toDigits_of_lt_base hsmall]
        simp [digit_value_to_upper value hsmall]
      · have hquotient := ih (value / 16) (by omega)
        have hdigit := digit_value_to_upper (value % 16) (by omega)
        rw [Nat.toDigits_of_base_le (by decide) (by omega), List.map_append, List.foldl_append,
          hquotient]
        simp only [List.map_cons, List.map_nil, List.foldl_cons, List.foldl_nil, hdigit]
        omega

/-- Upper-case hexadecimal digits are digits of the base sixteen. -/
theorem digit_value_lt_sixteen {value : Nat} {digit : Char}
    (h : digit ∈ (Nat.toDigits 16 value).map Char.toUpper) : digitValue digit < 16 := by
  induction value using Nat.strongRecOn with
  | ind value ih =>
      by_cases hsmall : value < 16
      · rw [Nat.toDigits_of_lt_base hsmall, List.map_singleton, List.mem_singleton] at h
        rw [h, digit_value_to_upper value hsmall]
        exact hsmall
      · rw [Nat.toDigits_of_base_le (by decide) (by omega), List.map_append, List.mem_append,
          List.map_singleton, List.mem_singleton] at h
        obtain h | rfl := h
        · exact ih (value / 16) (by omega) h
        · rw [digit_value_to_upper (value % 16) (by omega)]
          exact Nat.mod_lt value (by decide)

/-- The hexadecimal digits of a number in upper case, with zeros in front, are read as that number. -/
theorem number?_sixteen_to_digits (zeros value : Nat) :
    number? 16 (List.replicate zeros '0' ++ (Nat.toDigits 16 value).map Char.toUpper) =
      some value := by
  have hzeros : ∀ zeros, (List.replicate zeros '0').foldl
      (fun sum digit ↦ 16 * sum + digitValue digit) 0 = 0 := by
    intro zeros
    induction zeros with
    | zero => rfl
    | succ zeros ih => exact ih
  have hall : (List.replicate zeros '0' ++ (Nat.toDigits 16 value).map Char.toUpper).all
      (digitValue · < 16) = true := by
    refine List.all_eq_true.2 fun digit hmem ↦ decide_eq_true ?_
    obtain hzero | hdigit := List.mem_append.1 hmem
    · rw [List.eq_of_mem_replicate hzero]
      decide
    · exact digit_value_lt_sixteen hdigit
  have hne : (List.replicate zeros '0' ++ (Nat.toDigits 16 value).map Char.toUpper).isEmpty =
      false := by
    simp
  simp only [number?, hall, hne, Bool.not_true, Bool.or_false, Bool.false_eq_true, if_false,
    List.foldl_append, hzeros, foldl_to_digits_sixteen]

end ConfigFill.Text
