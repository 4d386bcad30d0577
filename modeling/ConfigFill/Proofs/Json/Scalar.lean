import ConfigFill.Json.Printer
import ConfigFill.Json.Reader

/-!
# Scalars in JSON, written and read

The strings and the integers of a JSON text are read as what they were written for. A string is
read character by character, each from its escape or from itself (`read_chars_escaped`). The digits
of an integer are gathered without loss as long as they fit in a significand (`of_whole_to_digits`),
and every 64-bit integer does (`read_int`).
-/

namespace ConfigFill.Json

/-! ## Strings -/

/-- The escape by number of a control is read as its code. -/
theorem number?_low_hex :
    ∀ code < 32, Text.number? 16 ('0' :: '0' :: lowHex code) = some code := by
  decide

/-- The four digits of an escaped control character are read as its code. -/
theorem read_unit_low_hex {code : Nat} (h : code < 32) (rest : List Char) :
    readUnit ('0' :: '0' :: (lowHex code ++ rest)) = .ok (code, rest) := by
  have hsize : ∀ character : Char, 1 ≤ character.utf8Size := Char.utf8Size_pos
  have hbytes : ¬ byteCount ('0' :: '0' :: (lowHex code ++ rest)) < 4 := by
    simp only [byteCount, lowHex, List.cons_append, List.nil_append, List.foldr_cons]
    have h0 := hsize '0'
    have hhigh := hsize (Nat.digitChar (code / 16 % 16))
    have hlow := hsize (Nat.digitChar (code % 16))
    omega
  have htake : ('0' :: '0' :: (lowHex code ++ rest)).take 4 = '0' :: '0' :: lowHex code := rfl
  have hdrop : ('0' :: '0' :: (lowHex code ++ rest)).drop 4 = rest := rfl
  rw [readUnit, if_neg hbytes, htake, hdrop, number?_low_hex code h]

/-- An escaped control character is read back. -/
theorem read_numbered_low_hex {code : Nat} (h : code < 32) (rest : List Char) :
    readNumbered ('0' :: '0' :: (lowHex code ++ rest)) = .ok (.ofNat code, rest) := by
  have htrailing : isTrailing code = false := by
    simp only [isTrailing, Bool.and_eq_false_iff, decide_eq_false_iff_not]
    omega
  have hleading : isLeading code = false := by
    simp only [isLeading, Bool.and_eq_false_iff, decide_eq_false_iff_not]
    omega
  simp [readNumbered, read_unit_low_hex h, htrailing, hleading, bind, Except.bind, pure, Except.pure]

/-- One character of a string is read from how it is written. -/
theorem read_chars_escaped_char (fuel : Nat) (character : Char) (text : List Char) :
    readChars (fuel + 1) (escapedChar character ++ text) =
      readChars fuel text >>= fun read ↦ .ok (character :: read.1, read.2) := by
  unfold escapedChar
  split
  · rfl
  · rfl
  · rfl
  · rfl
  · rfl
  · rfl
  · rfl
  · rename_i hquote hbackslash _ _ _ _ _
    split
    · rename_i hlow
      have hescape : readEscape ('u' :: '0' :: '0' :: (lowHex character.toNat ++ text)) =
          .ok (character, text) := by
        rw [readEscape, read_numbered_low_hex hlow, Char.ofNat_toNat]
      show readEscape ('u' :: '0' :: '0' :: (lowHex character.toNat ++ text)) >>= _ = _
      rw [hescape]
      rfl
    · rename_i hlow
      rw [List.singleton_append, readChars, if_neg hlow]
      · rfl
      · exact hquote
      · exact hbackslash

/-- The characters of a string are read from how they are written, up to the closing quote. -/
theorem read_chars_escaped (characters rest : List Char) {fuel : Nat}
    (hfuel : characters.length < fuel) :
    readChars fuel (characters.flatMap escapedChar ++ '"' :: rest) = .ok (characters, rest) := by
  induction characters generalizing fuel with
  | nil =>
      cases fuel with
      | zero => cases hfuel
      | succ fuel => rfl
  | cons character others ih =>
      cases fuel with
      | zero => cases hfuel
      | succ fuel =>
          rw [List.flatMap_cons, List.append_assoc, read_chars_escaped_char,
            ih (Nat.lt_of_succ_lt_succ hfuel)]
          rfl

/-- A character is written as something. -/
theorem escaped_char_ne_nil (character : Char) : escapedChar character ≠ [] := by
  unfold escapedChar
  repeat' split
  all_goals simp

/-- A text is written with no fewer characters than it has. -/
theorem length_le_escaped (characters : List Char) :
    characters.length ≤ (characters.flatMap escapedChar).length := by
  induction characters with
  | nil => simp
  | cons character others ih =>
      have hpos := List.length_pos_iff.2 (escaped_char_ne_nil character)
      simp only [List.flatMap_cons, List.length_append, List.length_cons]
      omega

/-- A written string is read back after its opening quote. -/
theorem read_string_quoted (text : String) (rest : List Char) :
    readString (text.toList.flatMap escapedChar ++ '"' :: rest) = .ok (text, rest) := by
  have hlength := length_le_escaped text.toList
  have hfuel : text.toList.length <
      (text.toList.flatMap escapedChar ++ '"' :: rest).length + 1 := by
    rw [List.length_append]
    omega
  unfold readString
  rw [read_chars_escaped text.toList rest hfuel]
  simp [bind, Except.bind, pure, Except.pure]

/-- A string is read from its quoted text. -/
theorem read_string (value : String) (fuel depth : Nat) (rest : List Char) :
    readValue (fuel + 1) depth ((quoted value).toList ++ rest) = .ok (.string value, rest) := by
  have htext : (quoted value).toList ++ rest =
      '"' :: (value.toList.flatMap escapedChar ++ '"' :: rest) := by
    simp [quoted]
  rw [htext]
  show readString _ >>= _ = _
  rw [read_string_quoted]
  rfl

/-! ## Integers -/

/-- The text does not go on with a number: it is at its end, or goes on with something else than a
digit, a point or the mark of an exponent. -/
def EndsNumber (rest : List Char) : Prop :=
  ∀ character ∈ rest.head?, character.isDigit = false ∧ character ≠ '.' ∧ character ≠ 'e' ∧
    character ≠ 'E'

/-- A run of digits ends where no digit follows. -/
theorem span_digits {digits rest : List Char} (hdigits : ∀ digit ∈ digits, digit.isDigit = true)
    (hrest : ∀ character ∈ rest.head?, character.isDigit = false) :
    (digits ++ rest).takeWhile Char.isDigit = digits ∧
      (digits ++ rest).dropWhile Char.isDigit = rest := by
  rw [List.takeWhile_append_of_pos hdigits, List.dropWhile_append_of_pos hdigits]
  cases rest with
  | nil => simp
  | cons next others =>
      have hnext : next.isDigit = false := hrest next rfl
      simp [hnext]

/-- A run of digits ends where a number does. -/
theorem EndsNumber.span {digits rest : List Char} (h : EndsNumber rest)
    (hdigits : ∀ digit ∈ digits, digit.isDigit = true) :
    (digits ++ rest).takeWhile Char.isDigit = digits ∧
      (digits ++ rest).dropWhile Char.isDigit = rest :=
  span_digits hdigits fun character hmem ↦ (h character hmem).1

/-- Digits after a number make it no smaller. -/
theorem le_of_digit_chars (digits : List Char) (start : Nat) :
    start ≤ Nat.ofDigitChars 10 digits start := by
  induction digits generalizing start with
  | nil => simp
  | cons digit rest ih =>
      rw [Nat.ofDigitChars_cons]
      exact Nat.le_trans (by omega) (ih _)

/-- A digit is taken into the number if the result fits in a significand. -/
theorem add_whole_of_fits {digit : Char} (hdigit : digit.isDigit = true) {start : Nat}
    (h : 10 * start + (digit.toNat - '0'.toNat) < significandEnd) :
    Significand.addWhole ⟨start, 0⟩ digit = ⟨10 * start + (digit.toNat - '0'.toNat), 0⟩ := by
  simp only [Significand.addWhole, Significand.takes, Text.digit_value_of_is_digit hdigit,
    Nat.mul_comm start 10, h, decide_true, and_self, if_true]

/-- A digit with which the number does not fit is only counted. -/
theorem add_whole_of_not_fits {digit : Char} (hdigit : digit.isDigit = true) {start : Nat}
    (h : ¬ 10 * start + (digit.toNat - '0'.toNat) < significandEnd) :
    Significand.addWhole ⟨start, 0⟩ digit = ⟨start, 1⟩ := by
  simp only [Significand.addWhole, Significand.takes, Text.digit_value_of_is_digit hdigit,
    Nat.mul_comm start 10, h, decide_false, Bool.false_eq_true, and_false, if_false, Int.zero_add]

/-- Digits are gathered without loss if the number that they write fits in a significand. -/
theorem foldl_add_whole {digits : List Char} (hdigits : ∀ digit ∈ digits, digit.isDigit = true)
    {start : Nat} (h : Nat.ofDigitChars 10 digits start < significandEnd) :
    digits.foldl Significand.addWhole ⟨start, 0⟩ = ⟨Nat.ofDigitChars 10 digits start, 0⟩ := by
  induction digits generalizing start with
  | nil => simp
  | cons digit rest ih =>
      rw [Nat.ofDigitChars_cons] at h ⊢
      have hfits : 10 * start + (digit.toNat - '0'.toNat) < significandEnd :=
        Nat.lt_of_le_of_lt (le_of_digit_chars rest _) h
      rw [List.foldl_cons, add_whole_of_fits (hdigits digit List.mem_cons_self) hfits]
      exact ih (fun other hmem ↦ hdigits other (List.mem_cons_of_mem digit hmem)) h

/-- The digits of a number that fits a significand make up that number. -/
theorem of_whole_to_digits {value : Nat} (h : value < significandEnd) :
    Significand.ofWhole (Nat.toDigits 10 value) = ⟨value, 0⟩ := by
  have hvalue : Nat.ofDigitChars 10 (Nat.toDigits 10 value) 0 = value :=
    Nat.ofDigitChars_ten_toDigits
  have hfold := foldl_add_whole (fun _ ↦ Text.is_digit_of_mem_to_digits) (hvalue.symm ▸ h)
  rwa [hvalue] at hfold

/-- A number that fits a significand is read back from its digits. -/
theorem read_number_to_digits (negative : Bool) {value : Nat} (h : value < significandEnd)
    {rest : List Char} (hrest : EndsNumber rest) :
    readNumber negative (Nat.toDigits 10 value ++ rest) = .ok (whole negative value, rest) := by
  obtain ⟨htake, hdrop⟩ := hrest.span fun _ ↦ Text.is_digit_of_mem_to_digits
  unfold readNumber
  rw [htake, hdrop]
  split
  · rename_i hnil
    exact absurd hnil Nat.toDigits_ne_nil
  · -- Only the number zero begins with a zero, and it has no other digit.
    rename_i hdigits
    rcases Nat.eq_zero_or_pos value with rfl | hpos
    · cases hdigits
    · exact absurd (by rw [hdigits]; rfl) (Text.head_to_digits_ne hpos)
  · unfold readAfterWhole
    rw [of_whole_to_digits h]
    split
    · exact absurd rfl (hrest '.' rfl).2.1
    · exact absurd rfl (hrest 'e' rfl).2.2.1
    · exact absurd rfl (hrest 'E' rfl).2.2.2
    · rfl

/-- A 64-bit integer is made of its sign and its size. -/
theorem whole_nat_abs (value : Int64) :
    whole (decide (value.toInt < 0)) value.toInt.natAbs = .int value := by
  have hlow := value.le_toInt
  have hhigh := value.toInt_lt
  have hbound : Nat.pow 2 63 = 9223372036854775808 := by decide
  by_cases hnegative : value.toInt < 0
  · have hsize : (-(value.toInt.natAbs : Int)) = value.toInt := by omega
    have hfits : ¬ (value.toInt.natAbs = 0 ∨ Nat.pow 2 63 < value.toInt.natAbs) := by omega
    simp only [whole, hnegative, decide_true, if_true, hfits, if_false, hsize, Int64.ofInt_toInt]
  · have hsize : ((value.toInt.natAbs : Nat) : Int) = value.toInt := by omega
    have hfits : value.toInt.natAbs < Nat.pow 2 63 := by omega
    simp only [whole, hnegative, decide_false, Bool.false_eq_true, if_false, hfits, if_true]
    rw [← Int64.ofInt_eq_ofNat, hsize, Int64.ofInt_toInt]

/-- A digit is no blank. -/
theorem is_blank_of_is_digit {digit : Char} (h : digit.isDigit = true) : isBlank digit = false := by
  have hne : ∀ other : Char, other.isDigit = false → digit ≠ other :=
    fun _ ↦ Text.ne_of_is_digit h
  simp [isBlank, hne]

/-- A character that is a digit is none of those that begin other values. -/
theorem read_value_digit {first : Char} (h : first.isDigit = true) (fuel depth : Nat)
    (rest : List Char) :
    readValue (fuel + 1) depth (first :: rest) = readNumber false (first :: rest) := by
  have hskip : skipBlanks (first :: rest) = first :: rest := by
    simp [skipBlanks, is_blank_of_is_digit h]
  simp only [readValue, hskip]
  split
  case h_9 =>
    rename_i heq
    cases heq
    rw [if_pos h]
  all_goals
    rename_i heq
    cases heq
  all_goals exact absurd h (by decide)

/-- A 64-bit integer is read from its decimal text. -/
theorem read_int (value : Int64) (fuel depth : Nat) {rest : List Char} (hrest : EndsNumber rest) :
    readValue (fuel + 1) depth ((toString value.toInt).toList ++ rest) = .ok (.int value, rest) := by
  have hwhole := whole_nat_abs value
  have hfits : value.toInt.natAbs < significandEnd := by
    have hlow := value.le_toInt
    have hhigh := value.toInt_lt
    have hbound : significandEnd = 18446744073709551616 := by decide
    omega
  rw [Text.to_list_to_string_int]
  by_cases hnegative : value.toInt < 0
  · rw [if_pos hnegative]
    show readNumber true (Nat.toDigits 10 value.toInt.natAbs ++ rest) = _
    rw [read_number_to_digits true hfits hrest]
    simpa [hnegative] using hwhole
  · rw [if_neg hnegative]
    have hread := read_number_to_digits false hfits hrest
    obtain ⟨first, others, hdigits, hfirst⟩ := Text.exists_first_digit value.toInt.natAbs
    rw [hdigits, List.cons_append] at hread ⊢
    rw [read_value_digit hfirst, hread]
    simpa [hnegative] using hwhole

end ConfigFill.Json
