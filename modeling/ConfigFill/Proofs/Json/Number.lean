import ConfigFill.Document.Loading
import ConfigFill.Proofs.Json.Scalar

/-!
# Integers among the numbers of JSON

A number is read as an integer exactly if it is written as one and fits in 64 bits with a sign, and
then as the integer that it writes, however many digits it has. `NumberToken` is the grammar of
numbers. The digits before the point are either gathered without loss or leave an exponent behind
(`foldl_add_whole_overflow`), and with an exponent or a fraction the number is a floating-point number
or out of range (`NotInteger`). The main statement is `number_read_exactly`.
-/

namespace ConfigFill.Json

/-! ## The grammar of numbers -/

/-- One decimal digit or more. -/
structure Digits where
  characters : List Char
  nonempty : characters ≠ []
  isDigit : ∀ digit ∈ characters, digit.isDigit = true

/-- An exponent: its mark, its sign, if it has one, and its digits. -/
structure ExponentPart where
  mark : Char
  sign : List Char
  digits : Digits
  isMark : mark = 'e' ∨ mark = 'E'
  isSign : sign = [] ∨ sign = ['+'] ∨ sign = ['-']

/-- A number as JSON writes it. -/
structure NumberToken where
  negative : Bool
  whole : Digits
  fraction : Option Digits
  exponent : Option ExponentPart
  /-- Only the zero begins with a zero. -/
  noLeadingZero : whole.characters.head? = some '0' → whole.characters = ['0']

/-- The text of a fraction, with its point. -/
def fractionText : Option Digits → List Char
  | none => []
  | some digits => '.' :: digits.characters

/-- The text of an exponent. -/
def exponentText : Option ExponentPart → List Char
  | none => []
  | some exponent => exponent.mark :: (exponent.sign ++ exponent.digits.characters)

namespace NumberToken

variable (token : NumberToken)

/-- What follows the digits before the point. -/
def tail : List Char :=
  fractionText token.fraction ++ exponentText token.exponent

/-- The characters of a number. -/
def characters : List Char :=
  (if token.negative then ['-'] else []) ++ (token.whole.characters ++ token.tail)

/-- The text of a number. -/
def text : String :=
  String.ofList token.characters

/-- The number that the digits before the point write. -/
def magnitude : Nat :=
  Nat.ofDigitChars 10 token.whole.characters 0

/-- The integer that the digits before the point write with their sign. -/
def value : Int :=
  if token.negative then -(token.magnitude : Int) else token.magnitude

/-- The number is written as an integer, which fits in 64 bits with a sign. Only the negative zero is
written as an integer and is none. -/
structure IsInteger : Prop where
  noFraction : token.fraction = none
  noExponent : token.exponent = none
  notNegativeZero : token.text ≠ "-0"
  atLeast : -(Nat.pow 2 63 : Int) ≤ token.value
  atMost : token.value ≤ (Nat.pow 2 63 : Int) - 1

end NumberToken

/-! ## Digits -/

/-- There is a first digit. -/
theorem Digits.exists_first (digits : Digits) :
    ∃ first others, digits.characters = first :: others ∧ first.isDigit = true := by
  obtain ⟨first, others, hdigits⟩ := List.exists_cons_of_ne_nil digits.nonempty
  exact ⟨first, others, hdigits, digits.isDigit first (by simp [hdigits])⟩

/-- A significand that counts digits goes on counting. -/
theorem exponent_pos_foldl {significand : Significand} (h : 0 < significand.exponent)
    (digits : List Char) : 0 < (digits.foldl Significand.addWhole significand).exponent := by
  induction digits generalizing significand with
  | nil => exact h
  | cons digit rest ih =>
      have hne : ¬ significand.exponent = 0 := by omega
      have hstep : significand.addWhole digit =
          { significand with exponent := significand.exponent + 1 } := by
        simp [Significand.addWhole, hne]
      rw [List.foldl_cons, hstep]
      exact ih (show 0 < significand.exponent + 1 by omega)

/-- Digits that write a number beyond what a significand can hold leave an exponent. -/
theorem foldl_add_whole_overflow {digits : List Char}
    (hdigits : ∀ digit ∈ digits, digit.isDigit = true) {start : Nat} (hstart : start < significandEnd)
    (h : significandEnd ≤ Nat.ofDigitChars 10 digits start) :
    0 < (digits.foldl Significand.addWhole ⟨start, 0⟩).exponent := by
  induction digits generalizing start with
  | nil =>
      rw [Nat.ofDigitChars_nil] at h
      omega
  | cons digit rest ih =>
      have hdigit : digit.isDigit = true := hdigits digit List.mem_cons_self
      rw [Nat.ofDigitChars_cons] at h
      rw [List.foldl_cons]
      by_cases hfits : 10 * start + (digit.toNat - '0'.toNat) < significandEnd
      · rw [add_whole_of_fits hdigit hfits]
        exact ih (fun other hmem ↦ hdigits other (List.mem_cons_of_mem digit hmem)) hfits h
      · rw [add_whole_of_not_fits hdigit hfits]
        exact exponent_pos_foldl Int.one_pos rest

/-- The digits before the point are gathered without loss, or leave an exponent. -/
theorem of_whole_cases (digits : Digits) :
    Significand.ofWhole digits.characters = ⟨Nat.ofDigitChars 10 digits.characters 0, 0⟩ ∨
      significandEnd ≤ Nat.ofDigitChars 10 digits.characters 0 ∧
        (Significand.ofWhole digits.characters).exponent ≠ 0 := by
  by_cases hfits : Nat.ofDigitChars 10 digits.characters 0 < significandEnd
  · exact .inl (foldl_add_whole digits.isDigit hfits)
  · have hlarge : significandEnd ≤ Nat.ofDigitChars 10 digits.characters 0 := by omega
    have hpos := foldl_add_whole_overflow digits.isDigit (by decide) hlarge
    exact .inr ⟨hlarge, Int.ne_of_gt hpos⟩

/-! ## Numbers that are no integers -/

/-- The whole text was read as a floating-point number, or the number is out of range. -/
def NotInteger (outcome : Except Fault (Tree × List Char)) : Prop :=
  (∃ number, outcome = .ok (.float number, [])) ∨
    ∃ unread, outcome = .error ⟨.numberOutOfRange, unread⟩

/-- A scaled significand is read as no integer. -/
theorem scaled_not_integer (negative : Bool) (significand : Significand) :
    NotInteger (scaled negative significand []) := by
  unfold scaled
  split
  · exact .inl ⟨_, rfl⟩
  · exact .inr ⟨_, rfl⟩

/-- The digits of an exponent shift the significand, or go beyond what an exponent can be. -/
theorem shifted_not_integer (negative down : Bool) (significand : Significand)
    (digits : List Char) :
    NotInteger (match exponentValue 0 digits with
      | .ok value =>
          scaled negative { significand with
            exponent := significand.exponent + if down then -(value : Int) else value } []
      | .error unread =>
          if significand.value ≠ 0 ∧ !down then
            .error (.before .numberOutOfRange (unread ++ []))
          else .ok (signed negative (.zero false), [])) := by
  cases exponentValue 0 digits with
  | ok value => exact scaled_not_integer negative _
  | error unread =>
      by_cases h : significand.value ≠ 0 ∧ (!down) = true
      · exact .inr ⟨_, if_pos h⟩
      · exact .inl ⟨_, if_neg h⟩

/-- With an exponent, a number is read as no integer. -/
theorem read_exponent_not_integer (negative : Bool) (significand : Significand)
    (exponent : ExponentPart) :
    NotInteger (readExponent negative significand
      (exponent.sign ++ exponent.digits.characters)) := by
  have hend : ∀ character ∈ ([] : List Char).head?, character.isDigit = false := by simp
  obtain ⟨htake, hdrop⟩ := span_digits exponent.digits.isDigit hend
  obtain ⟨first, others, hdigits, hfirst⟩ := exponent.digits.exists_first
  rw [List.append_nil, hdigits] at htake hdrop
  rw [hdigits]
  obtain hsign | hsign | hsign := exponent.isSign
  · have hplus : first ≠ '+' := Text.ne_of_is_digit hfirst rfl
    have hminus : first ≠ '-' := Text.ne_of_is_digit hfirst rfl
    rw [hsign, List.nil_append, readExponent]
    · simp only [htake, hdrop]
      exact shifted_not_integer negative false significand (first :: others)
    · intro rest heq
      exact hplus (List.cons.inj heq).1
    · intro rest heq
      exact hminus (List.cons.inj heq).1
  · simp only [readExponent, hsign, List.singleton_append, htake, hdrop]
    exact shifted_not_integer negative false significand (first :: others)
  · simp only [readExponent, hsign, List.singleton_append, htake, hdrop]
    exact shifted_not_integer negative true significand (first :: others)

/-- An exponent begins with no digit. -/
theorem exponent_text_ends_digits (exponent : Option ExponentPart) :
    ∀ character ∈ (exponentText exponent).head?, character.isDigit = false := by
  intro character hmem
  cases exponent with
  | none => cases hmem
  | some exponent =>
      cases hmem
      cases exponent.isMark with
      | inl hmark | inr hmark =>
          rw [hmark]
          rfl

/-- A significand and what may follow it are read as no integer. -/
theorem read_scale_not_integer (negative : Bool) (significand : Significand)
    (exponent : Option ExponentPart) :
    NotInteger (readScale negative significand (exponentText exponent)) := by
  cases exponent with
  | none => exact scaled_not_integer negative significand
  | some exponent =>
      have hread := read_exponent_not_integer negative significand exponent
      rw [exponentText]
      cases exponent.isMark with
      | inl hmark | inr hmark =>
          rw [hmark]
          exact hread

/-- With a fraction, a number is read as no integer. -/
theorem read_fraction_not_integer (negative : Bool) (significand : Significand) (digits : Digits)
    (exponent : Option ExponentPart) :
    NotInteger (readFraction negative significand
      (digits.characters ++ exponentText exponent)) := by
  obtain ⟨htake, hdrop⟩ := span_digits digits.isDigit (exponent_text_ends_digits exponent)
  rw [readFraction, htake, hdrop]
  split
  · rename_i hnil
    exact absurd hnil digits.nonempty
  · exact read_scale_not_integer negative _ exponent

/-- With a fraction or an exponent, a number is no integer. -/
theorem read_tail_not_integer (negative : Bool) (digits : List Char) {fraction : Option Digits}
    {exponent : Option ExponentPart} (h : ¬ (fraction = none ∧ exponent = none)) :
    NotInteger (readAfterWhole negative digits (fractionText fraction ++ exponentText exponent)) := by
  cases fraction with
  | some fraction => exact read_fraction_not_integer negative _ fraction exponent
  | none =>
      cases exponent with
      | none => exact absurd ⟨rfl, rfl⟩ h
      | some exponent =>
          have hread := read_scale_not_integer negative (Significand.ofWhole digits) (some exponent)
          rw [exponentText] at hread ⊢
          cases exponent.isMark with
          | inl hmark | inr hmark =>
              rw [hmark] at hread ⊢
              exact hread

/-! ## Integers -/

/-- A whole number that fits in a significand is an integer if it fits in 64 bits with its sign,
unless it is the negative zero. -/
theorem whole_eq_int_iff (negative : Bool) (value : Nat) (n : Int64) :
    whole negative value = .int n ↔
      ¬ (negative = true ∧ value = 0) ∧ n.toInt = if negative then -(value : Int) else value := by
  have hbound : Nat.pow 2 63 = 9223372036854775808 := by decide
  constructor
  · intro h
    cases negative with
    | true =>
        by_cases hrange : value = 0 ∨ Nat.pow 2 63 < value
        · simp [whole, hrange, signed] at h
        · simp only [whole, hrange, if_true, if_false, Tree.int.injEq] at h
          rw [← h, Int64.toInt_ofInt_of_le (by omega) (by omega)]
          exact ⟨fun hzero ↦ hrange (.inl hzero.2), rfl⟩
    | false =>
        by_cases hrange : value < Nat.pow 2 63
        · simp only [whole, hrange, if_true, Bool.false_eq_true, if_false, Tree.int.injEq,
            ← Int64.ofInt_eq_ofNat] at h
          rw [← h, Int64.toInt_ofInt_of_le (by omega) (by omega)]
          exact ⟨fun hzero ↦ Bool.false_ne_true hzero.1, rfl⟩
        · simp [whole, hrange, signed] at h
  · intro h
    obtain ⟨hzero, hn⟩ := h
    have hwhole := whole_nat_abs n
    cases negative with
    | true =>
        simp only [if_true, true_and] at hzero hn
        have hnegative : n.toInt < 0 := by omega
        have hsize : n.toInt.natAbs = value := by omega
        rwa [hsize, decide_eq_true hnegative] at hwhole
    | false =>
        simp only [Bool.false_eq_true, if_false] at hn
        have hnegative : ¬ n.toInt < 0 := by omega
        have hsize : n.toInt.natAbs = value := by omega
        rwa [hsize, decide_eq_false hnegative] at hwhole

/-- A whole number is an integer or a floating-point number. -/
theorem whole_int_or_float (negative : Bool) (value : Nat) :
    (∃ n, whole negative value = .int n) ∨ ∃ number, whole negative value = .float number := by
  unfold whole signed
  split
  · split
    · exact .inr ⟨_, rfl⟩
    · exact .inl ⟨_, rfl⟩
  · split
    · exact .inl ⟨_, rfl⟩
    · exact .inr ⟨_, rfl⟩

/-- A number without a fraction and an exponent is what its digits make of it. -/
theorem read_plain (negative : Bool) (digits : Digits) :
    readAfterWhole negative digits.characters [] =
        .ok (whole negative (Nat.ofDigitChars 10 digits.characters 0), []) ∨
      significandEnd ≤ Nat.ofDigitChars 10 digits.characters 0 ∧
        NotInteger (readAfterWhole negative digits.characters []) := by
  obtain hfits | ⟨hlarge, hshift⟩ := of_whole_cases digits
  · left
    simp only [readAfterWhole, hfits, if_true]
  · refine .inr ⟨hlarge, ?_⟩
    simp only [readAfterWhole, hshift, if_false]
    exact scaled_not_integer negative _

namespace NumberToken

variable (token : NumberToken)

/-- Only a single zero writes zero before the point. -/
theorem magnitude_eq_zero_iff : token.magnitude = 0 ↔ token.whole.characters = ['0'] := by
  constructor
  · intro hzero
    obtain ⟨first, others, hdigits, hfirst⟩ := token.whole.exists_first
    rw [magnitude, hdigits, Nat.ofDigitChars_cons] at hzero
    have hle := le_of_digit_chars others (10 * 0 + (first.toNat - '0'.toNat))
    have hvalue : first.toNat = '0'.toNat := by
      have hlow := (Char.isDigit_iff_toNat.1 hfirst).1
      omega
    refine token.noLeadingZero ?_
    rw [hdigits, Char.toNat_inj.1 hvalue]
    rfl
  · intro hdigits
    rw [magnitude, hdigits]
    rfl

/-- The negative zero is written in one way. -/
theorem text_eq_iff (hfraction : token.fraction = none) (hexponent : token.exponent = none) :
    token.text = "-0" ↔ token.negative = true ∧ token.magnitude = 0 := by
  have htext : token.text = "-0" ↔ token.characters = ['-', '0'] := String.ofList_inj
  rw [htext, magnitude_eq_zero_iff, characters, tail, hfraction, hexponent]
  simp only [fractionText, exponentText, List.append_nil]
  cases token.negative with
  | true => simp
  | false =>
      obtain ⟨first, others, hdigits, hfirst⟩ := token.whole.exists_first
      simp [hdigits, Text.ne_of_is_digit hfirst (rfl : '-'.isDigit = false)]

/-- A token that is only digits with a sign is an integer if it fits and is no negative zero. -/
theorem is_integer_iff (hfraction : token.fraction = none) (hexponent : token.exponent = none) :
    token.IsInteger ↔ ¬ (token.negative = true ∧ token.magnitude = 0) ∧
      -(Nat.pow 2 63 : Int) ≤ token.value ∧ token.value ≤ (Nat.pow 2 63 : Int) - 1 := by
  rw [← token.text_eq_iff hfraction hexponent]
  constructor
  · intro h
    exact ⟨h.notNegativeZero, h.atLeast, h.atMost⟩
  · intro h
    obtain ⟨hzero, hleast, hmost⟩ := h
    exact ⟨hfraction, hexponent, hzero, hleast, hmost⟩

/-- What follows the digits before the point begins with no digit. -/
theorem tail_ends_digits : ∀ character ∈ token.tail.head?, character.isDigit = false := by
  rw [tail]
  cases token.fraction with
  | none => exact exponent_text_ends_digits token.exponent
  | some digits =>
      intro character hmem
      cases hmem
      rfl

/-- The digits before the point are read up to what follows them. -/
theorem read_number_characters :
    readNumber token.negative (token.whole.characters ++ token.tail) =
      readAfterWhole token.negative token.whole.characters token.tail := by
  obtain ⟨htake, hdrop⟩ := span_digits token.whole.isDigit token.tail_ends_digits
  rw [readNumber, htake, hdrop]
  split
  · rename_i hnil
    exact absurd hnil token.whole.nonempty
  · rename_i hdigits
    have hzero := token.noLeadingZero (by rw [hdigits]; rfl)
    rw [hdigits] at hzero
    cases hzero
  · rfl

/-- A number is read as an integer exactly if it is one, and then as the integer that it writes. -/
theorem read_cases :
    (∃ n : Int64, token.IsInteger ∧ n.toInt = token.value ∧
      readNumber token.negative (token.whole.characters ++ token.tail) = .ok (.int n, [])) ∨
    ¬ token.IsInteger ∧
      NotInteger (readNumber token.negative (token.whole.characters ++ token.tail)) := by
  have hbound : Nat.pow 2 63 = 9223372036854775808 := by decide
  rw [read_number_characters, tail]
  by_cases hplain : token.fraction = none ∧ token.exponent = none
  · obtain ⟨hfraction, hexponent⟩ := hplain
    rw [token.is_integer_iff hfraction hexponent, hfraction, hexponent]
    obtain hread | ⟨hlarge, hread⟩ := read_plain token.negative token.whole
    · obtain ⟨n, hn⟩ | ⟨number, hnumber⟩ := whole_int_or_float token.negative token.magnitude
      · obtain ⟨hzero, hvalue⟩ := (whole_eq_int_iff _ _ n).1 hn
        have hleast := n.le_toInt
        have hmost := n.toInt_lt
        refine .inl ⟨n, ⟨hzero, ?_⟩, hvalue, hread.trans (by rw [← hn]; rfl)⟩
        have hvalue' : n.toInt = token.value := hvalue
        omega
      · refine .inr ⟨?_, .inl ⟨number, hread.trans (by rw [← hnumber]; rfl)⟩⟩
        intro h
        obtain ⟨hzero, hleast, hmost⟩ := h
        have hvalue : (Int64.ofInt token.value).toInt = token.value :=
          Int64.toInt_ofInt_of_le hleast (by omega)
        have hint := (whole_eq_int_iff _ _ _).2 ⟨hzero, hvalue⟩
        rw [hnumber] at hint
        cases hint
    · refine .inr ⟨?_, hread⟩
      intro h
      obtain ⟨_, hleast, hmost⟩ := h
      have hbound : significandEnd = 18446744073709551616 := by decide
      have hmagnitude : significandEnd ≤ token.magnitude := hlarge
      cases hsign : token.negative with
      | true =>
          simp only [value, hsign, if_true] at hleast
          omega
      | false =>
          simp only [value, hsign, Bool.false_eq_true, if_false] at hmost
          omega
  · refine .inr ⟨?_, read_tail_not_integer _ _ hplain⟩
    intro h
    exact hplain ⟨h.noFraction, h.noExponent⟩

/-! ## A number as a whole text -/

/-- A text that is a number is read as one, after its sign. -/
theorem read_value_characters (fuel depth : Nat) :
    readValue (fuel + 1) depth token.characters =
      readNumber token.negative (token.whole.characters ++ token.tail) := by
  rw [characters]
  cases token.negative with
  | true => rfl
  | false =>
      obtain ⟨first, others, hdigits, hfirst⟩ := token.whole.exists_first
      rw [hdigits]
      exact read_value_digit hfirst fuel depth _

/-- The characters of a number are all on one line. -/
theorem newline_not_mem_characters : '\n' ∉ token.characters := by
  have hdigits : ∀ digits : Digits, '\n' ∉ digits.characters := by
    intro digits hmem
    exact absurd (digits.isDigit '\n' hmem) (by decide)
  have hfraction : '\n' ∉ fractionText token.fraction := by
    cases token.fraction with
    | none => simp [fractionText]
    | some digits => simp [fractionText, hdigits]
  have hexponent : '\n' ∉ exponentText token.exponent := by
    cases token.exponent with
    | none => simp [exponentText]
    | some exponent =>
        have hmark : '\n' ≠ exponent.mark := by
          obtain hmark | hmark := exponent.isMark <;> rw [hmark] <;> decide
        have hsign : '\n' ∉ exponent.sign := by
          obtain hsign | hsign | hsign := exponent.isSign <;> rw [hsign] <;> decide
        simp [exponentText, hmark, hsign, hdigits]
  have hminus : '\n' ∉ (if token.negative then ['-'] else []) := by
    cases token.negative <;> decide
  simp [characters, tail, hminus, hdigits, hfraction, hexponent]

end NumberToken

/-- The line of a point in a text of one line is the one that the text begins in. -/
theorem position_of_not_mem {text : List Char} (h : '\n' ∉ text) (line column bytes : Nat) :
    (Fault.position line column text bytes).1 = line := by
  induction text generalizing column bytes with
  | nil => cases bytes <;> rfl
  | cons character rest ih =>
      have hcharacter : character ≠ '\n' := by
        intro heq
        exact h (by simp [heq])
      have hrest : '\n' ∉ rest := fun hmem ↦ h (List.mem_cons_of_mem character hmem)
      cases bytes with
      | zero => rfl
      | succ bytes =>
          rw [Fault.position, if_neg hcharacter]
          · split
            · rfl
            · exact ih hrest _ _
          · exact Nat.succ_ne_zero bytes

namespace NumberToken

variable {token : NumberToken}

/-- The document of a number is the number that is read after its sign. -/
theorem of_json_of_read {tree : Tree}
    (h : readNumber token.negative (token.whole.characters ++ token.tail) = .ok (tree, [])) :
    Document.ofJson token.text = .ok tree := by
  rw [Document.ofJson, parse, readDocument, text, String.toList_ofList, read_value_characters, h]
  rfl

/-- A number out of range is reported at a column of the first line. -/
theorem of_json_of_out_of_range {unread : Nat}
    (h : readNumber token.negative (token.whole.characters ++ token.tail) =
      .error ⟨.numberOutOfRange, unread⟩) :
    ∃ column : Nat, Document.ofJson token.text =
      .error (.of (.parse s!"number out of range at line 1 column {column}")) := by
  have hline := position_of_not_mem token.newline_not_mem_characters 1 0
    (byteCount token.characters - unread)
  refine ⟨(Fault.position 1 0 token.characters (byteCount token.characters - unread)).2, ?_⟩
  rw [Document.ofJson, parse, readDocument, text, String.toList_ofList, read_value_characters, h]
  show Except.error (Failure.of (.parse
    (Fault.message ⟨.numberOutOfRange, unread⟩ token.characters))) = _
  simp only [Fault.message, Reason.text, hline]
  rfl

/-- The document of a number that is no integer is a floating-point number, or it is refused as out
of range. -/
theorem of_json_of_not_integer
    (h : NotInteger (readNumber token.negative (token.whole.characters ++ token.tail))) :
    (∃ number, Document.ofJson token.text = .ok (.float number)) ∨
      ∃ column : Nat, Document.ofJson token.text =
        .error (.of (.parse s!"number out of range at line 1 column {column}")) := by
  obtain ⟨number, hread⟩ | ⟨unread, hread⟩ := h
  · exact .inl ⟨number, of_json_of_read hread⟩
  · exact .inr (of_json_of_out_of_range hread)

end NumberToken

/-- A number is read as an integer exactly if it is written as one, is not the negative zero and fits
in 64 bits with a sign, and then as the integer that it writes. Every other number is read as a
floating-point number, or it is out of range. -/
theorem number_read_exactly (token : NumberToken) :
    (∀ n : Int64, Document.ofJson token.text = .ok (.int n) ↔
      token.IsInteger ∧ n.toInt = token.value) ∧
    (token.IsInteger ∨ (∃ number, Document.ofJson token.text = .ok (.float number)) ∨
      ∃ column : Nat, Document.ofJson token.text =
        .error (.of (.parse s!"number out of range at line 1 column {column}"))) := by
  obtain ⟨n, hinteger, hvalue, hread⟩ | ⟨hinteger, hread⟩ := token.read_cases
  · have hjson := NumberToken.of_json_of_read hread
    refine ⟨fun other ↦ ?_, .inl hinteger⟩
    rw [hjson]
    constructor
    · intro h
      cases h
      exact ⟨hinteger, hvalue⟩
    · intro h
      rw [Int64.toInt_inj.1 (hvalue.trans h.2.symm)]
  · have hjson := NumberToken.of_json_of_not_integer hread
    refine ⟨fun n ↦ ?_, .inr hjson⟩
    constructor
    · intro h
      obtain ⟨number, hfloat⟩ | ⟨column, herror⟩ := hjson
      · cases hfloat.symm.trans h
      · cases herror.symm.trans h
    · intro h
      exact absurd h.1 hinteger

/-- The greatest integer and the least one, the negative zero, and a number out of range. -/
example :
    Document.ofJson "9223372036854775807" = .ok (.int Int64.maxValue) ∧
      Document.ofJson "-9223372036854775808" = .ok (.int Int64.minValue) ∧
      Document.ofJson "-0" = .ok (.float (.zero true)) ∧
      Document.ofJson "1e400" =
        .error (.of (.parse "number out of range at line 1 column 5")) := by
  exact ⟨rfl, rfl, rfl, rfl⟩

end ConfigFill.Json
