import Mathlib.Tactic.SplitIfs

/-!
# The order of texts as bytes

Texts are ordered by their characters. In UTF-8 a greater character has the greater bytes, and no
character's bytes begin with those of another, so the bytes of texts are in the same order
(`bytes_lt`).
-/

namespace ConfigFill.Text

/-- The bytes of a text in UTF-8. -/
def bytes (text : String) : List UInt8 :=
  text.toUTF8.data.toList

/-- The bytes of a text are those of its characters in a row. -/
theorem bytes_eq (text : String) : bytes text = text.toList.flatMap String.utf8EncodeChar := by
  rw [bytes, String.toUTF8_eq_toByteArray, ← String.utf8Encode_toList, List.utf8Encode,
    List.data_toByteArray]

/-- The bytes of characters are in the order of the characters, whatever comes after them. -/
theorem encoded_lt {first second : Char} (h : first < second) (rest others : List UInt8) :
    String.utf8EncodeChar first ++ rest < String.utf8EncodeChar second ++ others := by
  have hcode : first.val.toNat < second.val.toNat := UInt32.lt_iff_toNat_lt.1 h
  have hbound (character : Char) : character.val.toNat < 1114112 := by
    rcases character.valid with h | h <;> omega
  have hfirst := hbound first
  have hsecond := hbound second
  -- The bytes are the digits of the code to the base 64, with a mark that grows with their number.
  have htwo (code : Nat) : code / 4096 = code / 64 / 64 := by omega
  have hthree (code : Nat) : code / 262144 = code / 64 / 64 / 64 := by omega
  simp only [String.utf8EncodeChar, htwo, hthree]
  split_ifs
  all_goals
    simp only [List.cons_append, List.nil_append, List.cons_lt_cons_iff, UInt8.lt_iff_toNat_lt,
      ← UInt8.toNat_inj, UInt8.toNat_ofNat', Nat.reducePow]
    omega

/-- The first characters that differ decide. -/
theorem encoded_texts_lt {text other : List Char} (h : text < other) :
    text.flatMap String.utf8EncodeChar < other.flatMap String.utf8EncodeChar := by
  induction h with
  | nil =>
      rename_i first rest
      have hne : String.utf8EncodeChar first ≠ [] := String.utf8EncodeChar_ne_nil
      obtain ⟨byte, bytes, hbytes⟩ := List.exists_cons_of_ne_nil hne
      rw [List.flatMap_cons, hbytes]
      exact List.nil_lt_cons _ _
  | rel h => exact encoded_lt h _ _
  | cons _ ih =>
      rw [List.flatMap_cons, List.flatMap_cons]
      exact List.append_left_lt ih

/-- The bytes of a greater text are greater. -/
theorem bytes_lt {text other : String} (h : text < other) : bytes text < bytes other := by
  rw [bytes_eq, bytes_eq]
  exact encoded_texts_lt (String.lt_iff.1 h)

end ConfigFill.Text
