import ConfigFill.Json.Reader
import ConfigFill.Proofs.Trace.Effect
import ConfigFill.Proofs.Tree.Shape

/-!
# What is read from JSON

Whatever the text, the tree that is read from it has no key twice in a mapping, and its containers
nest no deeper than the reader allows (`fits_of_parse`). A value that is read is a scalar, or it is
made of what the readers of items and of entries gave (`read_value_cases`); the rest is one
induction on the fuel that these three share.
-/

namespace ConfigFill.Json

open ConfigFill.Tree (IsScalar)

variable {negative : Bool} {significand : Significand} {text rest : List Char} {tree : Tree}

/-! ## Scalars -/

/-- A scaled significand is a floating-point number. -/
theorem is_scalar_of_scaled (h : scaled negative significand text = .ok (tree, rest)) :
    tree.IsScalar := by
  unfold scaled at h
  split at h
  · cases h
    exact ⟨rfl, rfl⟩
  · cases h

/-- A number with an exponent is a floating-point number. -/
theorem is_scalar_of_read_exponent
    (h : readExponent negative significand text = .ok (tree, rest)) : tree.IsScalar := by
  unfold readExponent at h
  dsimp only at h
  split at h
  · cases h
  · split at h
    · exact is_scalar_of_scaled h
    · -- An exponent that goes too far leaves a zero or nothing, whatever its sign is.
      split at h
      all_goals
        split at h
        · cases h
        · cases h
          exact ⟨rfl, rfl⟩

/-- So is one whose digits are followed by anything else. -/
theorem is_scalar_of_read_scale (h : readScale negative significand text = .ok (tree, rest)) :
    tree.IsScalar := by
  unfold readScale at h
  split at h
  · exact is_scalar_of_read_exponent h
  · exact is_scalar_of_read_exponent h
  · exact is_scalar_of_scaled h

/-- So is one with a fraction. -/
theorem is_scalar_of_read_fraction
    (h : readFraction negative significand text = .ok (tree, rest)) : tree.IsScalar := by
  unfold readFraction at h
  split at h
  · cases h
  · exact is_scalar_of_read_scale h

/-- A whole number is an integer or a floating-point number. -/
theorem is_scalar_whole (negative : Bool) (value : Nat) : (whole negative value).IsScalar := by
  unfold whole signed
  split
  · split <;> exact ⟨rfl, rfl⟩
  · split <;> exact ⟨rfl, rfl⟩

/-- A number is read as a scalar. -/
theorem is_scalar_of_read_number (h : readNumber negative text = .ok (tree, rest)) :
    tree.IsScalar := by
  unfold readNumber at h
  split at h
  · cases h
  · cases h
  · unfold readAfterWhole at h
    dsimp only at h
    split at h
    · exact is_scalar_of_read_fraction h
    · exact is_scalar_of_read_scale h
    · exact is_scalar_of_read_scale h
    · split at h
      · cases h
        exact is_scalar_whole _ _
      · exact is_scalar_of_scaled h

/-- A word is read as the value that it stands for. -/
theorem eq_of_read_word {value : Tree} {letters : List Char}
    (h : readWord value letters text = .ok (tree, rest)) : tree = value := by
  induction letters generalizing text with
  | nil =>
      cases h
      rfl
  | cons letter letters ih =>
      cases text with
      | nil => cases h
      | cons first text =>
          simp only [readWord] at h
          split at h
          · exact ih h
          · cases h

/-! ## Containers -/

/-- What a value that is read is: a scalar, or a container of what is read one level below it. -/
theorem read_value_cases {fuel depth : Nat}
    (h : readValue (fuel + 1) depth text = .ok (tree, rest)) :
    tree.IsScalar ∨
      ∃ below inner, depth = below + 1 ∧
        ((∃ items, readItems fuel below true inner = .ok (items, rest) ∧ tree = .sequence items) ∨
          ∃ pairs, readPairs fuel below true inner = .ok (pairs, rest) ∧
            tree = .mapping (Entries.ofPairs pairs)) := by
  have hword {value : Tree} {letters text : List Char} (hvalue : value.IsScalar)
      (h : readWord value letters text = .ok (tree, rest)) : tree.IsScalar :=
    eq_of_read_word h ▸ hvalue
  unfold readValue at h
  split at h
  · cases h
  · exact .inl (hword ⟨rfl, rfl⟩ h)
  · exact .inl (hword ⟨rfl, rfl⟩ h)
  · exact .inl (hword ⟨rfl, rfl⟩ h)
  · exact .inl (is_scalar_of_read_number h)
  · obtain ⟨⟨value, after⟩, _, hvalue⟩ := Except.bind_eq_ok_iff.1 h
    cases hvalue
    exact .inl ⟨rfl, rfl⟩
  · split at h
    · cases h
    · obtain ⟨⟨items, after⟩, hitems, hvalue⟩ := Except.bind_eq_ok_iff.1 h
      cases hvalue
      exact .inr ⟨_, _, rfl, .inl ⟨items, hitems, rfl⟩⟩
  · split at h
    · cases h
    · obtain ⟨⟨pairs, after⟩, hpairs, hvalue⟩ := Except.bind_eq_ok_iff.1 h
      cases hvalue
      exact .inr ⟨_, _, rfl, .inr ⟨pairs, hpairs, rfl⟩⟩
  · split at h
    · exact .inl (is_scalar_of_read_number h)
    · cases h

/-- Items that are read are none, or one and then others. -/
theorem read_items_cases {fuel depth : Nat} {first : Bool} {items : List Tree}
    (h : readItems (fuel + 1) depth first text = .ok (items, rest)) :
    items = [] ∨
      ∃ item others inner after, readValue fuel depth inner = .ok (item, after) ∧
        readItems fuel depth false after = .ok (others, rest) ∧ items = item :: others := by
  unfold readItems at h
  split at h
  · cases h
  · cases h
    exact .inl rfl
  · obtain ⟨⟨item, after⟩, hitem, h⟩ := Except.bind_eq_ok_iff.1 h
    obtain ⟨⟨others, last⟩, hothers, h⟩ := Except.bind_eq_ok_iff.1 h
    cases h
    exact .inr ⟨item, others, _, after, hitem, hothers, rfl⟩

/-- Entries that are read are none, or one and then others. -/
theorem read_pairs_cases {fuel depth : Nat} {first : Bool} {pairs : List (String × Tree)}
    (h : readPairs (fuel + 1) depth first text = .ok (pairs, rest)) :
    pairs = [] ∨
      ∃ key value others inner after, readValue fuel depth inner = .ok (value, after) ∧
        readPairs fuel depth false after = .ok (others, rest) ∧ pairs = (key, value) :: others := by
  unfold readPairs at h
  split at h
  · cases h
  · cases h
    exact .inl rfl
  · obtain ⟨⟨key, _⟩, _, h⟩ := Except.bind_eq_ok_iff.1 h
    obtain ⟨inner, _, h⟩ := Except.bind_eq_ok_iff.1 h
    obtain ⟨⟨value, after⟩, hvalue, h⟩ := Except.bind_eq_ok_iff.1 h
    obtain ⟨⟨others, last⟩, hothers, h⟩ := Except.bind_eq_ok_iff.1 h
    cases h
    exact .inr ⟨key, value, others, inner, after, hvalue, hothers, rfl⟩

mutual

/-- A value that is read fits the depth that it is read with. -/
theorem fits_of_read_value {fuel depth : Nat} {text rest : List Char} {tree : Tree}
    (h : readValue fuel depth text = .ok (tree, rest)) : tree.Fits depth := by
  cases fuel with
  | zero => cases h
  | succ fuel =>
      obtain hscalar | ⟨below, inner, rfl, hbelow⟩ := read_value_cases h
      · exact hscalar.fits depth
      · obtain ⟨items, hitems, rfl⟩ | ⟨pairs, hpairs, rfl⟩ := hbelow
        · exact Tree.fits_sequence (fits_of_read_items hitems)
        · exact Tree.fits_of_pairs (fits_of_read_pairs hpairs)

/-- Items that are read fit the depth that they are read with. -/
theorem fits_of_read_items {fuel depth : Nat} {first : Bool} {text rest : List Char}
    {items : List Tree} (h : readItems fuel depth first text = .ok (items, rest)) :
    ∀ item ∈ items, item.Fits depth := by
  cases fuel with
  | zero => cases h
  | succ fuel =>
      obtain rfl | ⟨item, others, inner, after, hitem, hothers, rfl⟩ := read_items_cases h
      · exact fun _ hmem ↦ absurd hmem List.not_mem_nil
      · exact List.forall_mem_cons.2 ⟨fits_of_read_value hitem, fits_of_read_items hothers⟩

/-- The values of entries that are read fit the depth that they are read with. -/
theorem fits_of_read_pairs {fuel depth : Nat} {first : Bool} {text rest : List Char}
    {pairs : List (String × Tree)} (h : readPairs fuel depth first text = .ok (pairs, rest)) :
    ∀ pair ∈ pairs, pair.2.Fits depth := by
  cases fuel with
  | zero => cases h
  | succ fuel =>
      obtain rfl | ⟨key, value, others, inner, after, hvalue, hothers, rfl⟩ := read_pairs_cases h
      · exact fun _ hmem ↦ absurd hmem List.not_mem_nil
      · exact List.forall_mem_cons.2 ⟨fits_of_read_value hvalue, fits_of_read_pairs hothers⟩

end

/-- A tree that is read from JSON has no key twice in a mapping and nests at most 127 deep. -/
theorem fits_of_parse {text : String} {tree : Tree} (h : parse text = .ok tree) :
    tree.Fits depthLimit := by
  rw [parse, Except.map_error_eq_ok_iff, readDocument, Except.bind_eq_ok_iff] at h
  obtain ⟨⟨value, rest⟩, hread, h⟩ := h
  dsimp only at h
  split at h
  · cases h
    exact fits_of_read_value hread
  · cases h

end ConfigFill.Json
