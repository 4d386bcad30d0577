import ConfigFill.Tree.Path
import Mathlib.Data.List.Induction
import Mathlib.Data.List.TakeWhile

/-!
# Paths as text

Reading the text of a path, one step at its end at a time. The text of two paths with a dot between
them is read as the one path and then the other (`of_text_dot_eq_ok_iff`), and a position in
brackets after a text is read as one more step, if the text is read at all
(`of_text_bracketed_eq_ok_iff`). So a path whose keys have no dots and no brackets and whose
positions are small is read back from its text: `of_text_text`.
-/

namespace ConfigFill.Tree

/-- The key is not empty and has none of the characters that end a key in the text of a path. -/
structure IsPlainKey (name : String) : Prop where
  nonempty : name ≠ ""
  dot : '.' ∉ name.toList
  opening : '[' ∉ name.toList
  closing : ']' ∉ name.toList

/-- The text of the step is read as the step: a key is plain, and a position is below 2^64. -/
def Step.IsPlain : Step → Prop
  | .key name => IsPlainKey name
  | .position index => index < Nat.pow 2 64

namespace Path

/-- Every step of the path is plain. -/
def IsPlain (path : Path) : Prop :=
  ∀ step ∈ path, step.IsPlain

/-- Pieces are read one after the other, each to its own steps. -/
theorem of_parts_cons_eq_ok_iff {part : List Char} {rest : List (List Char)} {path : Path} :
    ofParts (part :: rest) = .ok path ↔
      ∃ steps others, ofPart part = .ok steps ∧ ofParts rest = .ok others ∧
        path = steps ++ others := by
  rw [ofParts]
  cases ofPart part with
  | error fault => simp [bind, Except.bind]
  | ok steps =>
      cases ofParts rest with
      | error fault => simp [bind, Except.bind]
      | ok others => simp [bind, Except.bind, pure, Except.pure, eq_comm]

/-- Parts are read one after the other. -/
theorem of_parts_append_eq_ok_iff {first second : List (List Char)} {path : Path} :
    ofParts (first ++ second) = .ok path ↔
      ∃ steps others, ofParts first = .ok steps ∧ ofParts second = .ok others ∧
        path = steps ++ others := by
  induction first generalizing path with
  | nil => simp [ofParts]
  | cons part rest ih =>
      simp only [List.cons_append, of_parts_cons_eq_ok_iff, ih]
      constructor
      · rintro ⟨steps, _, hpart, ⟨middle, last, hrest, hsecond, rfl⟩, rfl⟩
        exact ⟨_, last, ⟨steps, middle, hpart, hrest, rfl⟩, hsecond, by simp⟩
      · rintro ⟨_, last, ⟨steps, middle, hpart, hrest, rfl⟩, hsecond, rfl⟩
        exact ⟨steps, _, hpart, ⟨middle, last, hrest, hsecond, rfl⟩, by simp⟩

/-- A single piece is read by itself. -/
theorem of_parts_singleton_eq_ok_iff {part : List Char} {path : Path} :
    ofParts [part] = .ok path ↔ ofPart part = .ok path := by
  rw [of_parts_cons_eq_ok_iff]
  constructor
  · rintro ⟨steps, others, hpart, hnil, rfl⟩
    cases hnil
    rwa [List.append_nil]
  · intro hpart
    exact ⟨path, [], hpart, rfl, (List.append_nil path).symm⟩

/-- An empty piece is read as no steps. -/
theorem of_part_nil : ofPart [] = .ok [] := by
  simp [ofPart, positions, Except.map]

/-- Whether empty parts are left out does not matter. -/
theorem of_parts_filter (parts : List (List Char)) :
    ofParts (parts.filter fun part ↦ !part.isEmpty) = ofParts parts := by
  induction parts with
  | nil => rfl
  | cons part rest ih =>
      cases part with
      | nil =>
          have hparts : ofParts ([] :: rest) = ofParts rest := by
            simp only [ofParts, of_part_nil]
            cases ofParts rest <;> rfl
          simpa [hparts] using ih
      | cons character part => simp [ofParts, ih]

/-- A text is read as its pieces between dots. -/
theorem of_text_eq (text : String) : ofText text = ofParts (Text.segments '.' text.toList) :=
  of_parts_filter _

/-- What is before a dot is read as if nothing came after it, and so is what is after the dot. -/
theorem of_text_dot_eq_ok_iff {first second : String} {path : Path} :
    ofText (first ++ "." ++ second) = .ok path ↔
      ∃ steps others, ofText first = .ok steps ∧ ofText second = .ok others ∧
        path = steps ++ others := by
  have htext : (first ++ "." ++ second).toList = first.toList ++ '.' :: second.toList := by simp
  rw [of_text_eq, of_text_eq, of_text_eq, htext, Text.segments_append, of_parts_append_eq_ok_iff]

/-- A position in brackets. -/
def bracketed (index : Nat) : List Char :=
  '[' :: Nat.toDigits 10 index ++ [']']

/-- A number is written with digits only. -/
theorem not_mem_to_digits {character : Char} (h : character.isDigit = false) (index : Nat) :
    character ∉ Nat.toDigits 10 index := by
  intro hmem
  rw [Text.is_digit_of_mem_to_digits hmem] at h
  cases h

/-- Decimal digits of a small number, after a plus sign or not, and nothing else are read as a
position. -/
theorem index?_eq_some_iff {text : List Char} {index : Nat} :
    index? text = some index ↔
      ∃ digits, (text = digits ∨ text = '+' :: digits) ∧
        Text.number? 10 digits = some index ∧ index < Nat.pow 2 64 := by
  constructor
  · intro h
    unfold index? at h
    split at h
    · obtain ⟨hnumber, hsmall⟩ := Option.filter_eq_some_iff.1 h
      exact ⟨_, .inr rfl, hnumber, of_decide_eq_true hsmall⟩
    · obtain ⟨hnumber, hsmall⟩ := Option.filter_eq_some_iff.1 h
      exact ⟨text, .inl rfl, hnumber, of_decide_eq_true hsmall⟩
  · rintro ⟨digits, rfl | rfl, hnumber, hsmall⟩
    · have hplus : ∀ rest, text ≠ '+' :: rest := by
        rintro rest rfl
        have hdigit := (Text.number?_ten_eq_some_iff.1 hnumber).2.1 '+' List.mem_cons_self
        exact absurd hdigit (by decide)
      unfold index?
      split
      · exact absurd rfl (hplus _)
      · exact Option.filter_eq_some_iff.2 ⟨hnumber, decide_eq_true hsmall⟩
    · exact Option.filter_eq_some_iff.2 ⟨hnumber, decide_eq_true hsmall⟩

/-- The digits of a small number are read as that number. -/
theorem index?_to_digits {index : Nat} (h : index < Nat.pow 2 64) :
    index? (Nat.toDigits 10 index) = some index :=
  index?_eq_some_iff.2 ⟨_, .inl rfl, Text.number?_to_digits index, h⟩

/-- No bracket opens inside a position. -/
theorem opening_not_mem_of_index? {text : List Char} {index : Nat} (h : index? text = some index) :
    '[' ∉ text := by
  obtain ⟨digits, htext, hnumber, _⟩ := index?_eq_some_iff.1 h
  have hdigits : '[' ∉ digits := by
    intro hmem
    exact absurd ((Text.number?_ten_eq_some_iff.1 hnumber).2.1 '[' hmem) (by decide)
  obtain rfl | rfl := htext
  · exact hdigits
  · simp [hdigits]

/-- A group in brackets is read up to its closing bracket, and then what comes after it. -/
theorem positions_group {inside : List Char} (h : ']' ∉ inside) (rest : List Char) :
    positions ('[' :: inside ++ ']' :: rest) =
      match index? inside with
      | none => .error (.badIndex (String.ofList inside))
      | some index => (positions rest).map (.position index :: ·) := by
  have htake := Text.take_while_ne_cut h rest
  have hdrop : (inside ++ ']' :: rest).drop (inside.length + 1) = rest := by
    simp [List.drop_append]
  have hclosing : ']' ∈ inside ++ ']' :: rest := by simp
  rw [List.cons_append, positions]
  cases hindex : index? inside with
  | none => simp only [hclosing, if_true, htake, hindex]
  | some index => simp only [hclosing, if_true, htake, hdrop, hindex]

/-- A bracket that is not closed is refused. -/
theorem positions_unclosed {rest : List Char} (h : ']' ∉ rest) :
    positions ('[' :: rest) = .error .unclosedBracket := by
  rw [positions, if_neg h]

/-- Text that does not begin with a bracket is no group. -/
theorem positions_trailing {character : Char} (h : character ≠ '[') (rest : List Char) :
    positions (character :: rest) = .error .unclosedBracket := by
  rw [positions]
  · simp
  · intro other heq
    exact h (List.cons.inj heq).1

/-- A text in which groups are looked for is at its end, or begins with a group in brackets, or with
a bracket that never closes, or with something else. -/
theorem brackets_cases (text : List Char) :
    text = [] ∨
      (∃ inside rest, ']' ∉ inside ∧ text = '[' :: inside ++ ']' :: rest) ∨
      (∃ rest, ']' ∉ rest ∧ text = '[' :: rest) ∨
      ∃ character rest, character ≠ '[' ∧ text = character :: rest := by
  cases text with
  | nil => exact .inl rfl
  | cons character rest =>
      by_cases hopening : character = '['
      · subst hopening
        by_cases hclosing : ']' ∈ rest
        · obtain ⟨inside, after, rfl, hinside⟩ := List.eq_append_cons_of_mem hclosing
          exact .inr (.inl ⟨inside, after, hinside, rfl⟩)
        · exact .inr (.inr (.inl ⟨rest, hclosing, rfl⟩))
      · exact .inr (.inr (.inr ⟨character, rest, hopening, rfl⟩))

/-- The text is a row of groups in brackets, each of which holds a position. -/
inductive Groups : List Char → Path → Prop where
  | nil : Groups [] []
  | cons {inside rest : List Char} {index : Nat} {steps : Path} (hinside : ']' ∉ inside)
      (hindex : index? inside = some index) (hrest : Groups rest steps) :
      Groups ('[' :: inside ++ ']' :: rest) (.position index :: steps)

/-- Positions are read from rows of groups and from nothing else. -/
theorem positions_eq_ok_iff {brackets : List Char} {steps : Path} :
    positions brackets = .ok steps ↔ Groups brackets steps := by
  constructor
  · intro h
    -- The induction is on the length of the text, of which one group is taken at a time.
    induction hlength : brackets.length using Nat.strongRecOn generalizing brackets steps with
    | ind length ih =>
        obtain rfl | ⟨inside, rest, hinside, rfl⟩ | ⟨rest, hclosing, rfl⟩ |
          ⟨character, rest, hopening, rfl⟩ := brackets_cases brackets
        · rw [positions] at h
          cases h
          exact .nil
        · rw [positions_group hinside] at h
          cases hindex : index? inside with
          | none => simp [hindex] at h
          | some index =>
              simp only [hindex] at h
              cases hrest : positions rest with
              | error fault => simp [hrest, Except.map] at h
              | ok others =>
                  rw [hrest] at h
                  cases h
                  have hlt : rest.length < length := by
                    simp only [List.length_cons, List.length_append] at hlength
                    omega
                  exact .cons hinside hindex (ih _ hlt hrest rfl)
        · cases (positions_unclosed hclosing).symm.trans h
        · cases (positions_trailing hopening rest).symm.trans h
  · intro h
    induction h with
    | nil => rw [positions]
    | cons hinside hindex _ ih =>
        rw [positions_group hinside, hindex, ih]
        rfl

/-- Bracket groups in a row give their steps in a row. -/
theorem Groups.append {brackets others : List Char} {steps more : Path} (h : Groups brackets steps)
    (hothers : Groups others more) : Groups (brackets ++ others) (steps ++ more) := by
  induction h with
  | nil => exact hothers
  | cons hinside hindex _ ih =>
      rw [List.append_assoc, List.cons_append]
      exact .cons hinside hindex ih

/-- A small position in brackets is one group. -/
theorem groups_bracketed {index : Nat} (h : index < Nat.pow 2 64) :
    Groups (bracketed index) [.position index] :=
  .cons (not_mem_to_digits (by decide) index) (index?_to_digits h) .nil

/-- Before a small position in brackets that ends a row of groups there is a row of groups. -/
theorem Groups.of_append_bracketed {brackets : List Char} {steps : Path} {index : Nat}
    (h : Groups (brackets ++ bracketed index) steps) (hindex : index < Nat.pow 2 64) :
    ∃ others, Groups brackets others ∧ steps = others ++ [.position index] := by
  have hdigits : ']' ∉ Nat.toDigits 10 index := not_mem_to_digits (by decide) index
  generalize htext : brackets ++ bracketed index = text at h
  induction h generalizing brackets with
  | nil => simp [bracketed] at htext
  | @cons inside rest found steps hinside hfound hrest ih =>
      cases brackets with
      | nil =>
          -- This group is the position itself.
          have hcut : Nat.toDigits 10 index ++ ']' :: [] = inside ++ ']' :: rest :=
            (List.cons.inj htext).2
          obtain ⟨rfl, rfl⟩ := Text.cut_injective hdigits hinside hcut
          rw [index?_to_digits hindex] at hfound
          cases hfound
          cases hrest
          exact ⟨[], .nil, rfl⟩
      | cons first brackets =>
          simp only [List.cons_append, List.cons.injEq] at htext
          obtain ⟨rfl, hcut⟩ := htext
          by_cases hclosing : ']' ∈ brackets
          · obtain ⟨before, after, rfl, hbefore⟩ := List.eq_append_cons_of_mem hclosing
            rw [List.append_assoc, List.cons_append] at hcut
            obtain ⟨rfl, hafter⟩ := Text.cut_injective hbefore hinside hcut
            obtain ⟨others, hothers, rfl⟩ := ih hafter
            exact ⟨_, .cons hinside hfound hothers, rfl⟩
          · -- The group runs on into the position, and an opening bracket is no digit.
            have hlong : ']' ∉ brackets ++ '[' :: Nat.toDigits 10 index := by
              simp [hclosing, hdigits]
            have hcut : (brackets ++ '[' :: Nat.toDigits 10 index) ++ ']' :: [] =
                inside ++ ']' :: rest := by
              simpa [bracketed] using hcut
            obtain ⟨rfl, _⟩ := Text.cut_injective hlong hinside hcut
            exact absurd (by simp) (opening_not_mem_of_index? hfound)

/-- The step by a key, or none if there is no text for one. -/
def keySteps (name : List Char) : Path :=
  if name.isEmpty then [] else [.key (String.ofList name)]

/-- A row of groups is nothing or begins with a bracket. -/
theorem Groups.head_eq {brackets : List Char} {steps : Path} (h : Groups brackets steps) :
    ∀ first ∈ brackets.head?, first = '[' := by
  cases h <;> simp

/-- The text of a key ends where a bracket opens. -/
theorem of_part_append {name brackets : List Char} (hopening : '[' ∉ name) (hclosing : ']' ∉ name)
    (hbrackets : ∀ first ∈ brackets.head?, first = '[') :
    ofPart (name ++ brackets) = (positions brackets).map (keySteps name ++ ·) := by
  have hkept := Text.decide_ne_of_not_mem hopening
  have htake : (name ++ brackets).takeWhile (· ≠ '[') = name := by
    rw [List.takeWhile_append_of_pos hkept]
    cases brackets with
    | nil => simp
    | cons first rest => simp [hbrackets first rfl]
  have hdrop : (name ++ brackets).dropWhile (· ≠ '[') = brackets := by
    rw [List.dropWhile_append_of_pos hkept]
    cases brackets with
    | nil => rfl
    | cons first rest => simp [hbrackets first rfl]
  simp only [ofPart, htake, hdrop, hclosing, if_false, keySteps]
  congr 1
  funext steps
  split <;> rfl

/-- A part is read if it is a text without brackets and then a row of groups. -/
theorem of_part_eq_ok_iff {part : List Char} {path : Path} :
    ofPart part = .ok path ↔
      ∃ name brackets steps, part = name ++ brackets ∧ '[' ∉ name ∧ ']' ∉ name ∧
        Groups brackets steps ∧ path = keySteps name ++ steps := by
  constructor
  · intro h
    simp only [ofPart] at h
    split at h
    · cases h
    · rename_i hclosing
      cases hpositions : positions (part.dropWhile (· ≠ '[')) with
      | error fault =>
          rw [hpositions] at h
          cases h
      | ok steps =>
          rw [hpositions] at h
          cases h
          refine ⟨part.takeWhile (· ≠ '['), part.dropWhile (· ≠ '['), steps,
            List.takeWhile_append_dropWhile.symm, ?_, hclosing,
            positions_eq_ok_iff.1 hpositions, ?_⟩
          · intro hmem
            simpa using List.mem_takeWhile_imp hmem
          · unfold keySteps
            split <;> rfl
  · rintro ⟨name, brackets, steps, rfl, hopening, hclosing, hgroups, rfl⟩
    rw [of_part_append hopening hclosing hgroups.head_eq, positions_eq_ok_iff.2 hgroups]
    rfl

/-- A plain key is read as the step by it. -/
theorem of_part_key {name : String} (h : IsPlainKey name) :
    ofPart name.toList = .ok [.key name] := by
  have hname : name.toList.isEmpty = false := by simpa using h.nonempty
  refine of_part_eq_ok_iff.2 ⟨name.toList, [], [], by simp, h.opening, h.closing, .nil, ?_⟩
  simp [keySteps, hname]

/-- A small position in brackets after a part is one more step of it, and the part is read with it
exactly if it is read without it. -/
theorem of_part_bracketed_eq_ok_iff {part : List Char} {path : Path} {index : Nat}
    (hindex : index < Nat.pow 2 64) :
    ofPart (part ++ bracketed index) = .ok path ↔
      ∃ steps, ofPart part = .ok steps ∧ path = steps ++ [.position index] := by
  constructor
  · intro h
    obtain ⟨name, brackets, steps, hpart, hopening, hclosing, hgroups, rfl⟩ :=
      of_part_eq_ok_iff.1 h
    obtain ⟨before, rfl, rfl⟩ : ∃ before, part = name ++ before ∧
        brackets = before ++ bracketed index := by
      obtain ⟨before, hname, hbrackets⟩ | ⟨before, hname, hbrackets⟩ :=
        List.append_eq_append_iff.1 hpart
      · -- The key would reach into the position, which begins with a bracket.
        cases before with
        | nil => exact ⟨[], by simpa using hname.symm, by simpa using hbrackets.symm⟩
        | cons first before =>
            rw [bracketed, List.cons_append, List.cons_append, List.cons.injEq] at hbrackets
            exact absurd (by simp [hname, ← hbrackets.1]) hopening
      · exact ⟨before, hname, hbrackets⟩
    obtain ⟨others, hothers, rfl⟩ := hgroups.of_append_bracketed hindex
    exact ⟨_, of_part_eq_ok_iff.2 ⟨name, before, others, rfl, hopening, hclosing, hothers, rfl⟩,
      (List.append_assoc ..).symm⟩
  · rintro ⟨steps, h, rfl⟩
    obtain ⟨name, brackets, steps, rfl, hopening, hclosing, hgroups, rfl⟩ :=
      of_part_eq_ok_iff.1 h
    exact of_part_eq_ok_iff.2 ⟨name, _, _, List.append_assoc .., hopening, hclosing,
      hgroups.append (groups_bracketed hindex), List.append_assoc ..⟩

/-- A small position in brackets after a text is one more step of the path that the text is read
as, and the text is read with it exactly if it is read without it. -/
theorem of_text_bracketed_eq_ok_iff {text : String} {path : Path} {index : Nat}
    (hindex : index < Nat.pow 2 64) :
    ofText (text ++ "[" ++ toString index ++ "]") = .ok path ↔
      ∃ steps, ofText text = .ok steps ∧ path = steps ++ [.position index] := by
  have htext : (text ++ "[" ++ toString index ++ "]").toList = text.toList ++ bracketed index := by
    simp [bracketed]
  have hdigits : '.' ∉ Nat.toDigits 10 index := not_mem_to_digits (by decide) index
  have hdot : '.' ∉ bracketed index := by simp [bracketed, hdigits]
  obtain ⟨before, last, hsegments, happended⟩ := Text.segments_append_of_not_mem text.toList hdot
  rw [of_text_eq, of_text_eq, htext, hsegments, happended, of_parts_append_eq_ok_iff]
  simp only [of_parts_append_eq_ok_iff, of_parts_singleton_eq_ok_iff,
    of_part_bracketed_eq_ok_iff hindex]
  constructor
  · rintro ⟨steps, _, hbefore, ⟨others, hlast, rfl⟩, rfl⟩
    exact ⟨_, ⟨steps, others, hbefore, hlast, rfl⟩, (List.append_assoc ..).symm⟩
  · rintro ⟨_, ⟨steps, others, hbefore, hlast, rfl⟩, rfl⟩
    exact ⟨steps, _, hbefore, ⟨others, hlast, rfl⟩, List.append_assoc ..⟩

/-- One more step is written after the others. -/
theorem text_concat (path : Path) (step : Step) :
    text (path ++ [step]) = extended (text path) step := by
  simp [text]

/-- Only the path without steps has no text, if its keys have. -/
theorem text_eq_empty_iff {path : Path} (h : path.IsPlain) : text path = "" ↔ path = [] := by
  cases path using List.reverseRecOn with
  | nil => simp [text]
  | append_singleton path step =>
      have hstep := h step (by simp)
      rw [text_concat]
      cases step with
      | key name =>
          have hname : name ≠ "" := hstep.nonempty
          simp only [extended]
          split <;> simp [hname]
      | position index => simp [extended]

/-- A plain path is read back from its text. -/
theorem of_text_text {path : Path} (h : path.IsPlain) : ofText path.text = .ok path := by
  -- The induction is from the end of the path, where its text grows.
  induction path using List.reverseRecOn with
  | nil => rfl
  | append_singleton path step ih =>
      have hpath : IsPlain path := fun other hother ↦ h other (by simp [hother])
      have hstep : step.IsPlain := h step (by simp)
      rw [text_concat]
      cases step with
      | position index => exact (of_text_bracketed_eq_ok_iff hstep).2 ⟨path, ih hpath, rfl⟩
      | key name =>
          have hname : ofText name = .ok [.key name] := by
            rw [of_text_eq, Text.segments_of_not_mem hstep.dot]
            exact of_parts_cons_eq_ok_iff.2 ⟨_, [], of_part_key hstep, rfl, rfl⟩
          simp only [extended]
          split
          · rename_i hempty
            obtain rfl := (text_eq_empty_iff hpath).1 (String.isEmpty_iff.1 hempty)
            exact hname
          · exact of_text_dot_eq_ok_iff.2 ⟨path, _, ih hpath, hname, rfl⟩

/-- Plain paths with the same text are the same. -/
theorem IsPlain.eq_of_text {path other : Path} (h : path.IsPlain) (hother : other.IsPlain)
    (htext : path.text = other.text) : path = other := by
  have hread := of_text_text h
  rw [htext, of_text_text hother] at hread
  exact (Except.ok.inj hread).symm

end Path

end ConfigFill.Tree
