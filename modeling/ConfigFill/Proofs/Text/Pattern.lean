import Mathlib.Data.List.Basic
import Mathlib.Data.List.TakeWhile

/-!
# Patterns

Patterns over texts, and the ways in which a pattern can match the beginning of a text, in the order
in which they are tried: a repetition first takes as many characters as it can, and an option is
first taken. The match of a pattern is the first way that there is (`Pattern.first?`), and in a
search it is the first at the leftmost position that has one (`Pattern.search?`).

The main statement is `first_sequence_eq`: a sequence matches in the first way of its first part
after which its second part matches, and then as the second part does.
-/

namespace ConfigFill.Text

/-- A pattern over the characters of a text. -/
inductive Pattern where
  | literal (expected : String)
  /-- One character of a class. -/
  | one (accepts : Char → Bool)
  /-- Any number of characters of a class. -/
  | many (accepts : Char → Bool)
  | sequence (first second : Pattern)
  /-- The pattern, or nothing. -/
  | option (inner : Pattern)
  /-- The pattern, with a number under which the match keeps what it matched. -/
  | group (number : Nat) (inner : Pattern)

/-- How a pattern matches the beginning of a text: with which characters, what its groups keep, and
what is left over. -/
structure Match where
  matched : List Char
  groups : List (Nat × List Char)
  rest : List Char
  deriving DecidableEq, Repr

namespace Match

/-- The match of nothing. -/
def nothing (text : List Char) : Match :=
  ⟨[], [], text⟩

/-- One match and the next after it. -/
def followed (found next : Match) : Match :=
  ⟨found.matched ++ next.matched, found.groups ++ next.groups, next.rest⟩

/-- The match with what it matched kept under a number. -/
def kept (number : Nat) (found : Match) : Match :=
  { found with groups := (number, found.matched) :: found.groups }

/-- What is kept under a number. -/
def group? (found : Match) (number : Nat) : Option (List Char) :=
  found.groups.lookup number

end Match

namespace Pattern

/-- At least one character of a class. -/
def atLeastOne (accepts : Char → Bool) : Pattern :=
  sequence (one accepts) (many accepts)

/-- The ways to take any number of characters of a class, the longest first. -/
def runs (accepts : Char → Bool) : List Char → List Match
  | [] => [.nothing []]
  | character :: rest =>
      if accepts character then
        (runs accepts rest).map (Match.followed ⟨[character], [], rest⟩) ++
          [.nothing (character :: rest)]
      else [.nothing (character :: rest)]

/-- The ways in which the pattern matches the beginning of a text, in the order of preference. -/
def ways : Pattern → List Char → List Match
  | literal expected, text =>
      match expected.toList.isPrefixOf? text with
      | some rest => [⟨expected.toList, [], rest⟩]
      | none => []
  | one accepts, text =>
      match text with
      | [] => []
      | character :: rest => if accepts character then [⟨[character], [], rest⟩] else []
  | many accepts, text => runs accepts text
  | sequence first second, text =>
      (ways first text).flatMap fun found ↦ (ways second found.rest).map found.followed
  | option inner, text => ways inner text ++ [.nothing text]
  | group number inner, text => (ways inner text).map (.kept number)

/-- The preferred match of the pattern at the beginning of a text. -/
def first? (pattern : Pattern) (text : List Char) : Option Match :=
  (pattern.ways text).head?

/-- The preferred match at the leftmost position that has one, and what stands before it. -/
def search? (pattern : Pattern) : List Char → Option (List Char × Match)
  | [] => (pattern.first? []).map ([], ·)
  | character :: rest =>
      match pattern.first? (character :: rest) with
      | some found => some ([], found)
      | none => (search? pattern rest).map fun parts ↦ (character :: parts.1, parts.2)

variable {first second inner : Pattern} {accepts : Char → Bool} {text rest : List Char}
  {found next : Match}

/-- A literal takes itself and nothing else. -/
theorem mem_ways_literal_iff {expected : String} :
    found ∈ (literal expected).ways text ↔
      text = expected.toList ++ found.rest ∧ found = ⟨expected.toList, [], found.rest⟩ := by
  rw [ways]
  cases hrest : expected.toList.isPrefixOf? text with
  | none =>
      have hother : text ≠ expected.toList ++ found.rest := by
        intro heq
        rw [List.isPrefixOf?_eq_some_iff_append_eq.2 heq.symm] at hrest
        cases hrest
      simp [hother]
  | some rest =>
      obtain rfl := List.isPrefixOf?_eq_some_iff_append_eq.1 hrest
      simp only [List.mem_singleton, List.append_cancel_left_eq]
      constructor
      · intro h
        simp [h]
      · intro h
        rw [h.2, h.1]

/-- Two patterns in a row take what the first does and then what the second does after it. -/
theorem mem_ways_sequence_iff :
    found ∈ (sequence first second).ways text ↔
      ∃ way ∈ first.ways text, ∃ next ∈ second.ways way.rest, way.followed next = found := by
  simp [ways]

/-- A pattern that may be left out takes what it does or nothing. -/
theorem mem_ways_option_iff :
    found ∈ (option inner).ways text ↔ found ∈ inner.ways text ∨ found = .nothing text := by
  simp [ways]

/-- A group takes what its pattern does and keeps it under its number. -/
theorem mem_ways_group_iff {number : Nat} :
    found ∈ (group number inner).ways text ↔ ∃ way ∈ inner.ways text, way.kept number = found := by
  simp [ways]

/-- The preferred way is one of the ways. -/
theorem mem_ways_of_first (h : first.first? text = some found) : found ∈ first.ways text :=
  List.mem_of_head? h

/-- A literal takes itself where it is. -/
theorem first_literal (expected : String) (rest : List Char) :
    (literal expected).first? (expected.toList ++ rest) = some ⟨expected.toList, [], rest⟩ := by
  have hrest : expected.toList.isPrefixOf? (expected.toList ++ rest) = some rest :=
    List.isPrefixOf?_eq_some_iff_append_eq.2 rfl
  simp only [first?, ways, hrest, List.head?_cons]

/-- A repetition first takes as many characters as it can. -/
theorem first_many (accepts : Char → Bool) (text : List Char) :
    (many accepts).first? text =
      some ⟨text.takeWhile accepts, [], text.dropWhile accepts⟩ := by
  show (runs accepts text).head? = _
  induction text with
  | nil => rfl
  | cons character rest ih =>
      by_cases haccepts : accepts character = true
      · simp [runs, haccepts, ih, Match.followed]
      · simp [runs, haccepts, Match.nothing]

/-- A sequence matches in the first way of its first part after which its second part matches, and
then as the second part does. -/
theorem first_sequence_eq (first second : Pattern) (text : List Char) :
    (sequence first second).first? text =
      (first.ways text).findSome? fun found ↦ (second.first? found.rest).map found.followed := by
  simp only [first?, ways, List.head?_flatMap, List.head?_map]

/-- If the second part matches after the first match of the first, the sequence matches so. -/
theorem first_sequence (hfirst : first.first? text = some found)
    (hsecond : second.first? found.rest = some next) :
    (sequence first second).first? text = some (found.followed next) := by
  obtain ⟨others, hothers⟩ := List.head?_eq_some_iff.1 hfirst
  simp [first_sequence_eq, hothers, hsecond]

/-- A pattern that may be left out takes something rather than nothing. -/
theorem first_option (inner : Pattern) (text : List Char) :
    (option inner).first? text = (inner.first? text <|> some (.nothing text)) := by
  simp [first?, ways, List.head?_append]

/-- A group prefers what its pattern prefers. -/
theorem first_group (number : Nat) (inner : Pattern) (text : List Char) :
    (group number inner).first? text = (inner.first? text).map (.kept number) := by
  simp [first?, ways]

/-- A run of one or more takes as many characters as it can. -/
theorem first_at_least_one (accepts : Char → Bool) (text : List Char) :
    (atLeastOne accepts).first? text =
      if text.takeWhile accepts = [] then none
      else some ⟨text.takeWhile accepts, [], text.dropWhile accepts⟩ := by
  rw [atLeastOne, first_sequence_eq]
  cases text with
  | nil => simp [ways]
  | cons character rest =>
      by_cases haccepts : accepts character = true
      · simp [ways, haccepts, first_many, Match.followed]
      · simp [ways, haccepts]

/-- A repetition takes characters of its class only. -/
theorem of_mem_runs (h : found ∈ runs accepts text) :
    text = found.matched ++ found.rest ∧ ∀ character ∈ found.matched, accepts character = true := by
  induction text generalizing found with
  | nil =>
      rw [runs, List.mem_singleton] at h
      subst h
      exact ⟨rfl, by simp [Match.nothing]⟩
  | cons character rest ih =>
      rw [runs] at h
      split at h
      · rename_i haccepts
        rcases List.mem_append.1 h with h | h
        · obtain ⟨way, hway, rfl⟩ := List.mem_map.1 h
          obtain ⟨hrest, hmatched⟩ := ih hway
          refine ⟨?_, List.forall_mem_cons.2 ⟨haccepts, hmatched⟩⟩
          exact congrArg (character :: ·) hrest
        · rw [List.mem_singleton] at h
          subst h
          exact ⟨rfl, by simp [Match.nothing]⟩
      · rw [List.mem_singleton] at h
        subst h
        exact ⟨rfl, by simp [Match.nothing]⟩

/-- A run of one or more takes characters that are accepted, one at least. -/
theorem of_mem_ways_at_least_one (h : found ∈ (atLeastOne accepts).ways text) :
    text = found.matched ++ found.rest ∧ found.matched ≠ [] ∧
      ∀ character ∈ found.matched, accepts character = true := by
  obtain ⟨start, hstart, way, hway, rfl⟩ := mem_ways_sequence_iff.1 h
  cases text with
  | nil => cases hstart
  | cons character rest =>
      rw [ways] at hstart
      split at hstart
      · rename_i haccepts
        rw [List.mem_singleton] at hstart
        subst hstart
        obtain ⟨hrest, hmatched⟩ := of_mem_runs hway
        refine ⟨?_, by simp [Match.followed], List.forall_mem_cons.2 ⟨haccepts, hmatched⟩⟩
        exact congrArg (character :: ·) hrest
      · cases hstart

end Pattern

end ConfigFill.Text
