import ConfigFill.Resolution.Lookup
import Mathlib.Data.List.DropRight

/-!
# Names below a path

What it means for a name to lie within a path, to leave no remainder below it, and for a path to
have a parent, said by cutting texts in two. `is_within_iff` tells the path itself from what is
strictly below it, `remainder_eq_empty_iff` lists the names without a remainder, and
`parent_of_eq_some_iff` and `parent_of_eq_none_iff` say which paths have a parent. Absolute paths
have no empty segment, so that they and the paths above them are as they are written
(`IsAbsolute.cut`).
-/

namespace ConfigFill

namespace Parameter.Path

/-- The name lies strictly below the path: it begins with the path, whose slashes at the end do not
count, and goes on with a slash. -/
def isBelow (name path : String) : Bool :=
  (trimmed path.toList ++ ['/']).isPrefixOf name.toList

/-- A name lies below a path exactly if it goes on after the trimmed path with a slash. -/
theorem is_below_iff {name path : String} :
    isBelow name path = true ↔ ∃ rest, name.toList = trimmed path.toList ++ '/' :: rest := by
  rw [isBelow, List.isPrefixOf_iff_prefix]
  constructor
  · rintro ⟨rest, heq⟩
    exact ⟨rest, by simp [← heq]⟩
  · rintro ⟨rest, heq⟩
    exact ⟨rest, by simp [heq]⟩

/-- Where no prefix can be taken off a text, the text does not begin with it. -/
theorem not_prefix_of_is_prefix_of? {base text : List Char} (h : base.isPrefixOf? text = none) :
    ¬ base <+: text := by
  rintro ⟨rest, heq⟩
  rw [List.isPrefixOf?_eq_some_iff_append_eq.2 heq] at h
  cases h

/-- A name within a path is the path itself or lies strictly below it. -/
theorem is_within_iff {name path : String} :
    isWithin name path = true ↔
      trimmed path.toList ≠ [] ∧ name.toList = trimmed path.toList ∨ isBelow name path = true := by
  rw [is_below_iff]
  unfold isWithin
  generalize trimmed path.toList = base
  cases base with
  | nil => cases name.toList <;> simp
  | cons first base =>
      simp only [ne_eq, reduceCtorEq, not_false_eq_true, true_and]
      split
      · rename_i hrest
        have hname := List.isPrefixOf?_eq_some_iff_append_eq.1 hrest
        simp [← hname]
      · rename_i next rest hrest
        have hname := List.isPrefixOf?_eq_some_iff_append_eq.1 hrest
        simp [← hname]
      · rename_i hrest
        have hprefix := not_prefix_of_is_prefix_of? hrest
        have hself : ¬ name.toList = first :: base := fun heq ↦ hprefix (heq ▸ List.prefix_rfl)
        have hbelow : ¬ ∃ rest, name.toList = first :: base ++ '/' :: rest := fun ⟨_, heq⟩ ↦
          hprefix (heq ▸ List.prefix_append _ _)
        simp only [Bool.false_eq_true, hself, hbelow, or_self]

/-- A path that does not end in a slash is not trimmed. -/
theorem trimmed_eq_self {path : List Char} (h : path.getLast? ≠ some '/') : trimmed path = path := by
  show path.rdropWhile (· = '/') = path
  rw [List.rdropWhile_eq_self_iff]
  intro hne hlast
  rw [List.getLast?_eq_some_getLast hne] at h
  exact h (congrArg some (by simpa using hlast))

/-- The names without a remainder below a path. -/
theorem remainder_eq_empty_iff {name path : String} :
    remainder path name = "" ↔ name = path ∨ name = path ++ "/" ∨ name = "" := by
  have hslash : "/".toList = ['/'] := rfl
  simp only [String.ext_iff, String.toList_append, hslash]
  unfold remainder
  split
  · rename_i rest hrest
    have hname := List.isPrefixOf?_eq_some_iff_append_eq.1 hrest
    simp [← hname]
  · rename_i rest hne hrest
    have hname := List.isPrefixOf?_eq_some_iff_append_eq.1 hrest
    have hrest : rest ≠ ['/'] := fun heq ↦ hne [] heq
    cases rest with
    | nil => simp [← hname]
    | cons next rest => simp [← hname, hrest]
  · rename_i hrest
    have hprefix := not_prefix_of_is_prefix_of? hrest
    have hself : ¬ name.toList = path.toList := fun heq ↦ hprefix (heq ▸ List.prefix_rfl)
    have hbelow : ¬ name.toList = path.toList ++ ['/'] := fun heq ↦
      hprefix (heq ▸ List.prefix_append _ _)
    simp [hself, hbelow]

/-- A text with a slash is cut at its last one. -/
theorem exists_last_cut {text : List Char} (h : '/' ∈ text) :
    ∃ before segment, text = before ++ '/' :: segment ∧ '/' ∉ segment := by
  obtain ⟨segment, before, hreverse, hsegment⟩ :=
    List.eq_append_cons_of_mem (List.mem_reverse.2 h)
  refine ⟨before.reverse, segment.reverse, ?_, by simpa using hsegment⟩
  rw [← List.reverse_reverse text, hreverse]
  simp

end Parameter.Path

namespace Store

open Parameter.Path

/-- A path without a slash has no parent. -/
theorem parent_of_eq_none_of_not_mem {path : String} (h : '/' ∉ path.toList) :
    parentOf? path = none := by
  have hdrop : path.toList.reverse.dropWhile (· ≠ '/') = [] :=
    List.dropWhile_eq_nil_iff.2 (Text.decide_ne_of_not_mem (mt List.mem_reverse.1 h))
  simp only [parentOf?, splitLast?, hdrop, Option.map_none]

/-- The parent of a path is what stands before its last slash, if something stands after it. -/
theorem parent_of_cut {path : String} {before segment : List Char}
    (hpath : path.toList = before ++ '/' :: segment) (hsegment : '/' ∉ segment) :
    parentOf? path =
      if segment = [] then none else some (if before = [] then "/" else String.ofList before) := by
  have hreverse : path.toList.reverse = segment.reverse ++ '/' :: before.reverse := by simp [hpath]
  have hcut := mt List.mem_reverse.1 hsegment
  have htake := Text.take_while_ne_cut hcut before.reverse
  have hdrop := Text.drop_while_ne_cut hcut before.reverse
  simp only [parentOf?, splitLast?, hreverse, htake, hdrop]
  by_cases hempty : segment = []
  · simp [hempty]
  · simp [hempty]

/-- The parent of a path is what stands before its last slash, or the root if nothing does, provided
that something stands after that slash. -/
theorem parent_of_eq_some_iff {path parent : String} :
    parentOf? path = some parent ↔
      ∃ before segment, path.toList = before ++ '/' :: segment ∧ '/' ∉ segment ∧ segment ≠ [] ∧
        parent = if before = [] then "/" else String.ofList before := by
  constructor
  · intro h
    by_cases hslash : '/' ∈ path.toList
    · obtain ⟨before, segment, hpath, hsegment⟩ := exists_last_cut hslash
      rw [parent_of_cut hpath hsegment] at h
      by_cases hempty : segment = []
      · simp [hempty] at h
      · exact ⟨before, segment, hpath, hsegment, hempty, by simpa [hempty, eq_comm] using h⟩
    · simp [parent_of_eq_none_of_not_mem hslash] at h
  · rintro ⟨before, segment, hpath, hsegment, hempty, rfl⟩
    rw [parent_of_cut hpath hsegment, if_neg hempty]

/-- A path has no parent exactly if it has no slash or ends in one. -/
theorem parent_of_eq_none_iff {path : String} :
    parentOf? path = none ↔ '/' ∉ path.toList ∨ path.toList.getLast? = some '/' := by
  by_cases hslash : '/' ∈ path.toList
  · obtain ⟨before, segment, hpath, hsegment⟩ := exists_last_cut hslash
    rw [parent_of_cut hpath hsegment]
    by_cases hempty : segment = []
    · simp [hpath, hempty]
    · have hlast : path.toList.getLast? ≠ some '/' := by
        obtain ⟨last, hlast⟩ := Option.isSome_iff_exists.1 (List.getLast?_isSome.2 hempty)
        have hmem := List.mem_of_getLast? hlast
        simp only [hpath, List.getLast?_append, List.getLast?_cons, hlast]
        rintro heq
        cases heq
        exact hsegment hmem
      simp [hslash, hempty, hlast]
  · simp [parent_of_eq_none_of_not_mem hslash, hslash]

end Store

namespace Parameter.Path

/-- The path begins with a slash, and no segment of what follows it is empty. -/
def IsAbsolute (path : String) : Prop :=
  ∃ rest, path.toList = '/' :: rest ∧ [] ∉ Text.segments '/' rest

/-- Cut at a slash, an absolute path leaves segments that are not empty, and before them another
absolute path or nothing. -/
theorem IsAbsolute.cut {path : String} (h : IsAbsolute path) {before after : List Char}
    (hpath : path.toList = before ++ '/' :: after) :
    [] ∉ Text.segments '/' after ∧ (before = [] ∨ IsAbsolute (String.ofList before)) := by
  obtain ⟨rest, hrest, hsegments⟩ := h
  rw [hrest] at hpath
  cases before with
  | nil =>
      cases hpath
      exact ⟨hsegments, .inl rfl⟩
  | cons first before =>
      rw [List.cons_append, List.cons.injEq] at hpath
      obtain ⟨rfl, rfl⟩ := hpath
      rw [Text.segments_append, List.mem_append, not_or] at hsegments
      exact ⟨hsegments.2, .inr ⟨before, String.toList_ofList, hsegments.1⟩⟩

/-- An absolute path does not end in a slash. -/
theorem IsAbsolute.get_last?_ne {path : String} (h : IsAbsolute path) :
    path.toList.getLast? ≠ some '/' := by
  intro hlast
  obtain ⟨before, hpath⟩ := List.getLast?_eq_some_iff.1 hlast
  exact (h.cut hpath).1 (by simp [Text.segments])

/-- An absolute path is trimmed already. -/
theorem IsAbsolute.trimmed_eq {path : String} (h : IsAbsolute path) :
    trimmed path.toList = path.toList :=
  trimmed_eq_self h.get_last?_ne

/-- An absolute path is not empty. -/
theorem IsAbsolute.ne_empty {path : String} (h : IsAbsolute path) : path ≠ "" := by
  rintro rfl
  obtain ⟨rest, hrest, _⟩ := h
  cases hrest

/-- The root, or an absolute path: what a store may be asked for. -/
def IsRooted (path : String) : Prop :=
  path = "/" ∨ IsAbsolute path

/-- The parent of a rooted path is rooted. -/
theorem IsRooted.parent {path parent : String} (h : IsRooted path)
    (hparent : Store.parentOf? path = some parent) : IsRooted parent := by
  obtain ⟨before, segment, hpath, _, hsegment, rfl⟩ := Store.parent_of_eq_some_iff.1 hparent
  split
  · exact .inl rfl
  · rename_i hbefore
    rcases h with rfl | h
    · cases before with
      | nil => exact absurd rfl hbefore
      | cons first rest =>
          have hnil : [] = rest ++ '/' :: segment := (List.cons.inj hpath).2
          simp at hnil
    · exact .inr ((h.cut hpath).2.resolve_left hbefore)

end Parameter.Path

end ConfigFill
