import ConfigFill.Parameter.Table
import ConfigFill.Proofs.Parameter.Path
import ConfigFill.Text.Segments
import Mathlib.Data.List.Induction

/-!
# The hierarchy of names

A name lies within a path if the segments of the path, cut at the slashes after those at its end are
taken off, are the first segments of the name (`is_within_iff_segments`). So lying within is
transitive, and what a table has within a path is found among what it has within any path above it.
The main statement is `within_is_segmentwise`.
-/

namespace ConfigFill.Parameter

namespace Path

/-- The base is the path without the slashes at its end. -/
structure IsBase (base path : List Char) : Prop where
  slashes : ∃ count, path = base ++ List.replicate count '/'
  bare : base.getLast? ≠ some '/'

/-- Trimming two texts in a row goes on into the first if nothing is left of the second. -/
theorem trimmed_append (first second : List Char) :
    trimmed (first ++ second) =
      if trimmed second = [] then trimmed first else first ++ trimmed second := by
  simp only [trimmed, List.reverse_append, List.dropWhile_append, List.isEmpty_iff,
    List.reverse_eq_nil_iff]
  split <;> simp

/-- Slashes at the end of a path are all taken off. -/
theorem trimmed_append_slashes (path : List Char) (count : Nat) :
    trimmed (path ++ List.replicate count '/') = trimmed path := by
  have hslashes : trimmed (List.replicate count '/') = [] := by simp [trimmed]
  rw [trimmed_append, if_pos hslashes]

/-- A trimmed path is the base of the path. -/
theorem is_base_trimmed (path : List Char) : IsBase (trimmed path) path := by
  induction path using List.reverseRecOn with
  | nil => exact ⟨⟨0, rfl⟩, by decide⟩
  | append_singleton path last ih =>
      by_cases hlast : last = '/'
      · subst hlast
        obtain ⟨count, hpath⟩ := ih.slashes
        have htrimmed : trimmed (path ++ ['/']) = trimmed path := trimmed_append_slashes path 1
        rw [htrimmed]
        refine ⟨⟨count + 1, ?_⟩, ih.bare⟩
        rw [List.replicate_succ', ← List.append_assoc, ← hpath]
      · have hbare : (path ++ [last]).getLast? ≠ some '/' := by simpa using hlast
        rw [trimmed_eq_self hbare]
        exact ⟨⟨0, by simp⟩, hbare⟩

/-- The trimmed path is the one base of a path. -/
theorem is_base_iff {base path : List Char} : IsBase base path ↔ base = trimmed path := by
  constructor
  · rintro ⟨⟨count, rfl⟩, hbare⟩
    rw [trimmed_append_slashes, trimmed_eq_self hbare]
  · rintro rfl
    exact is_base_trimmed path

/-- Trimming twice is trimming once. -/
theorem trimmed_trimmed (path : List Char) : trimmed (trimmed path) = trimmed path :=
  trimmed_eq_self (is_base_trimmed path).bare

/-- A name lies within a path if its first segments are those of the path. -/
theorem is_within_iff_segments {name path : String} :
    isWithin name path = true ↔
      name ≠ "" ∧ Text.segments '/' (trimmed path.toList) <+: Text.segments '/' name.toList := by
  rw [is_within_iff, is_below_iff, Text.segments_prefix_iff]
  have hempty : name ≠ "" ↔ name.toList ≠ [] := by simp
  rw [hempty]
  constructor
  · rintro (⟨hbase, hname⟩ | ⟨rest, hname⟩)
    · exact ⟨hname ▸ hbase, .inl hname⟩
    · exact ⟨by simp [hname], .inr ⟨rest, hname⟩⟩
  · rintro ⟨hne, hname | hname⟩
    · exact .inl ⟨hname ▸ hne, hname⟩
    · exact .inr hname

/-- The segments of a trimmed path come first in another path exactly if they do so when it is
trimmed too. -/
theorem segments_trimmed_start {path other : List Char}
    (h : Text.segments '/' (trimmed path) <+: Text.segments '/' other) :
    Text.segments '/' (trimmed path) <+: Text.segments '/' (trimmed other) := by
  rw [Text.segments_prefix_iff] at h ⊢
  obtain rfl | ⟨rest, rfl⟩ := h
  · exact .inl (trimmed_trimmed path)
  · rw [trimmed_append]
    split
    · exact .inl (trimmed_trimmed path)
    · rename_i hrest
      -- Something other than slashes comes after the slash, so that this slash stays.
      obtain ⟨⟨count, heq⟩, _⟩ := is_base_trimmed ('/' :: rest)
      obtain ⟨first, others, htrimmed⟩ := List.exists_cons_of_ne_nil hrest
      rw [htrimmed, List.cons_append] at heq
      rw [htrimmed, ← (List.cons.inj heq).1]
      exact .inr ⟨others, rfl⟩

/-- A name that is not empty lies within itself. -/
theorem is_within_self {name : String} (h : name ≠ "") : isWithin name name = true := by
  obtain ⟨⟨count, hname⟩, _⟩ := is_base_trimmed name.toList
  refine is_within_iff_segments.2 ⟨h, Text.segments_prefix_iff.2 ?_⟩
  cases count with
  | zero => exact .inl (by simpa using hname)
  | succ count => exact .inr ⟨List.replicate count '/', hname⟩

/-- What lies within a path lies within every path that this lies within. -/
theorem is_within_trans {first second third : String} (h : isWithin first second = true)
    (hsecond : isWithin second third = true) : isWithin first third = true := by
  rw [is_within_iff_segments] at h hsecond ⊢
  exact ⟨h.1, (segments_trimmed_start hsecond.2).trans h.2⟩

/-- Slashes at the end of a path do not count. -/
theorem is_within_append_slashes (name path : String) (count : Nat) :
    isWithin name (path ++ String.ofList (List.replicate count '/')) = isWithin name path := by
  rw [Bool.eq_iff_iff, is_within_iff_segments, is_within_iff_segments, String.toList_append,
    String.toList_ofList, trimmed_append_slashes]

end Path

open Parameter.Path (IsBase isWithin)

namespace Table

/-- Within a path there is what is there within any path above it and lies within the path. -/
theorem below_of_is_within (table : Table) {path other : String} (h : isWithin other path = true) :
    table.below other = (table.below path).filter fun parameter ↦ isWithin parameter.name other := by
  rw [below, below, List.filter_filter]
  refine List.filter_congr fun parameter _ ↦ ?_
  cases hother : isWithin parameter.name other with
  | false => rfl
  | true => rw [Path.is_within_trans hother h, Bool.and_self]

/-- A name that is not empty lies within a path exactly if the segments of the path, without the
slashes at its end, are the first segments of the name; the empty name lies nowhere. So every other
name lies within itself, what lies within a path lies within all that the path lies within, and
slashes at the end of a path do not count. The answer of a table to a path is all of its answer to a
path above that lies within the path, in the same order. -/
theorem within_is_segmentwise :
    (∀ path : String, ∃! base, IsBase base path.toList) ∧
      (∀ (name path : String) (base : List Char), name ≠ "" → IsBase base path.toList →
        (isWithin name path = true ↔
          Text.segments '/' base <+: Text.segments '/' name.toList)) ∧
      (∀ path, isWithin "" path = false) ∧
      (∀ name, name ≠ "" → isWithin name name = true) ∧
      (∀ first second third, isWithin first second = true → isWithin second third = true →
        isWithin first third = true) ∧
      (∀ name path count,
        isWithin name (path ++ String.ofList (List.replicate count '/')) = isWithin name path) ∧
      ∀ (table : Table) (path other : String) (earlier : List String),
        isWithin other path = true → ∃ answer,
          table.store.query path earlier = ([.query path], .ok answer) ∧
            table.store.query other earlier = ([.query other],
              .ok (answer.filter fun parameter ↦ isWithin parameter.name other)) := by
  refine ⟨fun path ↦ ?_, fun name path base hname hbase ↦ ?_, fun path ↦ ?_,
    fun _ ↦ Path.is_within_self, fun _ _ _ ↦ Path.is_within_trans, Path.is_within_append_slashes, ?_⟩
  · exact ⟨Path.trimmed path.toList, Path.is_base_trimmed _, fun _ ↦ Path.is_base_iff.1⟩
  · rw [Path.is_base_iff.1 hbase, Path.is_within_iff_segments, and_iff_right hname]
  · rw [Bool.eq_false_iff, ne_eq, Path.is_within_iff_segments]
    exact fun h ↦ h.1 rfl
  · intro table path other earlier h
    refine ⟨table.below path, rfl, ?_⟩
    rw [← table.below_of_is_within h]
    rfl

/-- A longer name that goes on without a slash lies elsewhere. -/
example : isWithin "/application" "/app" = false ∧ isWithin "/app/lication" "/app//" = true := by
  decide

end Table

end ConfigFill.Parameter
