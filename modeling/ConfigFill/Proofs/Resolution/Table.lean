import ConfigFill.Proofs.Parameter.Table
import ConfigFill.Proofs.Resolution.Lookup

/-!
# Looking up paths in a table

What a table makes of a path: the value of the parameters within it, or a failure if there are none
(`lookup_in_table`). Its parent is asked in vain then: a name without a remainder below the path is
empty, which lies within nothing, or it lies within the path itself.
-/

namespace ConfigFill

open Parameter Parameter.Path

namespace Parameter

variable {path : String} {parameters : List Parameter} {parameter : Parameter}

/-- A parameter without a remainder is the value, if none comes after it. -/
theorem Assembly.tree_of_exact (h : (exactOnes path parameters).getLast? = some parameter)
    (exactOnly : Bool) :
    (Assembly.of path parameters exactOnly).tree = .string parameter.value := by
  have hamounts := assembly_amounts path parameters exactOnly
  simpa [Amounts, h] using hamounts

/-- Where only parameters without a remainder count and there is none, nothing is made. -/
theorem Assembly.tree_of_no_exact (h : exactOnes path parameters = []) :
    (Assembly.of path parameters true).tree = .mapping [] := by
  have hamounts := assembly_amounts path parameters true
  simpa [Amounts, h] using hamounts

/-- Without a parameter that leaves no remainder, a mapping is made. -/
theorem Assembly.exists_mapping_of_no_exact (h : exactOnes path parameters = []) :
    ∃ entries, (Assembly.of path parameters false).tree = .mapping entries := by
  have hamounts := assembly_amounts path parameters false
  simp only [Amounts, h, List.getLast?_nil] at hamounts
  exact hamounts.mapping

/-- Every parameter leaves a remainder exactly if none is named as the path, with or without a slash
after it, or has an empty name. -/
theorem exact_ones_eq_nil_iff :
    exactOnes path parameters = [] ↔
      ∀ parameter ∈ parameters, parameter.name ≠ path ∧ parameter.name ≠ path ++ "/" ∧
        parameter.name ≠ "" := by
  simp [exactOnes, remainder_eq_empty_iff]

end Parameter

namespace Parameter.Path

variable {name path : String}

/-- The empty name lies within no path. -/
theorem is_within_empty_name : isWithin "" path ≠ true := by
  rw [ne_eq, is_within_iff, is_below_iff]
  simp

/-- A path that does not end in a slash lies within itself, with a slash after it or not. -/
theorem is_within_of_remainder (hpath : path.toList.getLast? ≠ some '/') (hne : path ≠ "")
    (hname : name = path ∨ name = path ++ "/") : isWithin name path = true := by
  rw [is_within_iff, is_below_iff, trimmed_eq_self hpath]
  rcases hname with rfl | rfl
  · exact .inl ⟨by simpa using hne, rfl⟩
  · exact .inr ⟨[], by simp⟩

end Parameter.Path

namespace Parameter.Table

variable {table : Table} {path : String}

/-- A table lists nothing for a path exactly if no parameter lies within it. -/
theorem below_eq_nil_iff :
    table.below path = [] ↔ ∀ parameter ∈ table.parameters, isWithin parameter.name path ≠ true :=
  List.filter_eq_nil_iff

/-- Where parameters lie within a path, the look-up gives what they make. -/
theorem lookup_within (h : table.below path ≠ []) (earlier : List String) :
    (table.store.lookup path earlier).2 =
      .ok (Assembly.of path (table.below path) false).tree := by
  rw [Store.lookup_found rfl h]

/-- Where none do and the path has a parent, the path is unresolved. -/
theorem lookup_absent (h : table.below path = []) (hslash : '/' ∈ path.toList)
    (hlast : path.toList.getLast? ≠ some '/') (earlier : List String) :
    (table.store.lookup path earlier).2 = .error (.of (.unresolvedPath path)) := by
  have hanswer : (table.store.answer earlier path).result = .ok [] := congrArg Except.ok h
  cases hparent : Store.parentOf? path with
  | none =>
      rcases Store.parent_of_eq_none_iff.1 hparent with hnone | heq
      · exact absurd hslash hnone
      · exact absurd heq hlast
  | some parent =>
      have hne : path ≠ "" := by
        rintro rfl
        cases hslash
      -- What the parent has that leaves no remainder would lie within the path itself.
      have hexact : exactOnes path (table.below parent) = [] := by
        rw [exact_ones_eq_nil_iff]
        intro parameter hmem
        obtain ⟨hmem, hwithin⟩ := List.mem_filter.1 hmem
        have hout := below_eq_nil_iff.1 h parameter hmem
        refine ⟨fun heq ↦ ?_, fun heq ↦ ?_, fun heq ↦ ?_⟩
        · exact hout (is_within_of_remainder hlast hne (.inl heq))
        · exact hout (is_within_of_remainder hlast hne (.inr heq))
        · exact is_within_empty_name (heq ▸ hwithin)
      rw [Store.lookup_probed hanswer hparent, Store.lookup_through_found rfl]
      simp only
      rw [Assembly.tree_of_no_exact hexact]
      rfl

/-- Where none do and the path has no parent, there is nothing else to ask. -/
theorem lookup_without_parent (h : table.below path = [])
    (hparent : '/' ∉ path.toList ∨ path.toList.getLast? = some '/') (earlier : List String) :
    (table.store.lookup path earlier).2 =
      .error (.of (.internal s!"Parameter path has no parent segment: {path}")) := by
  have hanswer : (table.store.answer earlier path).result = .ok [] := congrArg Except.ok h
  rw [Store.lookup_orphan hanswer (Store.parent_of_eq_none_iff.2 hparent)]

/-- A path has a value in a table exactly if a parameter lies within it, and the value is what all
those within it amount to, in ascending order. Otherwise a path that can have a parent has no value,
and any other path should not have been looked up. -/
theorem lookup_in_table (table : Table) (path : String) :
    (table.store.lookup path).start.2 =
      if ∃ parameter ∈ table.parameters, isWithin parameter.name path = true then
        .ok (Assembly.of path
          (table.parameters.filter fun parameter ↦ isWithin parameter.name path) false).tree
      else if '/' ∈ path.toList ∧ path.toList.getLast? ≠ some '/' then
        .error (.of (.unresolvedPath path))
      else .error (.of (.internal s!"Parameter path has no parent segment: {path}")) := by
  by_cases hwithin : ∃ parameter ∈ table.parameters, isWithin parameter.name path = true
  · rw [if_pos hwithin]
    refine lookup_within (fun hnil ↦ ?_) []
    obtain ⟨parameter, hmem, hparameter⟩ := hwithin
    exact below_eq_nil_iff.1 hnil parameter hmem hparameter
  · rw [if_neg hwithin]
    have hnil : table.below path = [] :=
      below_eq_nil_iff.2 fun parameter hmem hparameter ↦ hwithin ⟨parameter, hmem, hparameter⟩
    split
    · rename_i hpath
      exact lookup_absent hnil hpath.1 hpath.2 []
    · rename_i hpath
      refine lookup_without_parent hnil ?_ []
      by_cases hslash : '/' ∈ path.toList
      · exact .inr (by simpa [hslash] using hpath)
      · exact .inl hslash

end Parameter.Table

end ConfigFill
