import ConfigFill.Parameter.Table
import ConfigFill.Proofs.Parameter.Path

/-!
# What a table holds

The answer of a table to a path, taken apart: the parameter of that name, if there is one, and then
those strictly below the path, in ascending order. The main statement is `below_eq`.
-/

namespace ConfigFill.Parameter

open Parameter.Path

/-- What lies strictly below an absolute path comes after it. -/
theorem Path.lt_of_is_below {name path : String} (hpath : IsAbsolute path)
    (h : isBelow name path = true) : path < name := by
  obtain ⟨rest, hname⟩ := is_below_iff.1 h
  rw [hpath.trimmed_eq] at hname
  have hprefix : path.toList <+: name.toList := hname ▸ List.prefix_append _ _
  have hle : path ≤ name := String.not_lt.1 fun hlt ↦
    List.not_lt.2 hprefix.le (String.lt_iff.1 hlt)
  refine Std.lt_of_le_of_ne hle ?_
  rintro rfl
  simp at hname

namespace Table

/-- The parameter of a name. -/
def find? (table : Table) (name : String) : Option Parameter :=
  table.parameters.find? (·.name = name)

/-- The parameters strictly below a path. -/
def children (table : Table) (path : String) : List Parameter :=
  table.parameters.filter fun parameter ↦ isBelow parameter.name path

variable {table : Table} {path : String} {parameter : Parameter}

/-- The children of a path are the parameters below it. -/
theorem mem_children : parameter ∈ table.children path ↔
    parameter ∈ table.parameters ∧ isBelow parameter.name path = true :=
  List.mem_filter

/-- In ascending order, a parameter is the first of its name. -/
theorem find?_of_mem {parameters : List Parameter} (h : parameters.Pairwise (·.name < ·.name))
    (hmem : parameter ∈ parameters) :
    parameters.find? (·.name = parameter.name) = some parameter := by
  induction parameters with
  | nil => cases hmem
  | cons first rest ih =>
      obtain ⟨hfirst, hrest⟩ := List.pairwise_cons.1 h
      rcases List.mem_cons.1 hmem with rfl | hmem
      · simp
      · have hne : ¬ first.name = parameter.name := Std.ne_of_lt (hfirst parameter hmem)
        simpa [hne] using ih hrest hmem

/-- The parameter of a name is the only one of the table that has the name. -/
theorem find?_eq_some_iff :
    table.find? path = some parameter ↔ parameter ∈ table.parameters ∧ parameter.name = path := by
  constructor
  · intro h
    exact ⟨List.mem_of_find?_eq_some h, by simpa using List.find?_some h⟩
  · rintro ⟨hmem, rfl⟩
    exact find?_of_mem table.ascending hmem

/-- A table answers an absolute path with the parameter of that name and then those below it. -/
theorem below_eq (table : Table) (hpath : IsAbsolute path) :
    table.below path = (table.find? path).toList ++ table.children path := by
  have hwithin (name : String) :
      isWithin name path = true ↔ name = path ∨ isBelow name path = true := by
    rw [is_within_iff, hpath.trimmed_eq]
    simp [hpath.ne_empty, String.toList_inj]
  obtain ⟨parameters, ascending⟩ := table
  simp only [below, find?, children]
  induction parameters with
  | nil => rfl
  | cons first rest ih =>
      obtain ⟨hfirst, hrest⟩ := List.pairwise_cons.1 ascending
      have ih := ih hrest
      -- Where the path comes no later than the first parameter, no later one has that name.
      have hnone (hle : path ≤ first.name) : rest.find? (·.name = path) = none := by
        simp only [List.find?_eq_none, decide_eq_true_eq]
        rintro other hother rfl
        exact Std.not_lt_of_ge hle (hfirst other hother)
      by_cases hname : first.name = path
      · have hself : isBelow first.name path ≠ true := fun hbelow ↦
          Std.ne_of_lt (lt_of_is_below hpath hbelow) hname.symm
        rw [hnone (hname ▸ Std.le_refl _)] at ih
        simpa [hname, (hwithin path).2 (.inl rfl), hname ▸ hself] using ih
      · by_cases hbelow : isBelow first.name path = true
        · have hle := Std.le_of_lt (lt_of_is_below hpath hbelow)
          rw [hnone hle] at ih
          simp [hname, (hwithin _).2 (.inr hbelow), hbelow, hnone hle, ih]
        · have hout : ¬ isWithin first.name path = true := by
            rw [hwithin]
            exact fun h ↦ h.elim hname hbelow
          simpa [hname, hbelow, hout] using ih

/-- A parameter with another below it, whose value is empty, and one beside them. -/
def sample : Table where
  parameters := [⟨"/app", "a"⟩, ⟨"/app/name", ""⟩, ⟨"/stage", "s"⟩]
  ascending := by decide

end Table

end ConfigFill.Parameter
