import ConfigFill.Parameter.Path
import ConfigFill.Parameter.Store
import ConfigFill.Tree.Text

/-!
# Parameter tables

A store kept in memory: parameters in ascending order of their names, no name twice. Asked for a
path, it answers with the parameters at or below it in that order. A table can be read from a
mapping of absolute names to scalars.
-/

namespace ConfigFill.Parameter

/-- Put a parameter among others in ascending order of names, in place of the one of its name. -/
def place (name value : String) : List Parameter → List Parameter
  | [] => [⟨name, value⟩]
  | first :: rest =>
      if name < first.name then ⟨name, value⟩ :: first :: rest
      else if name = first.name then ⟨name, value⟩ :: rest
      else first :: place name value rest

/-- The parameters after placing one are those there before, or the one placed. -/
theorem mem_place {name value : String} {parameter : Parameter} {parameters : List Parameter}
    (h : parameter ∈ place name value parameters) :
    parameter = ⟨name, value⟩ ∨ parameter ∈ parameters := by
  induction parameters with
  | nil => simpa [place] using h
  | cons first rest ih =>
      simp only [place] at h
      split at h
      · simpa using h
      · split at h
        · rcases List.mem_cons.1 h with h | h
          · exact .inl h
          · exact .inr (List.mem_cons_of_mem first h)
        · rcases List.mem_cons.1 h with h | h
          · exact .inr (h ▸ List.mem_cons_self)
          · exact (ih h).imp id (List.mem_cons_of_mem first)

/-- Placing a parameter keeps the order. -/
theorem pairwise_place {parameters : List Parameter} (name value : String)
    (h : parameters.Pairwise (·.name < ·.name)) :
    (place name value parameters).Pairwise (·.name < ·.name) := by
  induction parameters with
  | nil => simp [place]
  | cons first rest ih =>
      have hrest := List.pairwise_cons.1 h
      simp only [place]
      split
      · rename_i hlt
        refine List.pairwise_cons.2 ⟨fun other hother ↦ ?_, h⟩
        rcases List.mem_cons.1 hother with rfl | hmem
        · exact hlt
        · exact String.lt_trans hlt (hrest.1 other hmem)
      · rename_i hge
        split
        · rename_i heq
          exact List.pairwise_cons.2 ⟨fun other hother ↦ heq ▸ hrest.1 other hother, hrest.2⟩
        · rename_i hne
          refine List.pairwise_cons.2 ⟨fun other hother ↦ ?_, ih hrest.2⟩
          rcases mem_place hother with rfl | hmem
          · exact Std.lt_of_le_of_ne (String.not_lt.1 hge) (Ne.symm hne)
          · exact hrest.1 other hmem

/-- Parameters in ascending order of their names. -/
structure Table where
  parameters : List Parameter
  ascending : parameters.Pairwise (·.name < ·.name)

namespace Table

/-- The table without parameters. -/
def empty : Table :=
  ⟨[], .nil⟩

instance : Inhabited Table :=
  ⟨empty⟩

/-- Set the value of a name. -/
def insert (table : Table) (name value : String) : Table :=
  ⟨place name value table.parameters, pairwise_place name value table.ascending⟩

/-- Set the values of names in order. -/
def insertAll (table : Table) (pairs : List (String × String)) : Table :=
  pairs.foldl (fun table pair ↦ table.insert pair.1 pair.2) table

/-- The number of parameters. -/
def size (table : Table) : Nat :=
  table.parameters.length

/-- There are no parameters. -/
def isEmpty (table : Table) : Bool :=
  table.parameters.isEmpty

/-- The parameters at or below a path. -/
def below (table : Table) (path : String) : List Parameter :=
  table.parameters.filter fun parameter ↦ Path.isWithin parameter.name path

/-- The table as a store. -/
def store (table : Table) : Store :=
  .ofFunction "memory" fun path ↦ .ok (table.below path)

/-- The text under which an entry of a parameters file is kept, or why it cannot be kept. -/
def valueOf (name : String) (value : Tree) : Except Failure String :=
  if name.toList.head? ≠ some '/' then
    .error (.of (.parse s!"Parameter name must start with /: {name}"))
  else
    match value with
    | .string text => .ok text
    | .int _ | .float _ | .bool _ => .ok value.text
    | other => .error (.of (.parse s!"Parameter '{name}' must be a scalar, got {other.kind}"))

/-- Set the values of a mapping's entries in order, up to the first that cannot be kept. -/
def insertEntries (table : Table) : List (String × Tree) → Except Failure Table
  | [] => .ok table
  | (name, value) :: rest => do
      let text ← valueOf name value
      insertEntries (table.insert name text) rest

/-- The table of a mapping of absolute names to scalars. -/
def ofTree : Tree → Except Failure Table
  | .mapping entries => insertEntries empty entries
  | other =>
      .error (.of
        (.parse s!"Parameters file must be a mapping of names to values, got {other.kind}"))

end Table

end ConfigFill.Parameter
