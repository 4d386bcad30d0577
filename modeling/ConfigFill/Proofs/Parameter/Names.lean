import ConfigFill.Proofs.Parameter.Leaf

/-!
# What names alone decide

Which parameters find a place in a mapping depends on their names and not on their values. To see
it, values are blanked out: blanking commutes with setting a leaf (`put_leaf_blanked`) and with
taking in one parameter (`Assembly.add_blanked`), so parameters with the same names drop the same
ones (`dropped_eq_of_names`).
-/

namespace ConfigFill

namespace Tree

mutual

/-- The tree with the texts in its mappings blanked out. -/
def blanked : Tree → Tree
  | string _ => string ""
  | mapping entries => mapping (blankedEntries entries)
  | other => other

/-- The entries with the texts in their values blanked out. -/
def blankedEntries : List (String × Tree) → List (String × Tree)
  | [] => []
  | (key, value) :: rest => (key, blanked value) :: blankedEntries rest

end

/-- A blanked mapping has under a key the blanked value that was there. -/
theorem get?_blanked_entries (key : String) (entries : Entries Tree) :
    Entries.get? key (blankedEntries entries) = (Entries.get? key entries).map blanked := by
  induction entries with
  | nil => rfl
  | cons entry rest ih =>
      obtain ⟨name, value⟩ := entry
      by_cases h : name = key <;> simp [blankedEntries, Entries.get?, h, ih]

/-- Setting a value and blanking can be done in either order. -/
theorem blanked_entries_put (key : String) (value : Tree) (entries : Entries Tree) :
    blankedEntries (Entries.put key value entries) =
      Entries.put key value.blanked (blankedEntries entries) := by
  induction entries with
  | nil => rfl
  | cons entry rest ih =>
      obtain ⟨name, old⟩ := entry
      by_cases h : name = key <;> simp [blankedEntries, Entries.put, h, ih]

end Tree

namespace Parameter

open ConfigFill.Tree

/-- Setting a leaf commutes with blanking values out, and so does failing to set it. -/
theorem put_leaf_blanked (value : String) (keys : List String) (tree : Tree) :
    putLeaf? "" keys tree.blanked = (putLeaf? value keys tree).map blanked := by
  induction keys generalizing tree with
  | nil => rfl
  | cons key rest ih =>
      cases tree with
      | mapping entries =>
          by_cases hrest : rest = []
          · subst hrest
            simp [blanked, put_leaf_last, blanked_entries_put]
          · have hchild : (Entries.get? key (blankedEntries entries)).getD (mapping []) =
                ((Entries.get? key entries).getD (mapping [])).blanked := by
              rw [get?_blanked_entries]
              cases Entries.get? key entries <;> rfl
            rw [blanked, put_leaf_cons _ _ hrest, put_leaf_cons _ _ hrest, hchild, ih]
            simp [Function.comp_def, blanked, blanked_entries_put]
      | null | bool _ | int _ | float _ | string _ | sequence _ =>
          rw [put_leaf_eq_none rfl, put_leaf_eq_none rfl]
          rfl

/-- The parameter with its value blanked out. -/
def blanked (parameter : Parameter) : Parameter :=
  ⟨parameter.name, ""⟩

/-- The assembly with the values in its tree blanked out. -/
def Assembly.blanked (assembly : Assembly) : Assembly :=
  ⟨assembly.tree.blanked, assembly.dropped⟩

/-- Taking a parameter and blanking can be done in either order. -/
theorem Assembly.add_blanked (path : String) (exactOnly : Bool) (assembly : Assembly)
    (parameter : Parameter) :
    assembly.blanked.add path exactOnly parameter.blanked =
      (assembly.add path exactOnly parameter).blanked := by
  have hput (keys : List String) := put_leaf_blanked parameter.value keys assembly.tree
  simp only [Assembly.add, Assembly.blanked, Parameter.blanked, hput]
  split
  · rfl
  · split
    · rfl
    · cases putLeaf? parameter.value (leafKeys (Path.remainder path parameter.name)) assembly.tree <;>
        rfl

/-- What blanked parameters make is what the parameters make, blanked. -/
theorem Assembly.of_blanked (path : String) (parameters : List Parameter) (exactOnly : Bool) :
    Assembly.of path (parameters.map Parameter.blanked) exactOnly =
      (Assembly.of path parameters exactOnly).blanked := by
  rw [Assembly.of, List.foldl_map]
  show parameters.foldl (fun assembly parameter ↦ assembly.add path exactOnly parameter.blanked)
    Assembly.start.blanked = _
  exact List.foldl_hom Assembly.blanked (Assembly.add_blanked path exactOnly)

/-- Of parameters with the same names the same ones are dropped. -/
theorem dropped_eq_of_names {parameters others : List Parameter}
    (h : parameters.map (·.name) = others.map (·.name)) (path : String) (exactOnly : Bool) :
    (Assembly.of path parameters exactOnly).dropped = (Assembly.of path others exactOnly).dropped := by
  have hnames : parameters.map Parameter.blanked = others.map Parameter.blanked := by
    have hmap := congrArg (List.map fun name ↦ (⟨name, ""⟩ : Parameter)) h
    rwa [List.map_map, List.map_map] at hmap
  have hof := Assembly.of_blanked path parameters exactOnly
  rw [hnames, Assembly.of_blanked] at hof
  exact (congrArg Assembly.dropped hof).symm

end Parameter

end ConfigFill
