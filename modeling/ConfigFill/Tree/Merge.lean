import ConfigFill.Tree.Basic

/-!
# Merging documents

A later document is laid over an earlier one. Two mappings merge key by key, and a null in the
overlay takes its key out; in every other case the overlay stands in place of the base. Keys of the
base keep their places and new keys follow in the order of the overlay.
-/

namespace ConfigFill.Tree

mutual

/-- The base with the overlay laid over it. -/
def merge (base : Tree) : Tree → Tree
  | mapping overlay =>
      match base with
      | mapping entries => mapping (mergeEntries entries overlay)
      | _ => mapping overlay
  | overlay => overlay

/-- The entries with those of an overlay laid over them, one after the other. A value without a
counterpart is taken as it is, nulls inside it included. -/
def mergeEntries (base : Entries Tree) : List (String × Tree) → Entries Tree
  | [] => base
  | (key, value) :: rest =>
      match value with
      | null => mergeEntries (Entries.erase key base) rest
      | value =>
          match Entries.get? key base with
          | some old => mergeEntries (Entries.put key (merge old value) base) rest
          | none => mergeEntries (Entries.put key value base) rest

end

/-- Documents laid over each other in order; no document at all is the empty mapping. -/
def mergeAll : List Tree → Tree
  | [] => mapping []
  | first :: rest => rest.foldl merge first

end ConfigFill.Tree
