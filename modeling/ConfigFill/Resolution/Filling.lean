import ConfigFill.Resolution.Replacement
import ConfigFill.Tree.Path

/-!
# Filling a tree

Every string leaf that reads as a placeholder is replaced by the value that it stands for; all else
stays, and what was put in is not looked at again. Leaves are taken in document order and the first
failure ends the walk, with the place of its leaf. `Tree.placeholders` lists the same leaves without
asking a store.
-/

namespace ConfigFill.Tree

/-- What goes in place of a string leaf. -/
def fillString (environment : Environment) (store : Store) (path : Path) (text : String) :
    Run Tree :=
  match Placeholder.parse text with
  | some placeholder => do
      .log (.placeholderMet path.shown text)
      (placeholder.replacement environment store).mapFailure (·.located path.shown)
  | none => return .string text

mutual

/-- The node at a path with its placeholders replaced. -/
def fillAt (environment : Environment) (store : Store) (path : Path) : Tree → Run Tree
  | string text => fillString environment store path text
  | sequence items => do
      return sequence (← fillItems environment store path 0 items)
  | mapping entries => do
      return mapping (← fillEntries environment store path entries)
  | leaf => return leaf

/-- Items from a position on, each with its placeholders replaced. -/
def fillItems (environment : Environment) (store : Store) (path : Path) (index : Nat) :
    List Tree → Run (List Tree)
  | [] => return []
  | item :: rest => do
      let filled ← fillAt environment store (path ++ [.position index]) item
      let others ← fillItems environment store path (index + 1) rest
      return filled :: others

/-- Entries in order, each value with its placeholders replaced. -/
def fillEntries (environment : Environment) (store : Store) (path : Path) :
    List (String × Tree) → Run (List (String × Tree))
  | [] => return []
  | (key, value) :: rest => do
      let filled ← fillAt environment store (path ++ [.key key]) value
      let others ← fillEntries environment store path rest
      return (key, filled) :: others

end

/-- The tree with every placeholder replaced. -/
def fill (environment : Environment) (store : Store) (tree : Tree) : Run Tree :=
  fillAt environment store [] tree

mutual

/-- The placeholders at and below the node at a path. -/
def placeholdersAt (path : Path) : Tree → List (Path × Placeholder)
  | string text =>
      match Placeholder.parse text with
      | some placeholder => [(path, placeholder)]
      | none => []
  | sequence items => itemPlaceholders path 0 items
  | mapping entries => entryPlaceholders path entries
  | _ => []

/-- The placeholders in items from a position on. -/
def itemPlaceholders (path : Path) (index : Nat) : List Tree → List (Path × Placeholder)
  | [] => []
  | item :: rest =>
      placeholdersAt (path ++ [.position index]) item ++ itemPlaceholders path (index + 1) rest

/-- The placeholders in the values of entries. -/
def entryPlaceholders (path : Path) : List (String × Tree) → List (Path × Placeholder)
  | [] => []
  | (key, value) :: rest =>
      placeholdersAt (path ++ [.key key]) value ++ entryPlaceholders path rest

end

/-- Every placeholder of the tree with its place, in document order. -/
def placeholders (tree : Tree) : List (Path × Placeholder) :=
  placeholdersAt [] tree

end ConfigFill.Tree
