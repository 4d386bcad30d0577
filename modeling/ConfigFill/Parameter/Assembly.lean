import ConfigFill.Parameter.Path
import ConfigFill.Parameter.Store
import ConfigFill.Text.Segments
import ConfigFill.Tree.Basic

/-!
# From parameters to a tree

The parameters found for a path become one value. A parameter whose name leaves no remainder below
the path is that value itself; every other one is a leaf of a mapping, under the keys that its
remainder gives. `putLeaf?` sets one such leaf, and `assemble` takes the parameters in order.
-/

namespace ConfigFill.Parameter

/-- The keys that lead to the leaf of a remainder: its first slash and every dot separate keys. -/
def leafKeys (remainder : String) : List String :=
  let text := remainder.toList
  let first := text.takeWhile (· ≠ '/')
  let dotted :=
    match text.dropWhile (· ≠ '/') with
    | [] => first
    | _ :: rest => first ++ '.' :: rest
  (Text.segments '.' dotted).map String.ofList

/-- Set a string leaf under keys, with new mappings where keys are missing. There is no result where
something other than a mapping is in the way. -/
def putLeaf? (value : String) : List String → Tree → Option Tree
  | [], _ => none
  | [last], .mapping entries => some (.mapping (Entries.put last (.string value) entries))
  | key :: rest, .mapping entries =>
      let child := (Entries.get? key entries).getD (.mapping [])
      (putLeaf? value rest child).map fun child ↦ .mapping (Entries.put key child entries)
  | _, _ => none

/-- What has been made of some parameters: the value, and the names of those that found no place. -/
structure Assembly where
  tree : Tree
  dropped : List String

namespace Assembly

/-- Nothing yet: an empty mapping. -/
def start : Assembly :=
  ⟨.mapping [], []⟩

/-- Take one more parameter. With `exactOnly`, a parameter below the path is passed over. -/
def add (path : String) (exactOnly : Bool) (assembly : Assembly) (parameter : Parameter) :
    Assembly :=
  let remainder := Path.remainder path parameter.name
  if remainder.isEmpty then { assembly with tree := .string parameter.value }
  else if exactOnly then assembly
  else
    match putLeaf? parameter.value (leafKeys remainder) assembly.tree with
    | some tree => { assembly with tree := tree }
    | none => { assembly with dropped := assembly.dropped ++ [parameter.name] }

/-- What the parameters found for a path amount to. -/
def of (path : String) (parameters : List Parameter) (exactOnly : Bool) : Assembly :=
  parameters.foldl (add path exactOnly) start

end Assembly

/-- The value of a path, given the parameters found for it; those without a place are logged. -/
def assemble (path : String) (parameters : List Parameter) (exactOnly : Bool) : Run Tree := do
  let assembly := Assembly.of path parameters exactOnly
  .logAll (assembly.dropped.map fun name ↦ .parameterDropped name path)
  return assembly.tree

end ConfigFill.Parameter
