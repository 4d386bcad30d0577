import ConfigFill.Parameter.Assembly

/-!
# Looking up a parameter path

A path is asked for directly. If nothing is there, its parent is asked, and only a parameter named
exactly like the path counts; so a store that lists what lies below a path, but never the path
itself, still gives its value.
-/

namespace ConfigFill.Store

open Parameter

/-- The path to ask when nothing lies at or below this one. -/
def parentOf? (path : String) : Option String :=
  (Path.splitLast? path).map fun split ↦ if split.parent.isEmpty then "/" else split.parent

/-- The value of a path through its parent. -/
def lookupThrough (store : Store) (path parent : String) : Run Tree := do
  .log (.parentProbed path parent)
  let siblings ← store.query parent
  let value ← assemble path siblings true
  if value.isVacant then .fail (.of (.unresolvedPath path)) else return value

/-- The value of a path: the text of a parameter, or the mapping of those below it. -/
def lookup (store : Store) (path : String) : Run Tree := do
  .log (.storeAsked store.name path)
  let found ← store.query path
  if found.isEmpty then
    match parentOf? path with
    | some parent => store.lookupThrough path parent
    | none => .fail (.of (.internal s!"Parameter path has no parent segment: {path}"))
  else do
    .log (.parametersFound found.length path)
    assemble path found false

end ConfigFill.Store
