/-!
# Parameter paths

Parameters are named by absolute paths in one hierarchy. `isWithin` says which names lie at or below
a path, `remainder` what is left of such a name, and `Split` where a path's last segment begins.
-/

namespace ConfigFill.Parameter.Path

/-- The path without the slashes at its end. -/
def trimmed (path : List Char) : List Char :=
  (path.reverse.dropWhile (· = '/')).reverse

/-- The name is the path itself or lies below it. Slashes at the end of the path do not count, and
every absolute name lies below the root. -/
def isWithin (name path : String) : Bool :=
  match trimmed path.toList with
  | [] => name.toList.head? == some '/'
  | base =>
      match base.isPrefixOf? name.toList with
      | some [] => true
      | some (next :: _) => next == '/'
      | none => false

/-- What is left of a name below a path: without the path and one slash after it. A name that does
not begin with the path is left as it is. -/
def remainder (path name : String) : String :=
  match path.toList.isPrefixOf? name.toList with
  | some ('/' :: rest) => String.ofList rest
  | some rest => String.ofList rest
  | none => name

/-- A path cut before its last segment, which keeps its slash. -/
structure Split where
  parent : String
  key : String
  full : String
  deriving DecidableEq, Repr

/-- Cut a path at its last slash. There is no cut without a slash or with nothing after it. -/
def splitLast? (path : String) : Option Split :=
  let reversed := path.toList.reverse
  let segment := reversed.takeWhile (· ≠ '/')
  match reversed.dropWhile (· ≠ '/') with
  | [] => none
  | _ :: parent =>
      if segment.isEmpty then none
      else some ⟨String.ofList parent.reverse, String.ofList ('/' :: segment.reverse), path⟩

end ConfigFill.Parameter.Path
