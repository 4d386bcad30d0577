/-!
# Failures

Why an operation failed, as data. A failure has a cause; the place in the configuration tree where
it was met, if it was met in one; and advice for the reader. `Failure.message` is the one place
where the wording of a report is put together.
-/

namespace ConfigFill

/-- What went wrong. -/
inductive Cause where
  /-- A document, a path into a tree or a parameters file cannot be read. -/
  | parse (reason : String)
  /-- Neither a parameter path nor its parent led to a value. -/
  | unresolvedPath (path : String)
  /-- A variable named in a parameter path is unset, empty or not text. -/
  | variableNotFound (name : String)
  /-- A parameter that is to hold a JSON document does not. -/
  | malformedJson (path raw reason : String)
  /-- The parameter store itself failed. -/
  | store (name reason : String)
  /-- A value of one kind was found where another is needed. -/
  | typeCoercion (path expected found : String)
  /-- A file cannot be read. -/
  | io (reason : String)
  /-- A request that no caller should make. -/
  | internal (reason : String)
  deriving DecidableEq, Repr, Inhabited

namespace Cause

/-- The first line of a report. -/
def headline : Cause → String
  | parse _ => "Parse error"
  | unresolvedPath path => s!"Path {path} not found in parameter store"
  | variableNotFound name => s!"Environment variable not found: {name}"
  | malformedJson path raw _ => s!"Could not JSON parse {path} => {raw}"
  | store name reason => s!"Parameter store '{name}' error: {reason}"
  | typeCoercion _ _ _ => "Type coercion failed"
  | io _ => "I/O error"
  | internal _ => "Internal error"

/-- The line under the headline that says more, where there is more to say. -/
def detail : Cause → Option String
  | parse reason => some reason
  | malformedJson _ _ reason => some reason
  | typeCoercion _ _ found => some s!"Got: {found}"
  | io reason => some reason
  | internal reason => some reason
  | _ => none

/-- What to do about it, unless a failure carries better advice. -/
def advice : Cause → Option String
  | parse _ => none
  | unresolvedPath path => some
      s!"Check that '{path}' exists in the parameter store and that the credentials can read it"
  | variableNotFound name => some s!"Set the {name} environment variable to a non-empty value"
  | malformedJson _ _ _ => some "Store valid JSON in the parameter or use aws-ssm:// instead"
  | store name _ => some s!"Check connectivity and permissions for the '{name}' parameter store"
  | typeCoercion path expected _ => some s!"Parameter '{path}' must resolve to a {expected}"
  | io _ => none
  | internal _ => some "This is likely a bug in ssm-inject. Please report it."

end Cause

/-- A cause, where in the configuration it was met, and what to do about it. -/
structure Failure where
  cause : Cause
  location : Option String
  advice : Option String
  deriving DecidableEq, Repr, Inhabited

namespace Failure

/-- The failure of a cause met nowhere in particular, with the usual advice. -/
def of (cause : Cause) : Failure :=
  ⟨cause, none, cause.advice⟩

/-- The same failure met at this place in the configuration. -/
def located (failure : Failure) (location : String) : Failure :=
  { failure with location := some location }

/-- The same failure with this advice. -/
def advised (failure : Failure) (advice : String) : Failure :=
  { failure with advice := some advice }

/-- The store had nothing at the path asked for. -/
def isUnresolved (failure : Failure) : Bool :=
  match failure.cause with
  | .unresolvedPath _ => true
  | _ => false

/-- The report: the headline, then a line each for the place, the detail and the advice. -/
def message (failure : Failure) : String :=
  let line (label : String) (text : Option String) : String :=
    match text with
    | some text => "\n  " ++ label ++ text
    | none => ""
  failure.cause.headline ++ line "Path: " failure.location ++ line "" failure.cause.detail ++
    line "Help: " failure.advice

end Failure

end ConfigFill
