import ConfigFill.Placeholder.Basic
import ConfigFill.Placeholder.Variable
import ConfigFill.Resolution.Decoding
import ConfigFill.Resolution.Lookup

/-!
# What a placeholder stands for

The value that goes in place of one placeholder: its path is expanded and looked up, and then a
suffix is put after the value or, if there is none, the JSON document in it is read. A suffix wins
over the mark for JSON.
-/

namespace ConfigFill.Placeholder

/-- The value with the suffix after it. Only a text can have one. -/
def appended (path suffix : String) (value : Tree) : Except Failure Tree :=
  match value with
  | .string text => .ok (.string (text ++ suffix))
  | other =>
      .error ((Failure.of (.typeCoercion path "string" other.kind)).advised
        (s!"'{path}' resolved to a {other.kind}; " ++
          "a |suffix can only be appended to a single parameter"))

/-- What the placeholder makes of the value found at its path. -/
def applied (placeholder : Placeholder) (path : String) (value : Tree) : Except Failure Tree :=
  match placeholder.suffix with
  | some suffix => appended path suffix value
  | none => if placeholder.json then Resolution.decoded path value else .ok value

/-- The value that goes in place of the placeholder. A look-up never gives a null, so there is none
to put an empty text for. -/
def replacement (environment : Environment) (store : Store) (placeholder : Placeholder) :
    Run Tree := do
  let path ← environment.expand placeholder.path
  let value ← store.lookup path
  .ofExcept (placeholder.applied path value)

end ConfigFill.Placeholder
