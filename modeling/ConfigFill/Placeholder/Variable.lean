import ConfigFill.Environment
import ConfigFill.Trace.Run

/-!
# Variables in parameter paths

A parameter path may name an environment variable as `${NAME}`. Only the leftmost token counts: its
value goes in place of it, and neither the value nor the text after it is looked at again.
-/

namespace ConfigFill

/-- A text split at a variable token. -/
structure VariableSplit where
  before : String
  name : String
  after : String
  deriving DecidableEq, Repr

namespace VariableSplit

/-- The name and the rest of a text that begins with a variable token. A name runs to the first
closing brace and is not empty. -/
def token? : List Char → Option (List Char × List Char)
  | '$' :: '\x7b' :: rest =>
      let name := rest.takeWhile (· ≠ '\x7d')
      match rest.dropWhile (· ≠ '\x7d') with
      | [] => none
      | _ :: after => if name.isEmpty then none else some (name, after)
  | _ => none

/-- What stands before, in and after the leftmost variable token. -/
def leftmost? : List Char → Option (List Char × List Char × List Char)
  | [] => none
  | character :: rest =>
      match token? (character :: rest) with
      | some (name, after) => some ([], name, after)
      | none => (leftmost? rest).map fun parts ↦ (character :: parts.1, parts.2)

/-- The text split at its leftmost variable token. -/
def of? (text : String) : Option VariableSplit :=
  (leftmost? text.toList).map fun parts ↦
    ⟨String.ofList parts.1, String.ofList parts.2.1, String.ofList parts.2.2⟩

end VariableSplit

/-- The path with its leftmost variable token replaced by the variable's value, which must be a
text and not empty. -/
def Environment.expand (environment : Environment) (path : String) : Run String :=
  match VariableSplit.of? path with
  | none => return path
  | some split =>
      match environment.text? split.name with
      | some value =>
          if value.isEmpty then .fail (.of (.variableNotFound split.name))
          else do
            .log (.variableExpanded split.name)
            return split.before ++ value ++ split.after
      | none => .fail (.of (.variableNotFound split.name))

end ConfigFill
