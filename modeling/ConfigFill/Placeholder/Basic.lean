/-!
# Placeholders

A string leaf can stand for a parameter: `aws-ssm://app/db/host` for its value,
`aws-ssm-json://app/flags` for the JSON document that it holds, and `aws-ssm://app/domain|/api` for
its value with `/api` after it. `Placeholder.parse` reads the parts of such a text and
`Placeholder.text` writes them.
-/

namespace ConfigFill

/-- The parts of a placeholder. -/
structure Placeholder where
  /-- The text that was read as a placeholder. -/
  matched : String
  /-- The parameter holds a JSON document. -/
  json : Bool
  /-- The absolute path of the parameter. -/
  path : String
  /-- What to put after the value. -/
  suffix : Option String
  deriving DecidableEq, Repr, Inhabited

namespace Placeholder

/-- The text before the path. -/
def scheme (json : Bool) : String :=
  if json then "aws-ssm-json:/" else "aws-ssm:/"

/-- The text of a placeholder with these parts. -/
def text (json : Bool) (path : String) (suffix : Option String) : String :=
  scheme json ++ path ++
    match suffix with
    | some suffix => "|" ++ suffix
    | none => ""

/-- The character may begin the first segment of a path: an ASCII letter, a digit, a dash or an
underscore. -/
def isSegmentStart (character : Char) : Bool :=
  character.isAlphanum || character == '_' || character == '-'

/-- The text begins an absolute path whose first segment is not empty. -/
def startsPath : List Char → Bool
  | '/' :: first :: _ => isSegmentStart first
  | _ => false

/-- The parts of what follows the scheme. The path runs to the first bar, and the suffix from there
to the next; an empty suffix is none, but its bar belongs to the placeholder. -/
def parseAfter (json : Bool) (body : List Char) : Option Placeholder :=
  if startsPath body then
    let path := body.takeWhile (· ≠ '|')
    let head := scheme json ++ String.ofList path
    match body.dropWhile (· ≠ '|') with
    | [] => some ⟨head, json, String.ofList path, none⟩
    | _ :: rest =>
        let suffix := String.ofList (rest.takeWhile (· ≠ '|'))
        some ⟨head ++ "|" ++ suffix, json, String.ofList path,
          if suffix.isEmpty then none else some suffix⟩
  else none

/-- Read a text as a placeholder. What follows a second bar is no part of it. -/
def parse (text : String) : Option Placeholder :=
  let after (json : Bool) : Option Placeholder :=
    ((scheme json).toList.isPrefixOf? text.toList).bind (parseAfter json)
  after false <|> after true

end Placeholder

end ConfigFill
