import ConfigFill.Yaml.Token.Property

/-!
# Directives

A directive takes a line of its own before a document. It gives the version of YAML or says what the
handle of a tag stands for.
-/

namespace ConfigFill.Yaml.TokenKind

/-- Read a number of at most nine digits. -/
def readVersionNumber (since : Mark) (cursor : Cursor) : Except Fault (Nat × Cursor) :=
  let digits := cursor.rest.takeWhile Char.isDigit
  if 9 < digits.length then
    .error ((cursor.skip 9).fault .longVersionNumber .versionDirective since)
  else
    match Text.number? 10 digits with
    | some number => .ok (number, cursor.skip digits.length)
    | none => .error (cursor.fault .missingVersionNumber .versionDirective since)

/-- Read the version after the name of its directive. -/
def readVersion (since : Mark) (cursor : Cursor) : Except Fault (TokenKind × Cursor) := do
  let (major, after) ← readVersionNumber since (cursor.skipWhile isBlank)
  if !after.isAt '.' then throw (after.fault .missingVersionDigit .versionDirective since)
  let (minor, after) ← readVersionNumber since (after.skip 1)
  return (.versionDirective major minor, after)

/-- Read a handle and what it stands for after the name of their directive. -/
def readReplacement (since : Mark) (cursor : Cursor) : Except Fault (TokenKind × Cursor) := do
  let (handle, after) ← readHandle true since (cursor.skipWhile isBlank)
  match after.rest with
  | next :: _ =>
      if !isBlank next then throw (after.fault .missingBlank .tagDirective since)
  | [] => throw (after.fault .missingBlank .tagDirective since)
  let (text, after) ← readTagText .directive since [] (after.skipWhile isBlank)
  if endsWord after.rest then return (.tagDirective handle text, after)
  else throw (after.fault .missingBlankOrBreak .tagDirective since)

/-- Read the name of a directive. -/
def readDirectiveName (since : Mark) (cursor : Cursor) : Except Fault (String × Cursor) :=
  let (name, after) := cursor.takeWhile isWordChar
  if name.isEmpty then .error (after.fault .missingDirectiveName .directive since)
  else if endsWord after.rest then .ok (String.ofList name, after)
  else .error (after.fault .badDirectiveName .directive since)

/-- Read a directive to the end of its line. -/
def readDirective (cursor : Cursor) : Except Fault (TokenKind × Cursor) := do
  let since := cursor.mark
  let (name, after) ← readDirectiveName since (cursor.skip 1)
  let (kind, after) ←
    match name with
    | "YAML" => readVersion since after
    | "TAG" => readReplacement since after
    | _ => throw (after.fault .unknownDirective .directive since)
  let after := after.skipComment
  if endsLine after.rest then return (kind, after.skipBreak)
  else throw (after.fault .missingLineEnd .directive since)

end ConfigFill.Yaml.TokenKind
