import ConfigFill.Yaml.Cursor

/-!
# Tokens of YAML

The pieces of a YAML text, blanks and comments left out. Where the text shows the structure of
blocks by indentation only, tokens mark where a block begins and ends. A key carries a mark too,
even though the text shows it only by the colon that follows.
-/

namespace ConfigFill.Yaml

/-- A tag as it is written: the handle, which a directive explains, and the text after it. The text
is kept as bytes because its escapes need not give valid characters. -/
structure WrittenTag where
  handle : List Char
  text : List UInt8
  deriving DecidableEq, Repr

/-- What a token is. -/
inductive TokenKind where
  | streamEnd
  | versionDirective (major minor : Nat)
  | tagDirective (handle : List Char) (replacement : List UInt8)
  | documentStart
  | documentEnd
  | blockSequenceStart
  | blockMappingStart
  | blockEnd
  | flowSequenceStart
  | flowSequenceEnd
  | flowMappingStart
  | flowMappingEnd
  | blockEntry
  | flowEntry
  | key
  | value
  | aliasName (name : List Char)
  | anchor (name : List Char)
  | tag (tag : WrittenTag)
  /-- A scalar; plain if it is written without quotes or a block header. -/
  | scalar (text : List Char) (plain : Bool)
  deriving DecidableEq, Repr

/-- A token and the place where it begins. -/
structure Token where
  kind : TokenKind
  mark : Mark
  deriving DecidableEq, Repr


end ConfigFill.Yaml
