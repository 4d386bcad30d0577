/-!
# Places and faults in YAML texts

A mark is a place in a text. A fault says what was found wrong at one mark and, where it helps, what
was being read and where that began. Its message gives lines and columns from 1, and leaves out a
place at the very start of the text and one that was given already.
-/

namespace ConfigFill.Yaml

/-- A place in a text: the bytes before it, the lines before it and the characters of its line
before it. -/
structure Mark where
  index : Nat
  line : Nat
  column : Nat
  deriving DecidableEq, Repr, Inhabited

namespace Mark

/-- The start of a text. -/
def start : Mark :=
  ⟨0, 0, 0⟩

/-- The place after some characters of the same line. -/
def advance (mark : Mark) (passed : List Char) : Mark :=
  ⟨mark.index + passed.foldr (·.utf8Size + ·) 0, mark.line, mark.column + passed.length⟩

/-- Characters of one line passed one part after the other are passed at once. -/
theorem advance_append (mark : Mark) (first second : List Char) :
    mark.advance (first ++ second) = (mark.advance first).advance second := by
  have hbytes : ∀ start, first.foldr (·.utf8Size + ·) start =
      first.foldr (·.utf8Size + ·) 0 + start := by
    intro start
    induction first with
    | nil => simp
    | cons next rest ih => simp only [List.foldr_cons, ih, Nat.add_assoc]
  simp [advance, List.foldr_append, hbytes (second.foldr _ _), Nat.add_assoc]

/-- The start of the next line, after the characters of a line break. -/
def nextLine (mark : Mark) (lineBreak : List Char) : Mark :=
  ⟨mark.index + lineBreak.foldr (·.utf8Size + ·) 0, mark.line + 1, 0⟩

/-- The place is on the first line before any character. -/
def isOrigin (mark : Mark) : Bool :=
  mark.line == 0 && mark.column == 0

/-- Both places have the same line and column. -/
def sameSpot (first second : Mark) : Bool :=
  first.line == second.line && first.column == second.column

/-- The place after a message, which is left out at the origin. -/
def suffix (mark : Mark) : String :=
  if mark.isOrigin then "" else s!" at line {mark.line + 1} column {mark.column + 1}"

end Mark

/-- What was being read when a fault was found. -/
inductive Context where
  | simpleKey
  | nextToken
  | directive
  | versionDirective
  | tagDirective
  | tagDirectiveHandle
  | tagDirectiveHandleEnd
  | tagDirectiveText
  | anchor
  | aliasName
  | tag
  | tagText
  | blockScalar
  | quotedScalar
  | quotedEscape
  | plainScalar
  | node
  | blockNode
  | flowNode
  | blockCollection
  | blockMapping
  | flowSequence
  | flowMapping
  deriving DecidableEq, Repr

/-- The wording of a context. -/
def Context.text : Context → String
  | simpleKey => "while scanning a simple key"
  | nextToken => "while scanning for the next token"
  | directive => "while scanning a directive"
  | versionDirective => "while scanning a %YAML directive"
  | tagDirective => "while scanning a %TAG directive"
  | tagDirectiveHandle => "while scanning a tag directive"
  | tagDirectiveHandleEnd => "while parsing a tag directive"
  | tagDirectiveText => "while parsing a %TAG directive"
  | anchor => "while scanning an anchor"
  | aliasName => "while scanning an alias"
  | tag => "while scanning a tag"
  | tagText => "while parsing a tag"
  | blockScalar => "while scanning a block scalar"
  | quotedScalar => "while scanning a quoted scalar"
  | quotedEscape => "while parsing a quoted scalar"
  | plainScalar => "while scanning a plain scalar"
  | node => "while parsing a node"
  | blockNode => "while parsing a block node"
  | flowNode => "while parsing a flow node"
  | blockCollection => "while parsing a block collection"
  | blockMapping => "while parsing a block mapping"
  | flowSequence => "while parsing a flow sequence"
  | flowMapping => "while parsing a flow mapping"

/-- What was found wrong. -/
inductive Problem where
  | missingColon
  | strayCharacter
  | entryNotAllowed
  | keyNotAllowed
  | valueNotAllowed
  | missingDirectiveName
  | badDirectiveName
  | unknownDirective
  | missingLineEnd
  | missingVersionDigit
  | missingVersionNumber
  | longVersionNumber
  | missingBlank
  | missingBlankOrBreak
  | badAnchor
  | missingExclamation
  | missingTagText
  | missingAngle
  | badOctet
  | badLeadingOctet
  | badTrailingOctet
  | zeroIndentation
  | tabInIndentation
  | tabBeforeText
  | documentMarkInScalar
  | endInScalar
  | unknownEscape
  | badHexDigit
  | badCodePoint
  | strayColon
  | missingDocumentStart
  | repeatedVersion
  | wrongVersion
  | repeatedTagDirective
  | unknownTagHandle
  | missingContent
  | missingDash
  | missingKey
  | missingCommaOrBracket
  | missingCommaOrBrace
  deriving DecidableEq, Repr

/-- The wording of a problem. -/
def Problem.text : Problem → String
  | missingColon => "could not find expected ':'"
  | strayCharacter => "found character that cannot start any token"
  | entryNotAllowed => "block sequence entries are not allowed in this context"
  | keyNotAllowed => "mapping keys are not allowed in this context"
  | valueNotAllowed => "mapping values are not allowed in this context"
  | missingDirectiveName => "could not find expected directive name"
  | badDirectiveName => "found unexpected non-alphabetical character"
  | unknownDirective => "found unknown directive name"
  | missingLineEnd => "did not find expected comment or line break"
  | missingVersionDigit => "did not find expected digit or '.' character"
  | missingVersionNumber => "did not find expected version number"
  | longVersionNumber => "found extremely long version number"
  | missingBlank => "did not find expected whitespace"
  | missingBlankOrBreak => "did not find expected whitespace or line break"
  | badAnchor => "did not find expected alphabetic or numeric character"
  | missingExclamation => "did not find expected '!'"
  | missingTagText => "did not find expected tag URI"
  | missingAngle => "did not find the expected '>'"
  | badOctet => "did not find URI escaped octet"
  | badLeadingOctet => "found an incorrect leading UTF-8 octet"
  | badTrailingOctet => "found an incorrect trailing UTF-8 octet"
  | zeroIndentation => "found an indentation indicator equal to 0"
  | tabInIndentation => "found a tab character where an indentation space is expected"
  | tabBeforeText => "found a tab character that violates indentation"
  | documentMarkInScalar => "found unexpected document indicator"
  | endInScalar => "found unexpected end of stream"
  | unknownEscape => "found unknown escape character"
  | badHexDigit => "did not find expected hexadecimal number"
  | badCodePoint => "found invalid Unicode character escape code"
  | strayColon => "found unexpected ':'"
  | missingDocumentStart => "did not find expected <document start>"
  | repeatedVersion => "found duplicate %YAML directive"
  | wrongVersion => "found incompatible YAML document"
  | repeatedTagDirective => "found duplicate %TAG directive"
  | unknownTagHandle => "found undefined tag handle"
  | missingContent => "did not find expected node content"
  | missingDash => "did not find expected '-' indicator"
  | missingKey => "did not find expected key"
  | missingCommaOrBracket => "did not find expected ',' or ']'"
  | missingCommaOrBrace => "did not find expected ',' or '\x7d'"

/-- Why a text is not YAML. -/
inductive Fault where
  /-- A problem at a place, and what was being read from where. -/
  | malformed (problem : Problem) (mark : Mark) (context : Option (Context × Mark))
  /-- A character that no text may hold, after this many bytes. -/
  | controlCharacter (offset : Nat)
  deriving DecidableEq, Repr

namespace Fault

/-- The fault was found at this many bytes from the start of the text or further on. -/
def isFrom (index : Nat) : Fault → Bool
  | controlCharacter offset => index ≤ offset
  | malformed _ mark _ => index ≤ mark.index

/-- The report of a fault. -/
def message : Fault → String
  | controlCharacter offset =>
      "control characters are not allowed" ++
        if offset = 0 then "" else s!" at position {offset}"
  | malformed problem mark none => problem.text ++ mark.suffix
  | malformed problem mark (some (context, since)) =>
      problem.text ++ mark.suffix ++ ", " ++ context.text ++
        if since.sameSpot mark then "" else since.suffix

end Fault

end ConfigFill.Yaml
