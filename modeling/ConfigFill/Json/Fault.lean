/-!
# Why a text is not JSON

A fault names what is wrong and where: by the number of bytes of the text that were still unread.
Its message turns that number into a line and a column. Columns count the bytes of a line up to the
fault, so that the first byte of a line is column 1 once it is read and column 0 before.
-/

namespace ConfigFill.Json

/-- What is wrong with a text. -/
inductive Reason where
  | endInList
  | endInObject
  | endInString
  | endInValue
  | expectedColon
  | expectedListEnd
  | expectedObjectEnd
  | expectedWord
  | expectedValue
  | invalidEscape
  | invalidNumber
  | numberOutOfRange
  | controlInString
  | keyNotString
  | loneSurrogate
  | endInEscape
  | trailingComma
  | trailingText
  | tooDeep
  deriving DecidableEq, Repr

/-- The wording of a reason. -/
def Reason.text : Reason → String
  | endInList => "EOF while parsing a list"
  | endInObject => "EOF while parsing an object"
  | endInString => "EOF while parsing a string"
  | endInValue => "EOF while parsing a value"
  | expectedColon => "expected `:`"
  | expectedListEnd => "expected `,` or `]`"
  | expectedObjectEnd => "expected `,` or `\x7d`"
  | expectedWord => "expected ident"
  | expectedValue => "expected value"
  | invalidEscape => "invalid escape"
  | invalidNumber => "invalid number"
  | numberOutOfRange => "number out of range"
  | controlInString => "control character (\\u0000-\\u001F) found while parsing a string"
  | keyNotString => "key must be a string"
  | loneSurrogate => "lone leading surrogate in hex escape"
  | endInEscape => "unexpected end of hex escape"
  | trailingComma => "trailing comma"
  | trailingText => "trailing characters"
  | tooDeep => "recursion limit exceeded"

/-- The number of bytes of a text. -/
def byteCount (text : List Char) : Nat :=
  text.foldr (·.utf8Size + ·) 0

/-- A reason, and the number of bytes of the text after the point where it shows. -/
structure Fault where
  reason : Reason
  unread : Nat
  deriving DecidableEq, Repr

namespace Fault

/-- A fault that shows before the rest of the text. -/
def before (reason : Reason) (rest : List Char) : Fault :=
  ⟨reason, byteCount rest⟩

/-- A fault that shows once this many more bytes of the rest are read. -/
def within (reason : Reason) (rest : List Char) (bytes : Nat) : Fault :=
  ⟨reason, byteCount rest - bytes⟩

/-- A fault that shows at the next byte of the text, or at its end if there is none. -/
def next (reason : Reason) (rest : List Char) : Fault :=
  within reason rest 1

/-- The line and column after this many bytes of a text. -/
def position (line column : Nat) : List Char → Nat → Nat × Nat
  | _, 0 => (line, column)
  | [], _ => (line, column)
  | character :: rest, bytes =>
      if bytes < character.utf8Size then (line, column + bytes)
      else if character = '\n' then position (line + 1) 0 rest (bytes - character.utf8Size)
      else position line (column + character.utf8Size) rest (bytes - character.utf8Size)

/-- The report of a fault in a text. -/
def message (fault : Fault) (text : List Char) : String :=
  let (line, column) := position 1 0 text (byteCount text - fault.unread)
  s!"{fault.reason.text} at line {line} column {column}"

end Fault

end ConfigFill.Json
