import ConfigFill.Yaml.Token.Block
import ConfigFill.Yaml.Token.Directive
import ConfigFill.Yaml.Token.Plain
import ConfigFill.Yaml.Token.Quoted

/-!
# From text to tokens

A lexer goes through a text token by token. What it reads may turn out to be a key only at the colon
after it, so a token waits in a queue as long as a key may still begin at it; the tokens for the key
and for the start of its mapping then go in front. `tokenize` gives the tokens in order as they
leave the queue, and the fault that ends them, if there is one: tokens that wait when a fault is met
never leave.
-/

namespace ConfigFill.Yaml

/-- A token that may turn out to begin a key: its number among all tokens and its place. A required
key begins a line of the block it stands in, so that nothing but a key can be there. -/
structure KeyCandidate where
  number : Nat
  mark : Mark
  required : Bool

/-- What keeps a text from being read beyond this many bytes. -/
structure Cut where
  index : Nat
  fault : Fault

/-- The state of a lexer between two tokens. -/
structure Lexer where
  cursor : Cursor
  /-- The number of tokens that have left the queue. -/
  sent : Nat
  queue : List Token
  /-- The indentation of the block and of those around it. -/
  indent : Int
  outerIndents : List Int
  /-- A key may begin at the next token. -/
  keyAllowed : Bool
  /-- The candidate outside all flow collections or in the innermost one. -/
  candidate : Option KeyCandidate
  /-- The candidates outside the innermost flow collection, one for each level. -/
  outerCandidates : List (Option KeyCandidate)
  finished : Bool
  /-- The end of the text is not its true end but a cut. -/
  cut : Option Cut

namespace Lexer

/-- The lexer at the start of a text, or of the part of a text before a cut. -/
def start (text : List Char) (cut : Option Cut) : Lexer where
  cursor := .ofText text
  sent := 0
  queue := []
  indent := -1
  outerIndents := []
  keyAllowed := true
  candidate := none
  outerCandidates := []
  finished := false
  cut := cut

/-- The lexer is inside a flow collection. -/
def inFlow (lexer : Lexer) : Bool :=
  !lexer.outerCandidates.isEmpty

/-- The number of the token that comes next. -/
def nextNumber (lexer : Lexer) : Nat :=
  lexer.sent + lexer.queue.length

/-- The column of the cursor. -/
def column (lexer : Lexer) : Int :=
  lexer.cursor.mark.column

/-- Put a token at the end of the queue. -/
def push (lexer : Lexer) (kind : TokenKind) (mark : Mark) : Lexer :=
  { lexer with queue := lexer.queue ++ [⟨kind, mark⟩] }

/-- Put a token in front of the token with this number. -/
def insertAt (lexer : Lexer) (number : Nat) (kind : TokenKind) (mark : Mark) : Lexer :=
  let position := number - lexer.sent
  { lexer with queue := lexer.queue.take position ++ ⟨kind, mark⟩ :: lexer.queue.drop position }

/-- The fault of a required key that has no colon. -/
def missingColon (lexer : Lexer) (candidate : KeyCandidate) : Fault :=
  lexer.cursor.fault .missingColon .simpleKey candidate.mark

/-- No key can begin at the candidate any more: a key ends on the line where it began, and has no
more than 1024 bytes. -/
def isStale (lexer : Lexer) (candidate : KeyCandidate) : Bool :=
  candidate.mark.line < lexer.cursor.mark.line ||
    candidate.mark.index + 1024 < lexer.cursor.mark.index

/-- The candidate if a key can still begin at it. -/
def refreshed (lexer : Lexer) : Option KeyCandidate → Except Fault (Option KeyCandidate)
  | none => .ok none
  | some candidate =>
      if lexer.isStale candidate then
        if candidate.required then .error (lexer.missingColon candidate) else .ok none
      else .ok (some candidate)

/-- Drop the candidates at which no key can begin any more, the outermost first. -/
def dropStale (lexer : Lexer) : Except Fault Lexer := do
  let outer ← lexer.outerCandidates.reverse.mapM lexer.refreshed
  let candidate ← lexer.refreshed lexer.candidate
  return { lexer with candidate := candidate, outerCandidates := outer.reverse }

/-- Drop the candidate of this level. -/
def dropCandidate (lexer : Lexer) : Except Fault Lexer :=
  match lexer.candidate with
  | some candidate =>
      if candidate.required then .error (lexer.missingColon candidate)
      else .ok { lexer with candidate := none }
  | none => .ok lexer

/-- Make the next token a candidate, if a key may begin at it. -/
def saveCandidate (lexer : Lexer) : Except Fault Lexer :=
  if lexer.keyAllowed then do
    let lexer ← lexer.dropCandidate
    return { lexer with
      candidate := some
        { number := lexer.nextNumber
          mark := lexer.cursor.mark
          required := !lexer.inFlow && lexer.indent == lexer.column } }
  else .ok lexer

/-- Begin a block at a column if it is indented further than the one around it. Its token goes in
front of the token with the given number. -/
def indentTo (lexer : Lexer) (column : Int) (number : Nat) (kind : TokenKind) (mark : Mark) :
    Lexer :=
  if !lexer.inFlow && lexer.indent < column then
    { lexer.insertAt number kind mark with
      indent := column, outerIndents := lexer.indent :: lexer.outerIndents }
  else lexer

/-- End blocks of these indentations, the innermost first, as long as they are indented further
than a column. -/
def closeBlocks (column : Int) : List Int → Lexer → Lexer
  | [], lexer => lexer
  | outer :: others, lexer =>
      if column < lexer.indent then
        closeBlocks column others
          { lexer.push .blockEnd lexer.cursor.mark with indent := outer, outerIndents := others }
      else lexer

/-- End the blocks that are indented further than a column. -/
def dedentTo (lexer : Lexer) (column : Int) : Lexer :=
  if lexer.inFlow then lexer else closeBlocks column lexer.outerIndents lexer

/-- Put a token of some characters at the end of the queue and go past it. -/
def take (lexer : Lexer) (kind : TokenKind) (count : Nat) : Lexer :=
  { lexer.push kind lexer.cursor.mark with cursor := lexer.cursor.skip count }

/-- Put a token that has been read at the end of the queue and go on after it. -/
def accept (lexer : Lexer) (scanned : Except Fault (TokenKind × Cursor)) : Except Fault Lexer :=
  scanned.map fun (kind, after) ↦ { lexer.push kind lexer.cursor.mark with cursor := after }

/-- Go past blanks, comments and line breaks. In a block, tabs count as blanks only where no key
may begin, and a key may begin on a new line. -/
def skipToToken : Nat → Lexer → Lexer
  | 0, lexer => lexer
  | fuel + 1, lexer =>
      let cursor := lexer.cursor
      let cursor :=
        if cursor.mark.column == 0 && cursor.isAt '\ufeff' then cursor.skip 1 else cursor
      let tabs := lexer.inFlow || !lexer.keyAllowed
      let cursor := cursor.skipWhile fun next ↦ next == ' ' || (tabs && next == '\t')
      let cursor := if cursor.isAt '#' then cursor.skipWhile (!isBreak ·) else cursor
      match cursor.rest with
      | next :: _ =>
          if isBreak next then
            skipToToken fuel
              { lexer with
                cursor := cursor.skipBreak, keyAllowed := lexer.keyAllowed || !lexer.inFlow }
          else { lexer with cursor := cursor }
      | [] => { lexer with cursor := cursor }

/-- Read the end of the text. -/
def readEnd (lexer : Lexer) : Except Fault Lexer := do
  let mark := lexer.cursor.mark
  let mark := if mark.column == 0 then mark else ⟨mark.index, mark.line + 1, 0⟩
  let lexer := { lexer with cursor := { lexer.cursor with mark := mark } }
  let lexer ← (lexer.dedentTo (-1)).dropCandidate
  return { lexer.take .streamEnd 0 with keyAllowed := false, finished := true }

/-- Read a directive. -/
def readDirective (lexer : Lexer) : Except Fault Lexer := do
  let lexer ← (lexer.dedentTo (-1)).dropCandidate
  { lexer with keyAllowed := false }.accept (TokenKind.readDirective lexer.cursor)

/-- Read the mark that starts or ends a document. -/
def readDocumentMark (lexer : Lexer) (kind : TokenKind) : Except Fault Lexer := do
  let lexer ← (lexer.dedentTo (-1)).dropCandidate
  return { lexer.take kind 3 with keyAllowed := false }

/-- Read the start of a flow collection, which may be a key. -/
def openFlow (lexer : Lexer) (kind : TokenKind) : Except Fault Lexer := do
  let lexer ← lexer.saveCandidate
  return { lexer.take kind 1 with
    keyAllowed := true
    candidate := none
    outerCandidates := lexer.candidate :: lexer.outerCandidates }

/-- Read the end of a flow collection. -/
def closeFlow (lexer : Lexer) (kind : TokenKind) : Except Fault Lexer := do
  let lexer ← lexer.dropCandidate
  let lexer := { lexer.take kind 1 with keyAllowed := false }
  match lexer.outerCandidates with
  | candidate :: others => return { lexer with candidate := candidate, outerCandidates := others }
  | [] => return lexer

/-- Read a comma of a flow collection. -/
def readFlowEntry (lexer : Lexer) : Except Fault Lexer := do
  let lexer ← lexer.dropCandidate
  return { lexer.take .flowEntry 1 with keyAllowed := true }

/-- The fault of an indicator that has no place here. -/
def misplaced (lexer : Lexer) (problem : Problem) : Fault :=
  .malformed problem lexer.cursor.mark none

/-- Begin a block with an indicator, if one of its kind may begin here. -/
def openBlock (lexer : Lexer) (kind : TokenKind) (problem : Problem) : Except Fault Lexer :=
  if lexer.inFlow then .ok lexer
  else if lexer.keyAllowed then
    .ok (lexer.indentTo lexer.column lexer.nextNumber kind lexer.cursor.mark)
  else .error (lexer.misplaced problem)

/-- Read the dash of a block sequence. -/
def readBlockEntry (lexer : Lexer) : Except Fault Lexer := do
  let lexer ← lexer.openBlock .blockSequenceStart .entryNotAllowed
  let lexer ← lexer.dropCandidate
  return { lexer.take .blockEntry 1 with keyAllowed := true }

/-- Read the question mark of a key. -/
def readKey (lexer : Lexer) : Except Fault Lexer := do
  let lexer ← lexer.openBlock .blockMappingStart .keyNotAllowed
  let lexer ← lexer.dropCandidate
  return { lexer.take .key 1 with keyAllowed := !lexer.inFlow }

/-- Read the colon of a value. A candidate then is a key: its token goes in front, and that of its
mapping before it if the mapping begins here. -/
def readValue (lexer : Lexer) : Except Fault Lexer :=
  match lexer.candidate with
  | some candidate =>
      let lexer := lexer.insertAt candidate.number .key candidate.mark
      let lexer :=
        lexer.indentTo candidate.mark.column candidate.number .blockMappingStart candidate.mark
      .ok { lexer.take .value 1 with candidate := none, keyAllowed := false }
  | none => do
      let lexer ← lexer.openBlock .blockMappingStart .valueNotAllowed
      return { lexer.take .value 1 with keyAllowed := !lexer.inFlow }

/-- Read a token that may begin a key and that none can follow directly. -/
def readPiece (lexer : Lexer) (read : Cursor → Except Fault (TokenKind × Cursor)) :
    Except Fault Lexer := do
  let lexer ← lexer.saveCandidate
  { lexer with keyAllowed := false }.accept (read lexer.cursor)

/-- Read a block scalar. -/
def readBlockScalar (lexer : Lexer) (literal : Bool) : Except Fault Lexer := do
  let lexer ← lexer.dropCandidate
  { lexer with keyAllowed := true }.accept (TokenKind.readBlock literal lexer.indent lexer.cursor)

/-- Read a plain scalar. A key may follow it if a line has ended after it. -/
def readPlain (lexer : Lexer) : Except Fault Lexer := do
  let lexer ← lexer.saveCandidate
  let (kind, broken, after) ← TokenKind.readPlain lexer.inFlow lexer.indent lexer.cursor
  return { lexer.push kind lexer.cursor.mark with cursor := after, keyAllowed := broken }

/-- The character begins no plain scalar by itself. -/
def isIndicator (character : Char) : Bool :=
  "-?:,[]\x7b\x7d#&*!|>'\"%@\x60".toList.contains character

/-- A plain scalar begins here. -/
def startsPlain (inFlow : Bool) : List Char → Bool
  | [] => false
  | next :: rest =>
      !(isSpacing next || isIndicator next) ||
        (next == '-' && !(rest.head?.map isBlank).getD false) ||
        (!inFlow && (next == '?' || next == ':') && !endsWord rest)

/-- Read the token at the cursor, blanks before it being past. -/
def readToken (lexer : Lexer) : Except Fault Lexer :=
  let text := lexer.cursor.rest
  let first := lexer.cursor.mark.column == 0
  match text with
  | [] => lexer.readEnd
  | next :: rest =>
      let apart := lexer.inFlow || endsWord rest
      if first && next == '%' then lexer.readDirective
      else if first && startsDocumentMark '-' text then lexer.readDocumentMark .documentStart
      else if first && startsDocumentMark '.' text then lexer.readDocumentMark .documentEnd
      else if next == '[' then lexer.openFlow .flowSequenceStart
      else if next == '\x7b' then lexer.openFlow .flowMappingStart
      else if next == ']' then lexer.closeFlow .flowSequenceEnd
      else if next == '\x7d' then lexer.closeFlow .flowMappingEnd
      else if next == ',' then lexer.readFlowEntry
      else if next == '-' && endsWord rest then lexer.readBlockEntry
      else if next == '?' && apart then lexer.readKey
      else if next == ':' && apart then lexer.readValue
      else if next == '*' then lexer.readPiece TokenKind.readAlias
      else if next == '&' then lexer.readPiece TokenKind.readAnchor
      else if next == '!' then lexer.readPiece (TokenKind.readTag lexer.inFlow)
      else if next == '|' && !lexer.inFlow then lexer.readBlockScalar true
      else if next == '>' && !lexer.inFlow then lexer.readBlockScalar false
      else if next == '\'' then lexer.readPiece (TokenKind.readQuoted true)
      else if next == '"' then lexer.readPiece (TokenKind.readQuoted false)
      else if startsPlain lexer.inFlow text then lexer.readPlain
      else
        .error (lexer.cursor.fault .strayCharacter .nextToken lexer.cursor.mark)

/-- Go past blanks, end the blocks that end there, and read one token. -/
def readNext (lexer : Lexer) : Except Fault Lexer := do
  let lexer ← (skipToToken (lexer.cursor.rest.length + 1) lexer).dropStale
  (lexer.dedentTo lexer.column).readToken

/-- Read the next token. Nothing can be told of one that reaches a cut, so that it is lost to what
made the cut. -/
def advance (lexer : Lexer) : Except Fault Lexer :=
  match lexer.cut, lexer.readNext with
  | none, next => next
  | some cut, .ok next => if cut.index ≤ next.cursor.mark.index then .error cut.fault else .ok next
  | some cut, .error fault => .error (if fault.isFrom cut.index then cut.fault else fault)

/-- A key may still begin at the token in front of the queue. -/
def frontIsCandidate (lexer : Lexer) : Bool :=
  (lexer.candidate :: lexer.outerCandidates).any fun candidate ↦
    (candidate.map (·.number == lexer.sent)).getD false

/-- Send tokens until the end of the text or a fault. -/
def run : Nat → Lexer → List Token × Option Fault
  | 0, _ => ([], none)
  | fuel + 1, lexer =>
      match lexer.queue with
      | [] =>
          if lexer.finished then ([], none)
          else
            match lexer.advance with
            | .ok lexer => run fuel lexer
            | .error fault => ([], some fault)
      | token :: queue =>
          match lexer.dropStale with
          | .error fault => ([], some fault)
          | .ok lexer =>
              if lexer.frontIsCandidate then
                match lexer.advance with
                | .ok lexer => run fuel lexer
                | .error fault => ([], some fault)
              else
                let (tokens, fault) :=
                  run fuel { lexer with sent := lexer.sent + 1, queue := queue }
                (token :: tokens, fault)

end Lexer

/-- A character that a text may hold. -/
def isAllowed (character : Char) : Bool :=
  let code := character.toNat
  code == 0x09 || code == 0x0A || code == 0x0D || (0x20 ≤ code && code ≤ 0x7E) ||
    code == 0x85 || (0xA0 ≤ code && code ≤ 0xFFFD) || 0x10000 ≤ code

/-- The number of bytes that are checked for such characters at a time, before any of them is read.
A character that does not fit in a block whole belongs to the next one. -/
def blockSize : Nat :=
  Nat.pow 2 14

/-- The cut before the block with the first character that a text may not hold, where the block and
the rest of the text begin after so many bytes. -/
def cut? (block offset : Nat) : List Char → Option Cut
  | [] => none
  | character :: rest =>
      let next := offset + character.utf8Size
      let block := if block + blockSize < next then offset else block
      if isAllowed character then cut? block next rest
      else some ⟨block, .controlCharacter offset⟩

/-- The longest part at the front of a text that has no more than so many bytes. -/
def takeBytes (count : Nat) : List Char → List Char
  | [] => []
  | character :: rest =>
      if character.utf8Size ≤ count then character :: takeBytes (count - character.utf8Size) rest
      else []

/-- The tokens of a text, and the fault that ends them early. The last token marks the end of the
text. Every token read stands for a character or closes a block that an earlier one opened, so the
steps are fewer than eight for each character. -/
def tokenize (text : List Char) : List Token × Option Fault :=
  let cut := cut? 0 0 text
  let readable :=
    match cut with
    | some cut => takeBytes cut.index text
    | none => text
  (Lexer.start readable cut).run (8 * readable.length + 16)

end ConfigFill.Yaml
