import ConfigFill.Json.Number

/-!
# Reading JSON

One JSON value with blanks around it, read strictly into a tree. Containers nest at most 127 deep.
Of a repeated key, the first place and the last value count.
-/

namespace ConfigFill.Json

/-- The characters that may stand between tokens. -/
def isBlank (character : Char) : Bool :=
  character == ' ' || character == '\n' || character == '\t' || character == '\r'

/-- The text without the blanks at its front. -/
def skipBlanks (text : List Char) : List Char :=
  text.dropWhile isBlank

/-- Four hexadecimal digits as a number. -/
def readUnit (text : List Char) : Except Fault (Nat × List Char) :=
  if byteCount text < 4 then .error (.before .endInString [])
  else
    match Text.number? 16 (text.take 4) with
    | some unit => .ok (unit, text.drop 4)
    | none => .error (.within .invalidEscape text 4)

/-- The unit is the first half of a pair that stands for one character. -/
def isLeading (unit : Nat) : Bool :=
  0xD800 ≤ unit && unit ≤ 0xDBFF

/-- The unit is the second half of a pair. -/
def isTrailing (unit : Nat) : Bool :=
  0xDC00 ≤ unit && unit ≤ 0xDFFF

/-- The second half of a pair, with its escape mark. -/
def readTrailing (text : List Char) : Except Fault (Nat × List Char) := do
  let text ← expectMark '\\' text
  let text ← expectMark 'u' text
  let (unit, rest) ← readUnit text
  if isTrailing unit then return (unit, rest) else throw (.before .loneSurrogate rest)
where
  expectMark (mark : Char) : List Char → Except Fault (List Char)
    | [] => .error (.before .endInString [])
    | first :: rest =>
        if first = mark then .ok rest else .error (.next .endInEscape (first :: rest))

/-- The character of an escape by number: of one unit, or of a pair. -/
def readNumbered (text : List Char) : Except Fault (Char × List Char) := do
  let (unit, rest) ← readUnit text
  if isTrailing unit then throw (.before .loneSurrogate rest)
  else if isLeading unit then
    let (second, rest) ← readTrailing rest
    return (.ofNat (0x10000 + (unit - 0xD800) * 0x400 + (second - 0xDC00)), rest)
  else return (.ofNat unit, rest)

/-- The character of an escape, after its backslash. -/
def readEscape : List Char → Except Fault (Char × List Char)
  | [] => .error (.before .endInString [])
  | '"' :: rest => .ok ('"', rest)
  | '\\' :: rest => .ok ('\\', rest)
  | '/' :: rest => .ok ('/', rest)
  | 'b' :: rest => .ok ('\x08', rest)
  | 'f' :: rest => .ok ('\x0c', rest)
  | 'n' :: rest => .ok ('\n', rest)
  | 'r' :: rest => .ok ('\r', rest)
  | 't' :: rest => .ok ('\t', rest)
  | 'u' :: rest => readNumbered rest
  | text => .error (.next .invalidEscape text)

/-- The characters of a string up to its closing quote. Each step reads at least one character of
the text, so fuel as long as the text suffices. -/
def readChars : Nat → List Char → Except Fault (List Char × List Char)
  | 0, text => .error (.before .endInString text)
  | _ + 1, [] => .error (.before .endInString [])
  | _ + 1, '"' :: rest => .ok ([], rest)
  | fuel + 1, '\\' :: rest => do
      let (character, rest) ← readEscape rest
      let (characters, rest) ← readChars fuel rest
      return (character :: characters, rest)
  | fuel + 1, character :: rest =>
      if character.toNat < 32 then .error (.before .controlInString rest)
      else do
        let (characters, rest) ← readChars fuel rest
        return (character :: characters, rest)

/-- Read a string after its opening quote. -/
def readString (text : List Char) : Except Fault (String × List Char) := do
  let (characters, rest) ← readChars (text.length + 1) text
  return (String.ofList characters, rest)

/-- Read the rest of a word whose first letter has been read. -/
def readWord (value : Tree) : List Char → List Char → Except Fault (Tree × List Char)
  | [], text => .ok (value, text)
  | _, [] => .error (.before .endInValue [])
  | letter :: letters, first :: rest =>
      if first = letter then readWord value letters rest
      else .error (.next .expectedWord (first :: rest))

/-- What can follow an item or an entry: another one, or the end. -/
inductive Continuation where
  | more (rest : List Char)
  | done (rest : List Char)

/-- Read what stands before an item of a list, or the end of the list. -/
def readListMark (first : Bool) (text : List Char) : Except Fault Continuation :=
  match skipBlanks text, first with
  | ']' :: rest, _ => .ok (.done rest)
  | [], _ => .error (.before .endInList [])
  | rest, true => .ok (.more rest)
  | ',' :: rest, false =>
      match skipBlanks rest with
      | ']' :: rest => .error (.next .trailingComma (']' :: rest))
      | [] => .error (.before .endInValue [])
      | rest => .ok (.more rest)
  | rest, false => .error (.next .expectedListEnd rest)

/-- Read what stands before an entry of an object, its opening quote included, or the end of the
object. -/
def readObjectMark (first : Bool) (text : List Char) : Except Fault Continuation :=
  match skipBlanks text, first with
  | '\x7d' :: rest, _ => .ok (.done rest)
  | [], _ => .error (.before .endInObject [])
  | '"' :: rest, true => .ok (.more rest)
  | rest, true => .error (.next .keyNotString rest)
  | ',' :: rest, false =>
      match skipBlanks rest with
      | '"' :: rest => .ok (.more rest)
      | '\x7d' :: rest => .error (.next .trailingComma ('\x7d' :: rest))
      | [] => .error (.before .endInValue [])
      | rest => .error (.next .keyNotString rest)
  | rest, false => .error (.next .expectedObjectEnd rest)

/-- Read the colon after a key. -/
def readColon (text : List Char) : Except Fault (List Char) :=
  match skipBlanks text with
  | ':' :: rest => .ok rest
  | [] => .error (.before .endInObject [])
  | rest => .error (.next .expectedColon rest)

mutual

/-- Read a value, in which containers may nest `depth` deep. -/
def readValue : Nat → Nat → List Char → Except Fault (Tree × List Char)
  | 0, _, text => .error (.before .endInValue text)
  | fuel + 1, depth, text =>
      match skipBlanks text with
      | [] => .error (.before .endInValue [])
      | 'n' :: rest => readWord .null ['u', 'l', 'l'] rest
      | 't' :: rest => readWord (.bool true) ['r', 'u', 'e'] rest
      | 'f' :: rest => readWord (.bool false) ['a', 'l', 's', 'e'] rest
      | '-' :: rest => readNumber true rest
      | '"' :: rest => do
          let (value, rest) ← readString rest
          return (.string value, rest)
      | '[' :: rest =>
          match depth with
          | 0 => .error (.next .tooDeep ('[' :: rest))
          | depth + 1 => do
              let (items, rest) ← readItems fuel depth true rest
              return (.sequence items, rest)
      | '\x7b' :: rest =>
          match depth with
          | 0 => .error (.next .tooDeep ('\x7b' :: rest))
          | depth + 1 => do
              let (pairs, rest) ← readPairs fuel depth true rest
              return (.mapping (Entries.ofPairs pairs), rest)
      | first :: rest =>
          if first.isDigit then readNumber false (first :: rest)
          else .error (.next .expectedValue (first :: rest))

/-- Read items up to the end of a list. -/
def readItems : Nat → Nat → Bool → List Char → Except Fault (List Tree × List Char)
  | 0, _, _, text => .error (.before .endInList text)
  | fuel + 1, depth, first, text =>
      match readListMark first text with
      | .error fault => .error fault
      | .ok (.done rest) => .ok ([], rest)
      | .ok (.more rest) => do
          let (item, rest) ← readValue fuel depth rest
          let (items, rest) ← readItems fuel depth false rest
          return (item :: items, rest)

/-- Read entries up to the end of an object. -/
def readPairs : Nat → Nat → Bool → List Char → Except Fault (List (String × Tree) × List Char)
  | 0, _, _, text => .error (.before .endInObject text)
  | fuel + 1, depth, first, text =>
      match readObjectMark first text with
      | .error fault => .error fault
      | .ok (.done rest) => .ok ([], rest)
      | .ok (.more rest) => do
          let (key, rest) ← readString rest
          let rest ← readColon rest
          let (value, rest) ← readValue fuel depth rest
          let (pairs, rest) ← readPairs fuel depth false rest
          return ((key, value) :: pairs, rest)

end

/-- How deep containers may nest. -/
def depthLimit : Nat :=
  127

/-- Read a whole text as one value. Of the readers, each reads a character before it passes fuel
on, but for the step from a list's mark to its item; so twice the length suffices. -/
def readDocument (text : List Char) : Except Fault Tree := do
  let (value, rest) ← readValue (2 * text.length + 2) depthLimit text
  match skipBlanks rest with
  | [] => return value
  | rest => throw (.next .trailingText rest)

/-- Read a text as JSON, or say in words why it is none. -/
def parse (text : String) : Except String Tree :=
  (readDocument text.toList).mapError (·.message text.toList)

end ConfigFill.Json
