import ConfigFill.Text.Digits
import ConfigFill.Yaml.Token.Basic

/-!
# Quoted scalars

A scalar between single or double quotes. Line breaks inside it fold like those of a plain scalar.
Between single quotes a doubled quote stands for one; between double quotes a backslash begins an
escape, and at the end of a line it joins the next line without a space.
-/

namespace ConfigFill.Yaml.TokenKind

/-- What a backslash and the character after it stand for. -/
inductive EscapeMeaning where
  | character (character : Char)
  /-- The character whose code point follows in this many hexadecimal digits. -/
  | codePoint (digits : Nat)

/-- The meaning of the character after a backslash. -/
def escapeMeaning? : Char → Option EscapeMeaning
  | '0' => some (.character '\x00')
  | 'a' => some (.character '\x07')
  | 'b' => some (.character '\x08')
  | 't' => some (.character '\t')
  | '\t' => some (.character '\t')
  | 'n' => some (.character '\n')
  | 'v' => some (.character '\x0b')
  | 'f' => some (.character '\x0c')
  | 'r' => some (.character '\r')
  | 'e' => some (.character '\x1b')
  | ' ' => some (.character ' ')
  | '"' => some (.character '"')
  | '/' => some (.character '/')
  | '\\' => some (.character '\\')
  | 'N' => some (.character '\x85')
  | '_' => some (.character '\xa0')
  | 'L' => some (.character '\u2028')
  | 'P' => some (.character '\u2029')
  | 'x' => some (.codePoint 2)
  | 'u' => some (.codePoint 4)
  | 'U' => some (.codePoint 8)
  | _ => none

/-- The character of a code point, if it is one. -/
def charOf? (code : Nat) : Option Char :=
  if h : code.isValidChar then some (.ofNatAux code h) else none

/-- Read an escape from its backslash. -/
def readEscape (since : Mark) (cursor : Cursor) : Except Fault (Char × Cursor) :=
  match cursor.rest with
  | _ :: next :: digits =>
      match escapeMeaning? next with
      | some (.character character) => .ok (character, cursor.skip 2)
      | some (.codePoint count) =>
          let after := cursor.skip 2
          match (Text.number? 16 (digits.take count)).filter fun _ ↦ count ≤ digits.length with
          | some code =>
              match charOf? code with
              | some character => .ok (character, after.skip count)
              | none => .error (after.fault .badCodePoint .quotedEscape since)
          | none => .error (after.fault .badHexDigit .quotedEscape since)
      | none => .error (cursor.fault .unknownEscape .quotedEscape since)
  | _ => .error (cursor.fault .unknownEscape .quotedEscape since)

/-- Read characters of a quoted scalar up to a blank, a break, the closing quote or an escaped line
break. The flag says that the last of these has been read. -/
def readQuotedWord (single : Bool) (since : Mark) :
    Nat → Cursor → Except Fault (List Char × Bool × Cursor)
  | 0, cursor => .ok ([], false, cursor)
  | fuel + 1, cursor =>
      let continued (character : Char) (after : Cursor) :
          Except Fault (List Char × Bool × Cursor) := do
        let (more, joined, after) ← readQuotedWord single since fuel after
        return (character :: more, joined, after)
      match cursor.rest with
      | [] => .ok ([], false, cursor)
      | next :: rest =>
          if isSpacing next then .ok ([], false, cursor)
          else if single then
            if next = '\'' then
              if rest.head? == some '\'' then continued '\'' (cursor.skip 2)
              else .ok ([], false, cursor)
            else continued next (cursor.skip 1)
          else if next = '"' then .ok ([], false, cursor)
          else if next = '\\' then
            if (rest.head?.map isBreak).getD false then
              .ok ([], true, (cursor.skip 1).skipBreak)
            else do
              let (character, after) ← readEscape since cursor
              continued character after
          else continued next (cursor.skip 1)

/-- Read a quoted scalar after its opening quote. -/
def readQuotedText (single : Bool) (since : Mark) :
    Nat → Cursor → Except Fault (List Char × Cursor)
  | 0, cursor => .error (cursor.fault .endInScalar .quotedScalar since)
  | fuel + 1, cursor => do
      if cursor.isAtDocumentMark then
        throw (cursor.fault .documentMarkInScalar .quotedScalar since)
      if cursor.rest.isEmpty then throw (cursor.fault .endInScalar .quotedScalar since)
      let (word, joined, after) ← readQuotedWord single since cursor.rest.length cursor
      if after.isAt (if single then '\'' else '"') then return (word, after.skip 1)
      match Gap.read 0 after.rest.length (.start joined) after with
      | .error cursor => throw (cursor.fault .tabBeforeText .quotedScalar since)
      | .ok (gap, after) =>
          let (more, after) ← readQuotedText single since fuel after
          return (word ++ gap.folded ++ more, after)

/-- Read a quoted scalar from its opening quote. -/
def readQuoted (single : Bool) (cursor : Cursor) : Except Fault (TokenKind × Cursor) := do
  let (text, after) ←
    readQuotedText single cursor.mark (cursor.rest.length + 1) (cursor.skip 1)
  return (.scalar text false, after)

end ConfigFill.Yaml.TokenKind
