import ConfigFill.Text.Digits
import ConfigFill.Yaml.Token.Basic

/-!
# Anchors, aliases and tags

The tokens that say something about a node instead of being one, and the handles and texts of tags,
which directives share.
-/

namespace ConfigFill.Yaml.TokenKind

/-- The character may follow a name directly. -/
def endsName : List Char → Bool
  | [] => true
  | next :: _ => isSpacing next || ['?', ':', ',', ']', '\x7d', '%', '@', '\x60'].contains next

/-- Read the name of an anchor or an alias after its mark. -/
def readName (context : Context) (cursor : Cursor) : Except Fault (List Char × Cursor) :=
  let (name, after) := (cursor.skip 1).takeWhile isWordChar
  if name.isEmpty || !endsName after.rest then .error (after.fault .badAnchor context cursor.mark)
  else .ok (name, after)

/-- Read an anchor. -/
def readAnchor (cursor : Cursor) : Except Fault (TokenKind × Cursor) :=
  (readName .anchor cursor).map fun (name, after) ↦ (.anchor name, after)

/-- Read an alias. -/
def readAlias (cursor : Cursor) : Except Fault (TokenKind × Cursor) :=
  (readName .aliasName cursor).map fun (name, after) ↦ (.aliasName name, after)

/-- Where the text of a tag stands. -/
inductive TagPlace where
  /-- In a directive, which explains a handle. -/
  | directive
  /-- Between angle brackets. -/
  | verbatim
  /-- After a handle, before a node. -/
  | short
  deriving DecidableEq

namespace TagPlace

/-- What is being read when an escape or the text itself is faulty. -/
def context : TagPlace → Context
  | directive => .tagDirectiveText
  | _ => .tagText

/-- The characters of a tag's text in this place; flow indicators count only where the end of the
text is marked otherwise. -/
def admits (place : TagPlace) (character : Char) : Bool :=
  isWordChar character || ";/?:@&=+$.%!~*'()".toList.contains character ||
    (place != .short && ",[]".toList.contains character)

end TagPlace

/-- The number of bytes of a character that begins with this byte. -/
def sequenceWidth? (leading : Nat) : Option Nat :=
  if leading < 0x80 then some 1
  else if 0xC0 ≤ leading ∧ leading < 0xE0 then some 2
  else if 0xE0 ≤ leading ∧ leading < 0xF0 then some 3
  else if 0xF0 ≤ leading ∧ leading < 0xF8 then some 4
  else none

/-- Read one escaped byte. -/
def readOctet (place : TagPlace) (since : Mark) (cursor : Cursor) :
    Except Fault (Nat × Cursor) :=
  match cursor.rest with
  | '%' :: high :: low :: _ =>
      match Text.number? 16 [high, low] with
      | some octet => .ok (octet, cursor.skip 3)
      | none => .error (cursor.fault .badOctet place.context since)
  | _ => .error (cursor.fault .badOctet place.context since)

/-- Read the escaped bytes that continue a character. -/
def readTrailing (place : TagPlace) (since : Mark) :
    Nat → Cursor → Except Fault (List UInt8 × Cursor)
  | 0, cursor => .ok ([], cursor)
  | count + 1, cursor => do
      let (octet, after) ← readOctet place since cursor
      if octet / 64 ≠ 2 then throw (cursor.fault .badTrailingOctet place.context since)
      let (more, after) ← readTrailing place since count after
      return (octet.toUInt8 :: more, after)

/-- Read the escaped bytes of one character. -/
def readOctets (place : TagPlace) (since : Mark) (cursor : Cursor) :
    Except Fault (List UInt8 × Cursor) := do
  let (leading, after) ← readOctet place since cursor
  match sequenceWidth? leading with
  | none => throw (cursor.fault .badLeadingOctet place.context since)
  | some width =>
      let (more, after) ← readTrailing place since (width - 1) after
      return (leading.toUInt8 :: more, after)

/-- Read the characters and escapes of a tag's text. -/
def readTagBytes (place : TagPlace) (since : Mark) :
    Nat → Cursor → Except Fault (List UInt8 × Cursor)
  | 0, cursor => .ok ([], cursor)
  | fuel + 1, cursor =>
      match cursor.rest with
      | [] => .ok ([], cursor)
      | next :: _ =>
          if !place.admits next then .ok ([], cursor)
          else do
            let (bytes, after) ←
              if next = '%' then readOctets place since cursor
              else pure ([next.toNat.toUInt8], cursor.skip 1)
            let (more, after) ← readTagBytes place since fuel after
            return (bytes ++ more, after)

/-- Read a tag's text after what has been read of it already. The text ends at a zero byte. -/
def readTagText (place : TagPlace) (since : Mark) (head : List Char) (cursor : Cursor) :
    Except Fault (List UInt8 × Cursor) := do
  let (bytes, after) ← readTagBytes place since cursor.rest.length cursor
  if head.isEmpty && after.mark.index == cursor.mark.index then
    throw (after.fault .missingTagText place.context since)
  let known := (head.drop 1).map fun character ↦ character.toNat.toUInt8
  return ((known ++ bytes).takeWhile (· != 0), after)

/-- Read a handle: an exclamation mark, or a name between two. In a tag, and for the plain mark,
the second mark may be missing. -/
def readHandle (inDirective : Bool) (since : Mark) (cursor : Cursor) :
    Except Fault (List Char × Cursor) :=
  if !cursor.isAt '!' then
    .error (cursor.fault .missingExclamation
      (if inDirective then .tagDirectiveHandle else .tag) since)
  else
    let (name, after) := (cursor.skip 1).takeWhile isWordChar
    if after.isAt '!' then .ok ('!' :: name ++ ['!'], after.skip 1)
    else if inDirective && !name.isEmpty then
      .error (after.fault .missingExclamation .tagDirectiveHandleEnd since)
    else .ok ('!' :: name, after)

/-- Read a tag between angle brackets, from its exclamation mark. -/
def readVerbatimTag (cursor : Cursor) : Except Fault (WrittenTag × Cursor) := do
  let (text, after) ← readTagText .verbatim cursor.mark [] (cursor.skip 2)
  if !after.isAt '>' then throw (after.fault .missingAngle .tag cursor.mark)
  return (⟨[], text⟩, after.skip 1)

/-- Read a tag that begins with a handle. A tag without a second exclamation mark has the plain
handle, and the lone mark has no handle. -/
def readShortTag (cursor : Cursor) : Except Fault (WrittenTag × Cursor) := do
  let (handle, after) ← readHandle false cursor.mark cursor
  if 1 < handle.length && handle.getLast? == some '!' then
    let (text, after) ← readTagText .short cursor.mark [] after
    return (⟨handle, text⟩, after)
  else
    let (text, after) ← readTagText .short cursor.mark handle after
    if text.isEmpty then return (⟨[], ['!'.toNat.toUInt8]⟩, after)
    else return (⟨['!'], text⟩, after)

/-- Read a tag. It ends at a blank or, within flow collections, at a comma. -/
def readTag (inFlow : Bool) (cursor : Cursor) : Except Fault (TokenKind × Cursor) := do
  let (written, after) ←
    if (cursor.skip 1).isAt '<' then readVerbatimTag cursor else readShortTag cursor
  if endsWord after.rest || (inFlow && after.isAt ',') then return (.tag written, after)
  else throw (after.fault .missingBlankOrBreak .tag cursor.mark)

end ConfigFill.Yaml.TokenKind
