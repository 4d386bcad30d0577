import ConfigFill.Yaml.Token.Basic

/-!
# Block scalars

A scalar written on the lines below a header, which says whether lines fold, how far they are
indented and what becomes of the breaks at the end. Without a given indentation, that of the first
line with text counts, but it is at least one more than that of the block around the scalar.
-/

namespace ConfigFill.Yaml.TokenKind

/-- What becomes of the breaks at the end of a block scalar. -/
inductive Chomping where
  /-- All are dropped. -/
  | strip
  /-- One stays. -/
  | clip
  /-- All stay. -/
  | keep
  deriving DecidableEq

/-- What stays of the breaks at the end of a block scalar, the last line's and those after it. -/
def Chomping.ending (last trailing : List Char) : Chomping → List Char
  | strip => []
  | clip => last
  | keep => last ++ trailing

/-- What the header of a block scalar says: the chomping, and the indentation beyond that of the
block around it if that is given. -/
structure BlockHeader where
  chomping : Chomping
  increment : Option Nat

/-- Read a chomping indicator, if there is one. -/
def readChomping (cursor : Cursor) : Option Chomping × Cursor :=
  if cursor.isAt '+' then (some .keep, cursor.skip 1)
  else if cursor.isAt '-' then (some .strip, cursor.skip 1)
  else (none, cursor)

/-- Read an indentation indicator, if there is one. -/
def readIncrement (since : Mark) (cursor : Cursor) : Except Fault (Option Nat × Cursor) :=
  match cursor.rest with
  | next :: _ =>
      if next = '0' then .error (cursor.fault .zeroIndentation .blockScalar since)
      else if next.isDigit then .ok (some (next.toNat - '0'.toNat), cursor.skip 1)
      else .ok (none, cursor)
  | [] => .ok (none, cursor)

/-- Read a header after the mark of the scalar, to the end of its line. The two indicators may come
in either order. -/
def readHeader (since : Mark) (cursor : Cursor) : Except Fault (BlockHeader × Cursor) := do
  let (early, after) := readChomping cursor
  let (increment, after) ← readIncrement since after
  let (late, after) :=
    if early.isNone && increment.isSome then readChomping after else (none, after)
  let after := after.skipComment
  if endsLine after.rest then
    return (⟨(early <|> late).getD .clip, increment⟩, after.skipBreak)
  else throw (after.fault .missingLineEnd .blockScalar since)

/-- Read indentation and empty lines before text: the breaks, the widest column met and the cursor
at the text. Without a given indentation, all spaces count as such. -/
def readIndentation (since : Mark) (indent : Option Nat) :
    Nat → Nat → Cursor → Except Fault (List Char × Nat × Cursor)
  | 0, widest, cursor => .ok ([], widest, cursor)
  | fuel + 1, widest, cursor =>
      let spaces := (cursor.rest.takeWhile (· == ' ')).length
      let count :=
        match indent with
        | some indent => min spaces (indent - cursor.mark.column)
        | none => spaces
      let cursor := cursor.skip count
      let widest := max widest cursor.mark.column
      let short :=
        match indent with
        | some indent => cursor.mark.column < indent
        | none => true
      if short && cursor.isAt '\t' then
        .error (cursor.fault .tabInIndentation .blockScalar since)
      else
        match cursor.rest with
        | next :: _ =>
            if isBreak next then do
              let (text, after) := cursor.takeBreak
              let (more, widest, after) ← readIndentation since indent fuel widest after
              return (text ++ more, widest, after)
            else .ok ([], widest, cursor)
        | [] => .ok ([], widest, cursor)

/-- Read the lines of a block scalar: `line` is the break that ended the line before, `breaks` those
of empty lines after it, and `indented` says that the line before began with a blank. The result is
the text with the breaks at its end, the last line's and those after it. -/
def readLines (literal : Bool) (since : Mark) (indent : Nat) :
    Nat → (line breaks : List Char) → (indented : Bool) → Cursor →
      Except Fault (List Char × List Char × List Char × Cursor)
  | 0, line, breaks, _, cursor => .ok ([], line, breaks, cursor)
  | fuel + 1, line, breaks, indented, cursor =>
      match cursor.rest with
      | [] => .ok ([], line, breaks, cursor)
      | next :: _ =>
          if cursor.mark.column ≠ indent then .ok ([], line, breaks, cursor)
          else do
            let blankNext := isBlank next
            let joint :=
              if !literal && line == ['\n'] && !indented && !blankNext then
                if breaks.isEmpty then [' '] else breaks
              else line ++ breaks
            let (text, after) := cursor.takeWhile (!isBreak ·)
            let (lineEnd, after) := after.takeBreak
            let (empty, _, after) ←
              readIndentation since (some indent) (after.rest.length + 1) 0 after
            let (more, last, trailing, after) ←
              readLines literal since indent fuel lineEnd empty blankNext after
            return (joint ++ text ++ more, last, trailing, after)

/-- Read a block scalar from its mark, in a block with this indentation. -/
def readBlock (literal : Bool) (blockIndent : Int) (cursor : Cursor) :
    Except Fault (TokenKind × Cursor) := do
  let since := cursor.mark
  let (header, after) ← readHeader since (cursor.skip 1)
  let base := (max blockIndent 0).toNat
  let given := header.increment.map (base + ·)
  let (breaks, widest, after) ←
    readIndentation since given (after.rest.length + 1) 0 after
  let indent := given.getD (max (max widest (blockIndent + 1).toNat) 1)
  let (text, last, trailing, after) ←
    readLines literal since indent (after.rest.length + 1) [] breaks false after
  return (.scalar (text ++ header.chomping.ending last trailing) false, after)

end ConfigFill.Yaml.TokenKind
