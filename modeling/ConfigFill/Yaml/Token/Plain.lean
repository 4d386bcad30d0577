import ConfigFill.Yaml.Token.Basic

/-!
# Plain scalars

A scalar without quotes runs on until something ends it: a colon before a blank, a comment, a mark
of a document, an indicator of a flow collection inside one, or a line that is not indented enough.
-/

namespace ConfigFill.Yaml.TokenKind

/-- The flow indicators that end a plain scalar inside a flow collection. -/
def isFlowEnd (character : Char) : Bool :=
  ",[]\x7b\x7d".toList.contains character

/-- Read characters of a plain scalar up to a blank, a break or an end of the scalar. -/
def readPlainWord (inFlow : Bool) (since : Mark) :
    Nat → Cursor → Except Fault (List Char × Cursor)
  | 0, cursor => .ok ([], cursor)
  | fuel + 1, cursor =>
      match cursor.rest with
      | [] => .ok ([], cursor)
      | next :: rest =>
          if isSpacing next then .ok ([], cursor)
          else if inFlow && next == ':' &&
              (rest.head?.map fun after ↦ after == '?' || isFlowEnd after).getD false then
            .error (cursor.fault .strayColon .plainScalar since)
          else if (next == ':' && endsWord rest) || (inFlow && isFlowEnd next) then
            .ok ([], cursor)
          else do
            let (more, after) ← readPlainWord inFlow since fuel (cursor.skip 1)
            return (next :: more, after)

/-- Read the words of a plain scalar, `gap` being what stands before the next one. The flag says
that a line break has been read after the last word. -/
def readPlainText (inFlow : Bool) (indent : Int) (since : Mark) :
    Nat → (gap : List Char) → (broken : Bool) → Cursor → Except Fault (List Char × Bool × Cursor)
  | 0, _, broken, cursor => .ok ([], broken, cursor)
  | fuel + 1, gap, broken, cursor =>
      if cursor.isAtDocumentMark || cursor.isAt '#' then .ok ([], broken, cursor)
      else do
        let (word, after) ← readPlainWord inFlow since cursor.rest.length cursor
        let text := if word.isEmpty then [] else gap ++ word
        let broken := broken && word.isEmpty
        match after.rest with
        | [] => return (text, broken, after)
        | next :: _ =>
            if !isSpacing next then return (text, broken, after)
            else
              match Gap.read indent after.rest.length (.start false) after with
              | .error cursor => throw (cursor.fault .tabBeforeText .plainScalar since)
              | .ok (stretch, after) =>
                  if !inFlow && (after.mark.column : Int) < indent then
                    return (text, stretch.broken, after)
                  else
                    let (more, broken, after) ←
                      readPlainText inFlow indent since fuel stretch.folded stretch.broken after
                    return (text ++ more, broken, after)

/-- Read a plain scalar in a block with this indentation. The flag says that a line has ended after
it. -/
def readPlain (inFlow : Bool) (blockIndent : Int) (cursor : Cursor) :
    Except Fault (TokenKind × Bool × Cursor) := do
  let (text, broken, after) ←
    readPlainText inFlow (blockIndent + 1) cursor.mark (cursor.rest.length + 1) [] false cursor
  return (.scalar text true, broken, after)

end ConfigFill.Yaml.TokenKind
