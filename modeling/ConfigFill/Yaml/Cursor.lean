import ConfigFill.Yaml.Mark

/-!
# Reading positions in YAML texts

The classes of characters that YAML tells apart, and a cursor: the rest of a text with the mark of
its start.
-/

namespace ConfigFill.Yaml

/-- A character that ends a line. -/
def isBreak (character : Char) : Bool :=
  character == '\n' || character == '\r' || character == '\x85' ||
    character == '\u2028' || character == '\u2029'

/-- A space or a tab. -/
def isBlank (character : Char) : Bool :=
  character == ' ' || character == '\t'

/-- A blank or a line break. -/
def isSpacing (character : Char) : Bool :=
  isBlank character || isBreak character

/-- A character of a name: an ASCII letter, a digit, a dash or an underscore. -/
def isWordChar (character : Char) : Bool :=
  character.isAlphanum || character == '-' || character == '_'

/-- The text ends here, or a blank or a line break is next. -/
def endsWord : List Char → Bool
  | [] => true
  | next :: _ => isSpacing next

/-- The text ends here, or a line break is next. -/
def endsLine : List Char → Bool
  | [] => true
  | next :: _ => isBreak next

/-- The text begins with the mark that starts or ends a document. -/
def startsDocumentMark (mark : Char) : List Char → Bool
  | first :: second :: third :: rest =>
      first == mark && second == mark && third == mark && endsWord rest
  | _ => false

/-- The rest of a text and where it begins. -/
structure Cursor where
  rest : List Char
  mark : Mark

namespace Cursor

/-- The start of a text. -/
def ofText (text : List Char) : Cursor :=
  ⟨text, .start⟩

/-- The cursor this many characters further on its line. -/
def skip (cursor : Cursor) (count : Nat) : Cursor :=
  ⟨cursor.rest.drop count, cursor.mark.advance (cursor.rest.take count)⟩

/-- A skip of no characters stays where it is. -/
theorem skip_zero (cursor : Cursor) : cursor.skip 0 = cursor := by
  simp [skip, Mark.advance]

/-- Two skips on one line are one. -/
theorem skip_skip (cursor : Cursor) (first second : Nat) :
    (cursor.skip first).skip second = cursor.skip (first + second) := by
  simp only [skip, List.drop_drop, List.take_add, Mark.advance_append]

/-- Past the text at its front, a cursor has the rest before it. -/
theorem rest_skip {cursor : Cursor} {front rest : List Char} (h : cursor.rest = front ++ rest) :
    (cursor.skip front.length).rest = rest := by
  rw [skip, h, List.drop_left]

/-- Past one character, a cursor has the rest before it. -/
theorem rest_skip_one {cursor : Cursor} {next : Char} {rest : List Char}
    (h : cursor.rest = next :: rest) : (cursor.skip 1).rest = rest := by
  rw [skip, h, List.drop_one, List.tail_cons]

/-- Past some characters of its line, a cursor is that many columns further on. -/
theorem column_skip {cursor : Cursor} {front rest : List Char} (h : cursor.rest = front ++ rest) :
    (cursor.skip front.length).mark.column = cursor.mark.column + front.length := by
  rw [skip, h, List.take_left]
  rfl

/-- The characters up to the first that is not of a class, and the cursor there. -/
def takeWhile (cursor : Cursor) (inClass : Char → Bool) : List Char × Cursor :=
  let run := cursor.rest.takeWhile inClass
  (run, cursor.skip run.length)

/-- The cursor at the first character that is not of a class. -/
def skipWhile (cursor : Cursor) (inClass : Char → Bool) : Cursor :=
  (cursor.takeWhile inClass).2

/-- The next character is this one. -/
def isAt (cursor : Cursor) (character : Char) : Bool :=
  cursor.rest.head? == some character

/-- The line break at the cursor, as it counts in a text, and the cursor after it. The separators
of lines and paragraphs count as themselves and all other breaks as a line feed. -/
def takeBreak (cursor : Cursor) : List Char × Cursor :=
  match cursor.rest with
  | '\r' :: '\n' :: rest => (['\n'], ⟨rest, cursor.mark.nextLine ['\r', '\n']⟩)
  | first :: rest =>
      let after : Cursor := ⟨rest, cursor.mark.nextLine [first]⟩
      if first == '\u2028' || first == '\u2029' then ([first], after)
      else if isBreak first then (['\n'], after)
      else ([], cursor)
  | [] => ([], cursor)

/-- The cursor after the line break here, if there is one. -/
def skipBreak (cursor : Cursor) : Cursor :=
  cursor.takeBreak.2

/-- The cursor after blanks and a comment. -/
def skipComment (cursor : Cursor) : Cursor :=
  let cursor := cursor.skipWhile isBlank
  if cursor.isAt '#' then cursor.skipWhile (!isBreak ·) else cursor

/-- A line begins here, with a mark that starts or ends a document. -/
def isAtDocumentMark (cursor : Cursor) : Bool :=
  cursor.mark.column == 0 &&
    (startsDocumentMark '-' cursor.rest || startsDocumentMark '.' cursor.rest)

/-- Within a line there is no mark of a document. -/
theorem is_at_document_mark_of_pos {cursor : Cursor} (h : 0 < cursor.mark.column) :
    cursor.isAtDocumentMark = false := by
  simp [isAtDocumentMark, Nat.ne_of_gt h]

/-- A fault at the cursor, in something that began at another place. -/
def fault (cursor : Cursor) (problem : Problem) (context : Context) (since : Mark) : Fault :=
  .malformed problem cursor.mark (some (context, since))

end Cursor

/-- A blank-and-break stretch inside a scalar: the blanks, or once a line has ended, the first
break and those after it. -/
structure Gap where
  blanks : List Char
  /-- A line has ended. -/
  broken : Bool
  firstBreak : List Char
  moreBreaks : List Char

namespace Gap

/-- No stretch yet; with `broken`, one that begins after a line break that does not count. -/
def start (broken : Bool) : Gap :=
  ⟨[], broken, [], []⟩

/-- The text that a stretch stands for: blanks as they are, one line feed as a space, and of more
breaks all but the first line feed. -/
def folded (gap : Gap) : List Char :=
  if gap.broken then
    if gap.firstBreak = ['\n'] then
      if gap.moreBreaks.isEmpty then [' '] else gap.moreBreaks
    else gap.firstBreak ++ gap.moreBreaks
  else gap.blanks

/-- Read blanks and breaks. After a break, a tab before the given column is a fault. -/
def read (indent : Int) : Nat → Gap → Cursor → Except Cursor (Gap × Cursor)
  | 0, gap, cursor => .ok (gap, cursor)
  | fuel + 1, gap, cursor =>
      match cursor.rest with
      | [] => .ok (gap, cursor)
      | next :: _ =>
          if isBlank next then
            if gap.broken then
              if next = '\t' ∧ (cursor.mark.column : Int) < indent then .error cursor
              else read indent fuel gap (cursor.skip 1)
            else read indent fuel { gap with blanks := gap.blanks ++ [next] } (cursor.skip 1)
          else if isBreak next then
            let (text, after) := cursor.takeBreak
            if gap.broken then
              read indent fuel { gap with moreBreaks := gap.moreBreaks ++ text } after
            else read indent fuel { gap with broken := true, firstBreak := text } after
          else .ok (gap, cursor)

variable {indent : Int} {cursor : Cursor} {rest : List Char}

/-- A stretch ends at a character that is neither blank nor break. -/
theorem read_word (gap : Gap) (h : endsWord cursor.rest = false) (fuel : Nat) :
    read indent fuel gap cursor = .ok (gap, cursor) := by
  cases fuel with
  | zero => rfl
  | succ fuel =>
      rw [read]
      split
      · rfl
      · rename_i hrest
        rw [hrest, endsWord, isSpacing, Bool.or_eq_false_iff] at h
        simp [h.1, h.2]

/-- A space on the line of a word belongs to the stretch. -/
theorem read_space {gap : Gap} (hbroken : gap.broken = false) (h : cursor.rest = ' ' :: rest)
    (fuel : Nat) :
    read indent (fuel + 1) gap cursor =
      read indent fuel { gap with blanks := gap.blanks ++ [' '] } (cursor.skip 1) := by
  rw [read, h]
  simp [hbroken, isBlank]

/-- A space before the word on a new line is passed over. -/
theorem read_space_of_broken {gap : Gap} (hbroken : gap.broken = true) (h : cursor.rest = ' ' :: rest)
    (fuel : Nat) : read indent (fuel + 1) gap cursor = read indent fuel gap (cursor.skip 1) := by
  rw [read, h]
  simp [hbroken, isBlank]

/-- Spaces between two words on a line are the stretch between them. -/
theorem read_spaces {gap : Gap} (hbroken : gap.broken = false) {count fuel : Nat}
    (hfuel : count ≤ fuel) (hnext : endsWord rest = false)
    (h : cursor.rest = List.replicate count ' ' ++ rest) :
    read indent fuel gap cursor =
      .ok ({ gap with blanks := gap.blanks ++ List.replicate count ' ' }, cursor.skip count) := by
  induction count generalizing gap fuel cursor with
  | zero =>
      rw [List.replicate_zero, List.append_nil, Cursor.skip_zero]
      exact read_word gap (by rw [h]; exact hnext) fuel
  | succ count ih =>
      cases fuel with
      | zero => cases hfuel
      | succ fuel =>
          rw [List.replicate_succ, List.cons_append] at h
          have hothers := @ih (cursor.skip 1) { gap with blanks := gap.blanks ++ [' '] } hbroken fuel
            (Nat.le_of_succ_le_succ hfuel) (Cursor.rest_skip_one h)
          rw [read_space hbroken h, hothers, Cursor.skip_skip, Nat.add_comm 1, List.append_assoc,
            List.singleton_append, ← List.replicate_succ]

/-- Spaces before the word on a new line are passed over. -/
theorem read_spaces_of_broken {gap : Gap} (hbroken : gap.broken = true) {count fuel : Nat}
    (hfuel : count ≤ fuel) (hnext : endsWord rest = false)
    (h : cursor.rest = List.replicate count ' ' ++ rest) :
    read indent fuel gap cursor = .ok (gap, cursor.skip count) := by
  induction count generalizing fuel cursor with
  | zero =>
      rw [Cursor.skip_zero]
      exact read_word gap (by rw [h]; exact hnext) fuel
  | succ count ih =>
      cases fuel with
      | zero => cases hfuel
      | succ fuel =>
          rw [List.replicate_succ, List.cons_append] at h
          rw [read_space_of_broken hbroken h, ih (Nat.le_of_succ_le_succ hfuel)
            (Cursor.rest_skip_one h), Cursor.skip_skip, Nat.add_comm 1]

end Gap

end ConfigFill.Yaml
