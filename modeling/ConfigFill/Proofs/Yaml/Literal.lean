import ConfigFill.Text.Segments
import ConfigFill.Yaml.Style
import ConfigFill.Yaml.Token.Block

/-!
# Literal blocks in YAML, written and read

A text that the printer writes as a literal block at the end of a document is read back from it
(`read_block_literal`). The reader takes the block line by line, each with the breaks that end it
and the indentation of the next line, so the induction over its lines is one over the text
(`read_lines_indented`). What becomes of the breaks at the end is up to the header, which is why
what is read is split there (`LiteralEnding`).
-/

namespace ConfigFill.Yaml.TokenKind

variable {since : Mark} {cursor : Cursor} {rest : List Char}

/-! ## Headers -/

/-- How a header writes what becomes of the breaks at the end. -/
def Chomping.mark : Chomping → List Char
  | strip => ['-']
  | clip => []
  | keep => ['+']

/-- A header is read as what the printer writes it for, with or without the indentation. -/
theorem read_header (hint : Bool) (chomping : Chomping)
    (h : cursor.rest = (if hint then ['2'] else []) ++ chomping.mark ++ '\n' :: rest) :
    ∃ after, readHeader since cursor = .ok (⟨chomping, if hint then some 2 else none⟩, after) ∧
      after.rest = rest ∧ after.mark.column = 0 := by
  obtain ⟨text, mark⟩ := cursor
  cases h
  cases hint <;> cases chomping <;> exact ⟨_, rfl, rfl, rfl⟩

/-! ## Indentation -/

/-- An empty line before text is read as the break that it is. -/
theorem read_indentation_break {next : Char} {indent : Nat} (hvisible : isVisible next = true)
    (hbreak : isBreak next = true) (hcolumn : cursor.mark.column = 0)
    (hcursor : cursor.rest = next :: rest) (fuel widest : Nat) :
    readIndentation since (some indent) (fuel + 1) widest cursor =
      readIndentation since (some indent) fuel widest ⟨rest, cursor.mark.nextLine [next]⟩ >>=
        fun read ↦ .ok (next :: read.1, read.2) := by
  have hspace : next ≠ ' ' := by
    intro heq
    rw [heq] at hbreak
    exact absurd hbreak (by decide)
  have htab : next ≠ '\t' := ne_of_is_visible hvisible (by decide)
  have hspaces : (cursor.rest.takeWhile (· == ' ')).length = 0 := by
    simp [hcursor, hspace]
  have hat : cursor.isAt '\t' = false := by
    simp [Cursor.isAt, hcursor, htab]
  have htake := take_break_of_is_visible hvisible hbreak hcursor
  rw [readIndentation]
  simp only [hspaces, Nat.zero_min, Cursor.skip_zero, hcolumn, Nat.max_zero, hat, Bool.and_false,
    Bool.false_eq_true, if_false, htake]
  rw [hcursor]
  simp only [hbreak, if_true]
  rfl

/-- Empty lines before text are read as the breaks that they are. -/
theorem read_indentation_breaks {breaks : List Char} {indent : Nat}
    (hvisible : ∀ character ∈ breaks, isVisible character = true)
    (hbreaks : ∀ character ∈ breaks, isBreak character = true)
    (hcolumn : cursor.mark.column = 0) (hcursor : cursor.rest = breaks ++ rest) (fuel widest : Nat) :
    ∃ after, readIndentation since (some indent) (breaks.length + fuel) widest cursor =
        (readIndentation since (some indent) fuel widest after >>= fun read ↦
          .ok (breaks ++ read.1, read.2)) ∧
      after.rest = rest ∧ after.mark.column = 0 := by
  induction breaks generalizing cursor with
  | nil =>
      refine ⟨cursor, ?_, hcursor, hcolumn⟩
      rw [List.length_nil, Nat.zero_add]
      cases readIndentation since (some indent) fuel widest cursor <;> rfl
  | cons next others ih =>
      obtain ⟨after, hread, hafter, hafterColumn⟩ :=
        @ih ⟨others ++ rest, cursor.mark.nextLine [next]⟩
          (fun other hmem ↦ hvisible other (List.mem_cons_of_mem next hmem))
          (fun other hmem ↦ hbreaks other (List.mem_cons_of_mem next hmem)) rfl rfl
      refine ⟨after, ?_, hafter, hafterColumn⟩
      have hcons : cursor.rest = next :: (others ++ rest) := hcursor
      rw [List.length_cons, Nat.add_right_comm,
        read_indentation_break (hvisible next List.mem_cons_self) (hbreaks next List.mem_cons_self)
          hcolumn hcons, hread]
      cases readIndentation since (some indent) fuel widest after <;> rfl

/-- At the end of the text there is no indentation. -/
theorem read_indentation_end {indent : Option Nat} (hcursor : cursor.rest = []) (fuel widest : Nat) :
    ∃ widest' after, readIndentation since indent fuel widest cursor = .ok ([], widest', after) ∧
      after.rest = [] := by
  cases fuel with
  | zero => exact ⟨widest, cursor, rfl, hcursor⟩
  | succ fuel =>
      obtain ⟨text, mark⟩ := cursor
      cases hcursor
      cases indent with
      | none => exact ⟨_, _, rfl, rfl⟩
      | some indent =>
          refine ⟨max widest mark.column, ⟨[], mark⟩, ?_, rfl⟩
          simp [readIndentation, Cursor.skip_zero, Cursor.isAt]

/-- The indentation of a line is passed over, but no space of the line itself. -/
theorem read_indentation_line {indent : Nat} {first : Char} (hfirst : isBreak first = false)
    (hcolumn : cursor.mark.column = 0)
    (hcursor : cursor.rest = List.replicate indent ' ' ++ first :: rest) (fuel widest : Nat) :
    ∃ widest', readIndentation since (some indent) (fuel + 1) widest cursor =
      .ok ([], widest', cursor.skip indent) := by
  have hspaces : min (cursor.rest.takeWhile (· == ' ')).length (indent - 0) = indent := by
    rw [hcursor, List.takeWhile_append_of_pos (by simp), List.length_append, List.length_replicate]
    omega
  have hskip := Cursor.column_skip hcursor
  have hrest := Cursor.rest_skip hcursor
  rw [List.length_replicate] at hskip hrest
  have hshort : ¬ (cursor.skip indent).mark.column < indent := by omega
  refine ⟨max widest (cursor.skip indent).mark.column, ?_⟩
  rw [readIndentation]
  simp only [hcolumn, hspaces, hshort, hrest, hfirst, decide_false, Bool.false_and,
    Bool.false_eq_true, if_false]

/-- Where the indentation is not given, it is that of the first line. -/
theorem read_indentation_unknown {indent : Nat} {first : Char} (hfirst : isBreak first = false)
    (hspace : first ≠ ' ') (htab : first ≠ '\t') (hcolumn : cursor.mark.column = 0)
    (hcursor : cursor.rest = List.replicate indent ' ' ++ first :: rest) (fuel : Nat) :
    readIndentation since none (fuel + 1) 0 cursor = .ok ([], indent, cursor.skip indent) := by
  have hspaces : (cursor.rest.takeWhile (· == ' ')).length = indent := by
    rw [hcursor, List.takeWhile_append_of_pos (by simp)]
    simp [hspace]
  have hskip := Cursor.column_skip hcursor
  have hrest := Cursor.rest_skip hcursor
  rw [List.length_replicate] at hskip hrest
  have hat : (cursor.skip indent).isAt '\t' = false := by
    simp [Cursor.isAt, hrest, htab]
  rw [readIndentation]
  simp only [hspaces, hat, hskip, hrest, hcolumn, hfirst, Bool.and_false, Bool.false_eq_true,
    if_false, Nat.zero_add, Nat.zero_max]

section Breaks

variable {breaks : List Char} {indent : Nat}
  (hvisible : ∀ character ∈ breaks, isVisible character = true)
  (hbreaks : ∀ character ∈ breaks, isBreak character = true)
  (hcolumn : cursor.mark.column = 0)
include hvisible hbreaks hcolumn

/-- Empty lines up to the end of the text are read as breaks. -/
theorem read_indentation_breaks_end (hcursor : cursor.rest = breaks) (widest : Nat) :
    ∃ widest' after,
      readIndentation since (some indent) (cursor.rest.length + 1) widest cursor =
        .ok (breaks, widest', after) ∧ after.rest = [] := by
  have hempty : cursor.rest = breaks ++ [] := by rw [hcursor, List.append_nil]
  obtain ⟨middle, hread, hmiddle, _⟩ :=
    @read_indentation_breaks since _ _ _ indent hvisible hbreaks hcolumn hempty 1 widest
  obtain ⟨widest', after, hend, hafter⟩ :=
    @read_indentation_end since _ (some indent) hmiddle 1 widest
  refine ⟨widest', after, ?_, hafter⟩
  rw [hcursor, hread, hend]
  simp [bind, Except.bind]

/-- Empty lines before a line are read as breaks, and the indentation of the line is passed over. -/
theorem read_indentation_breaks_line {first : Char} (hfirst : isBreak first = false)
    (hcursor : cursor.rest = breaks ++ (List.replicate indent ' ' ++ first :: rest)) (widest : Nat) :
    ∃ widest' after,
      readIndentation since (some indent) (cursor.rest.length + 1) widest cursor =
        .ok (breaks, widest', after) ∧
      after.rest = first :: rest ∧ after.mark.column = indent := by
  obtain ⟨more, hmore⟩ : ∃ more, cursor.rest.length + 1 = breaks.length + (more + 1) :=
    ⟨indent + rest.length + 1, by simp [hcursor]; omega⟩
  obtain ⟨middle, hread, hmiddle, hmiddleColumn⟩ :=
    @read_indentation_breaks since _ _ _ indent hvisible hbreaks hcolumn hcursor (more + 1) widest
  obtain ⟨widest', hline⟩ :=
    @read_indentation_line since _ _ indent _ hfirst hmiddleColumn hmiddle more widest
  have hskip := Cursor.column_skip hmiddle
  have hrest := Cursor.rest_skip hmiddle
  rw [List.length_replicate] at hskip hrest
  refine ⟨widest', middle.skip indent, ?_, hrest, by omega⟩
  rw [hmore, hread, hline]
  simp [bind, Except.bind]

end Breaks

/-! ## Lines -/

/-- How a text that is read as a literal block is split at its end: what comes before the breaks at
the end, and the last line's break and those after it, or no matter what if there is no break at the
end. -/
inductive LiteralEnding : (text body last trailing : List Char) → Prop
  | word {text last trailing : List Char} {final : Char} (hfinal : text.getLast? = some final)
      (hword : isBreak final = false) : LiteralEnding text text last trailing
  | breaks {body trailing : List Char} {final first : Char} (hfinal : body.getLast? = some final)
      (hword : isBreak final = false) (hfirst : isBreak first = true)
      (htrailing : ∀ character ∈ trailing, isBreak character = true) :
      LiteralEnding (body ++ first :: trailing) body [first] trailing

/-- What stands before a text does not matter for its end. -/
theorem LiteralEnding.append {text body last trailing : List Char}
    (h : LiteralEnding text body last trailing) (front : List Char) :
    LiteralEnding (front ++ text) (front ++ body) last trailing := by
  cases h with
  | word hfinal hword => exact .word (by simp [List.getLast?_append, hfinal]) hword
  | breaks hfinal hword hfirst htrailing =>
      rw [← List.append_assoc]
      exact .breaks (by simp [List.getLast?_append, hfinal]) hword hfirst htrailing

/-- What stands at the end of a document after a literal block: a line feed, unless the text of the
block brings a break along. -/
def lineEnding (text : List Char) : List Char :=
  if (text.getLast?.map isBreak).getD false then [] else ['\n']

/-- What stands at the end of a document is up to the end of the text. -/
theorem line_ending_append (front : List Char) {text : List Char} (h : text ≠ []) :
    lineEnding (front ++ text) = lineEnding text := by
  unfold lineEnding
  rw [List.getLast?_append, List.getLast?_eq_some_getLast h]
  rfl

/-- What is written for the lines of a text after the indentation of the first, to the end of the
document. -/
def literalLines (indent : Nat) (text : List Char) : List Char :=
  indented (List.replicate indent ' ') false text ++ lineEnding text

/-- The lines of a text that does not begin with a break begin with the text. -/
theorem exists_literal_lines_cons (indent : Nat) {first : Char} (h : isBreak first = false)
    (others : List Char) : ∃ tail, literalLines indent (first :: others) = first :: tail := by
  simp [literalLines, indented, h]

/-- How the lines of a text begin: the last line without a break, the last line with breaks, or a line
before another one. -/
theorem literal_lines_cases (indent : Nat) {text : List Char} (hne : text ≠ [])
    (hhead : ∀ first, text.head? = some first → isBreak first = false) :
    ∃ word final, word.getLast? = some final ∧ (∀ character ∈ word, isBreak character = false) ∧
      (text = word ∧ literalLines indent text = word ++ ['\n'] ∨
      ∃ next others, (∀ character ∈ next :: others, isBreak character = true) ∧
        (text = word ++ next :: others ∧ literalLines indent text = word ++ next :: others ∨
        ∃ first more, isBreak first = false ∧ text = word ++ next :: others ++ first :: more ∧
          literalLines indent text = word ++ next ::
            (others ++ (List.replicate indent ' ' ++ literalLines indent (first :: more))))) := by
  obtain ⟨word, run, more, htext, hword, hrun, hmore, hend⟩ := Text.exists_run isBreak text
  have hwordNe : word ≠ [] := by
    intro hempty
    rw [hempty, List.nil_append] at htext
    cases run with
    | nil => exact hne (by rw [htext, hend rfl]; rfl)
    | cons first others =>
        have hfirst := hhead first (by rw [htext]; rfl)
        rw [hrun first List.mem_cons_self] at hfirst
        cases hfirst
  obtain ⟨final, hfinal⟩ : ∃ final, word.getLast? = some final :=
    ⟨_, List.getLast?_eq_some_getLast hwordNe⟩
  refine ⟨word, final, hfinal, hword, ?_⟩
  have hlines : literalLines indent text = word ++
      (indented (List.replicate indent ' ') false (run ++ more) ++ lineEnding text) := by
    rw [literalLines, htext, List.append_assoc, indented_append hword, List.append_assoc]
  cases run with
  | nil =>
      rw [hend rfl, List.append_nil, List.append_nil] at htext
      have hending : lineEnding text = ['\n'] := by
        simp [lineEnding, htext, hfinal, hword final (List.mem_of_getLast? hfinal)]
      refine .inl ⟨htext, ?_⟩
      rw [hlines, hend rfl, hending]
      rfl
  | cons next others =>
      rw [indented_breaks hrun (List.cons_ne_nil _ _)] at hlines
      refine .inr ⟨next, others, hrun, ?_⟩
      cases more with
      | nil =>
          rw [List.append_nil] at htext
          have hending : lineEnding text = [] := by
            have hlast := hrun _ (List.getLast_mem (List.cons_ne_nil next others))
            rw [htext, line_ending_append word (List.cons_ne_nil next others), lineEnding,
              List.getLast?_eq_some_getLast (List.cons_ne_nil next others)]
            simp [hlast]
          refine .inl ⟨htext, ?_⟩
          rw [hlines, hending]
          simp [indented]
      | cons first more =>
          have hfirst := hmore first rfl
          refine .inr ⟨first, more, hfirst, htext, ?_⟩
          rw [hlines, htext, line_ending_append _ (List.cons_ne_nil first more), indented_cons hfirst,
            literalLines]
          simp

/-- A line is taken up to the break at its end. -/
theorem take_while_line {line : List Char} {next : Char}
    (hline : ∀ character ∈ line, isBreak character = false) (hnext : isBreak next = true)
    (hcursor : cursor.rest = line ++ next :: rest) :
    cursor.takeWhile (!isBreak ·) = (line, cursor.skip line.length) := by
  have htake : cursor.rest.takeWhile (!isBreak ·) = line := by
    rw [hcursor, List.takeWhile_append_of_pos (by simpa using hline)]
    simp [hnext]
  simp [Cursor.takeWhile, htake]

/-- At the end of the text there are no more lines. -/
theorem read_lines_end {indent : Nat} {line breaks : List Char} {indented : Bool}
    (hcursor : cursor.rest = []) (fuel : Nat) :
    readLines true since indent fuel line breaks indented cursor =
      .ok ([], line, breaks, cursor) := by
  cases fuel with
  | zero => rfl
  | succ fuel => rw [readLines, hcursor]

/-- A line is read with the break that ends it and the empty lines after it. -/
theorem read_lines_line {indent widest : Nat} {word empty line breaks : List Char} {next : Char}
    {indented : Bool} {after : Cursor} (hcolumn : cursor.mark.column = indent)
    (hword : ∀ character ∈ word, isBreak character = false) (hvisible : isVisible next = true)
    (hbreak : isBreak next = true) (hcursor : cursor.rest = word ++ next :: rest)
    (hempty : readIndentation since (some indent) (rest.length + 1) 0
      ⟨rest, (cursor.skip word.length).mark.nextLine [next]⟩ = .ok (empty, widest, after))
    (fuel : Nat) :
    ∃ blank, readLines true since indent (fuel + 1) line breaks indented cursor =
      readLines true since indent fuel [next] empty blank after >>= fun read ↦
        .ok (line ++ breaks ++ word ++ read.1, read.2) := by
  have htaken := take_while_line hword hbreak hcursor
  have htake := take_break_of_is_visible hvisible hbreak (Cursor.rest_skip hcursor)
  obtain ⟨first, others, hcons⟩ : ∃ first others, word ++ next :: rest = first :: others :=
    List.exists_cons_of_ne_nil (by simp)
  refine ⟨isBlank first, ?_⟩
  rw [readLines, hcursor, hcons]
  simp [hcolumn, htaken, htake, hempty, bind, Except.bind, pure, Except.pure]

/-- The last line of a block is read with the breaks up to the end of the text. -/
theorem read_lines_last {indent : Nat} {word others line breaks : List Char} {next : Char}
    {indented : Bool} (hcolumn : cursor.mark.column = indent)
    (hword : ∀ character ∈ word, isBreak character = false)
    (hvisible : ∀ character ∈ next :: others, isVisible character = true)
    (hbreaks : ∀ character ∈ next :: others, isBreak character = true)
    (hcursor : cursor.rest = word ++ next :: others) (fuel : Nat) :
    ∃ after, readLines true since indent (fuel + 1) line breaks indented cursor =
      .ok (line ++ breaks ++ word, [next], others, after) ∧ after.rest = [] := by
  obtain ⟨widest, after, hempty, hafter⟩ :=
    @read_indentation_breaks_end since ⟨others, (cursor.skip word.length).mark.nextLine [next]⟩ _
      indent (fun other hmem ↦ hvisible other (List.mem_cons_of_mem next hmem))
      (fun other hmem ↦ hbreaks other (List.mem_cons_of_mem next hmem)) rfl rfl 0
  obtain ⟨blank, hread⟩ := read_lines_line hcolumn hword (hvisible next List.mem_cons_self)
    (hbreaks next List.mem_cons_self) hcursor hempty fuel
  refine ⟨after, ?_, hafter⟩
  rw [hread, read_lines_end hafter]
  simp [bind, Except.bind]

/-- The lines of a literal block are read as the text that they were written for, after the breaks
before them. -/
theorem read_lines_indented {indent fuel : Nat} {text line breaks : List Char} {indented : Bool}
    (hvisible : ∀ character ∈ text, isVisible character = true) (hne : text ≠ [])
    (hhead : ∀ first, text.head? = some first → isBreak first = false) (hfuel : text.length < fuel)
    (hcolumn : cursor.mark.column = indent) (hcursor : cursor.rest = literalLines indent text) :
    ∃ body last trailing after,
      readLines true since indent fuel line breaks indented cursor =
        .ok (line ++ breaks ++ body, last, trailing, after) ∧
      after.rest = [] ∧ LiteralEnding text body last trailing := by
  induction fuel generalizing cursor text line breaks indented with
  | zero => cases hfuel
  | succ fuel ih =>
      obtain ⟨word, final, hfinal, hword, ⟨htext, hlines⟩ | ⟨next, others, hbreaks, hlines⟩⟩ :=
        literal_lines_cases indent hne hhead
      · obtain ⟨after, hread, hafter⟩ := read_lines_last hcolumn hword
          (List.forall_mem_singleton.2 rfl) (List.forall_mem_singleton.2 rfl)
          (hcursor.trans hlines) fuel
        refine ⟨word, _, _, after, hread, hafter, ?_⟩
        rw [htext]
        exact .word hfinal (hword final (List.mem_of_getLast? hfinal))
      · obtain ⟨htext, hlines⟩ | ⟨first, more, hfirst, htext, hlines⟩ := hlines
        · have hbreaksVisible : ∀ character ∈ next :: others, isVisible character = true :=
            fun character hmem ↦ hvisible character (htext ▸ List.mem_append_right word hmem)
          obtain ⟨after, hread, hafter⟩ :=
            read_lines_last hcolumn hword hbreaksVisible hbreaks (hcursor.trans hlines) fuel
          refine ⟨word, _, _, after, hread, hafter, ?_⟩
          rw [htext]
          exact .breaks hfinal (hword final (List.mem_of_getLast? hfinal))
            (hbreaks next List.mem_cons_self)
            fun other hmem ↦ hbreaks other (List.mem_cons_of_mem next hmem)
        · obtain ⟨tail, htail⟩ := exists_literal_lines_cons indent hfirst more
          have hothers : ∀ other ∈ next :: others, isVisible other = true :=
            fun other hmem ↦
              hvisible other (htext ▸ List.mem_append_left _ (List.mem_append_right word hmem))
          rw [hlines, htail] at hcursor
          obtain ⟨widest, after, hempty, hafter, hafterColumn⟩ :=
            @read_indentation_breaks_line since
              ⟨others ++ (List.replicate indent ' ' ++ first :: tail),
                (cursor.skip word.length).mark.nextLine [next]⟩ tail others indent
              (fun other hmem ↦ hothers other (List.mem_cons_of_mem next hmem))
              (fun other hmem ↦ hbreaks other (List.mem_cons_of_mem next hmem)) rfl first hfirst rfl 0
          obtain ⟨blank, hread⟩ := read_lines_line hcolumn hword (hothers next List.mem_cons_self)
            (hbreaks next List.mem_cons_self) hcursor hempty fuel
          have hshorter : (first :: more).length < fuel := by
            rw [htext, List.length_append, List.length_append, List.length_cons] at hfuel
            omega
          obtain ⟨body, last, trailing, final, hmore, hfinal, hending⟩ :=
            @ih _ (first :: more) [next] others blank
              (fun other hmem ↦ hvisible other (htext ▸ List.mem_append_right _ hmem))
              (List.cons_ne_nil first more) (by simpa using hfirst) hshorter hafterColumn
              (hafter.trans htail.symm)
          refine ⟨word ++ next :: others ++ body, last, trailing, final, ?_, hfinal,
            htext ▸ hending.append (word ++ next :: others)⟩
          rw [hread, hmore]
          simp [bind, Except.bind]

/-! ## Blocks -/

/-- What the header says of the breaks at the end is one of three things. -/
theorem exists_chomping_mark (text : List Char) :
    ∃ chomping : Chomping, (chompingMark text).toList = chomping.mark := by
  unfold chompingMark
  repeat' split
  · exact ⟨.strip, rfl⟩
  · exact ⟨.keep, rfl⟩
  · exact ⟨.clip, rfl⟩
  · exact ⟨.strip, rfl⟩

/-- Headers are written differently for different things that become of the breaks. -/
theorem Chomping.mark_injective {first second : Chomping} (h : first.mark = second.mark) :
    first = second := by
  cases first <;> cases second <;> first | rfl | cases h

/-- A text that ends in two breaks is written with all of them kept. -/
theorem chomping_mark_append {front breaks : List Char} {first : Char}
    (h : ∀ character ∈ first :: breaks, isBreak character = true) (hne : breaks ≠ []) :
    chompingMark (front ++ first :: breaks) = "+" := by
  have hmem : ∀ character ∈ breaks.reverse ++ [first], isBreak character = true := by
    intro character hmem
    refine h character ?_
    simpa [or_comm] using hmem
  cases hreverse : breaks.reverse with
  | nil => exact absurd (List.reverse_eq_nil_iff.1 hreverse) hne
  | cons last before =>
      rw [hreverse] at hmem
      have hlast := hmem last List.mem_cons_self
      cases before with
      | nil => simp [chompingMark, hreverse, hlast, h first List.mem_cons_self]
      | cons second others => simp [chompingMark, hreverse, hlast, hmem second (by simp)]

/-- The header of a block says what becomes of the breaks at its end. -/
theorem LiteralEnding.exists_chomping {text body last trailing : List Char}
    (h : LiteralEnding text body last trailing) :
    ∃ chomping : Chomping, (chompingMark text).toList = chomping.mark ∧
      body ++ chomping.ending last trailing = text := by
  cases h with
  | word hfinal hword =>
      obtain ⟨front, rfl⟩ := List.getLast?_eq_some_iff.1 hfinal
      refine ⟨.strip, ?_, List.append_nil _⟩
      simp [chompingMark, hword, Chomping.mark]
  | breaks hfinal hword hfirst htrailing =>
      by_cases hne : trailing = []
      · obtain ⟨front, rfl⟩ := List.getLast?_eq_some_iff.1 hfinal
        refine ⟨.clip, ?_, by simp [Chomping.ending, hne]⟩
        simp [chompingMark, hne, hfirst, hword, Chomping.mark]
      · refine ⟨.keep, ?_, by simp [Chomping.ending]⟩
        rw [chomping_mark_append (List.forall_mem_cons.2 ⟨hfirst, htrailing⟩) hne]
        rfl

/-- A text of breaks only is written with all of them kept. -/
theorem chomping_mark_of_breaks {breaks : List Char} (hne : breaks ≠ [])
    (h : ∀ character ∈ breaks, isBreak character = true) : chompingMark breaks = "+" := by
  obtain ⟨first, others, rfl⟩ := List.exists_cons_of_ne_nil hne
  cases others with
  | nil => simp [chompingMark, h first List.mem_cons_self]
  | cons second others => exact @chomping_mark_append [] _ _ h (List.cons_ne_nil second others)

/-- What is written for a text as a literal block: the header, and the lines of the text. -/
theorem to_list_literal (indent : Nat) (text : List Char) :
    (literal indent text).toList =
      '|' :: ((if needsHint text then ['2'] else []) ++ (chompingMark text).toList ++
        '\n' :: indented (List.replicate indent ' ') true text) := by
  cases hhint : needsHint text <;> simp [literal, hhint]

/-- A block is read by its header, the indentation of its first line and its lines. -/
theorem read_block_eq {blockIndent : Int} {header : BlockHeader} {indent widest : Nat}
    {breaks text last trailing : List Char} {start first after : Cursor}
    (hheader : readHeader cursor.mark (cursor.skip 1) = .ok (header, start))
    (hindentation : readIndentation cursor.mark
      (header.increment.map ((max blockIndent 0).toNat + ·)) (start.rest.length + 1) 0 start =
        .ok (breaks, widest, first))
    (hindent : (header.increment.map ((max blockIndent 0).toNat + ·)).getD
      (max (max widest (blockIndent + 1).toNat) 1) = indent)
    (hlines : readLines true cursor.mark indent (first.rest.length + 1) [] breaks false first =
      .ok (text, last, trailing, after)) :
    readBlock true blockIndent cursor =
      .ok (.scalar (text ++ header.chomping.ending last trailing) false, after) := by
  subst hindent
  rw [readBlock, hheader]
  simp only [hindentation, hlines, bind, Except.bind, pure, Except.pure]

/-- A text is written with no fewer characters than it has. -/
theorem length_le_literal_lines (indent : Nat) (text : List Char) :
    text.length ≤ (literalLines indent text).length := by
  have hindented : ∀ padding broken, text.length ≤ (indented padding broken text).length := by
    intro padding broken
    induction text generalizing broken with
    | nil => exact Nat.zero_le _
    | cons next others ih =>
        have hbroken := ih true
        have hword := ih false
        unfold indented
        split
        · simpa using hbroken
        · split <;> simp only [List.length_append, List.length_cons] <;> omega
  rw [literalLines, List.length_append]
  exact Nat.le_add_right_of_le (hindented _ _)

/-- A text is written as the breaks at its front, and unless the text ends there, the indentation of
its first line and its lines. -/
theorem indented_line_ending_cases (indent : Nat) {text : List Char} (hne : text ≠ []) :
    ∃ breaks lines, text = breaks ++ lines ∧ (∀ character ∈ breaks, isBreak character = true) ∧
      (lines = [] ∧ indented (List.replicate indent ' ') true text ++ lineEnding text = breaks ∨
      ∃ first others, lines = first :: others ∧ isBreak first = false ∧
        indented (List.replicate indent ' ') true text ++ lineEnding text =
          breaks ++ (List.replicate indent ' ' ++ literalLines indent lines)) := by
  obtain ⟨breaks, run, more, htext, hbreaks, hrun, _, hend⟩ := Text.exists_run (!isBreak ·) text
  have hbreaks : ∀ character ∈ breaks, isBreak character = true :=
    fun character hmem ↦ by simpa using hbreaks character hmem
  refine ⟨breaks, run ++ more, by rw [htext, List.append_assoc], hbreaks, ?_⟩
  cases run with
  | nil =>
      rw [hend rfl, List.append_nil, List.append_nil] at htext
      subst htext
      have hlast := hbreaks _ (List.getLast_mem hne)
      refine .inl ⟨by rw [hend rfl]; rfl, ?_⟩
      have hlines := indented_breaks hbreaks hne (List.replicate indent ' ') true []
      rw [List.append_nil, indented, List.append_nil] at hlines
      rw [hlines, lineEnding, List.getLast?_eq_some_getLast hne]
      simp [hlast]
  | cons first others =>
      have hfirst : isBreak first = false := by simpa using hrun first List.mem_cons_self
      refine .inr ⟨first, others ++ more, rfl, hfirst, ?_⟩
      have hlines : indented (List.replicate indent ' ') true (breaks ++ first :: (others ++ more)) =
          breaks ++ (List.replicate indent ' ' ++
            indented (List.replicate indent ' ') false (first :: (others ++ more))) := by
        cases breaks with
        | nil => exact indented_cons hfirst _ _
        | cons next breaks =>
            rw [indented_breaks hbreaks (List.cons_ne_nil next breaks), indented_cons hfirst]
      rw [htext, List.append_assoc, List.cons_append, hlines, literalLines,
        line_ending_append breaks (List.cons_ne_nil first _), List.append_assoc, List.append_assoc]

/-- The indentation of the first line is found, whether the header gives it or not. -/
theorem read_first_indentation {text breaks others : List Char} {first : Char} {base : Nat}
    (hvisible : ∀ character ∈ text, isVisible character = true)
    (htext : text = breaks ++ first :: others)
    (hbreaks : ∀ character ∈ breaks, isBreak character = true) (hfirst : isBreak first = false)
    (hcolumn : cursor.mark.column = 0)
    (hcursor : cursor.rest =
      breaks ++ (List.replicate (base + 2) ' ' ++ literalLines (base + 2) (first :: others))) :
    ∃ widest after,
      readIndentation since ((if needsHint text then some 2 else none).map (base + ·))
        (cursor.rest.length + 1) 0 cursor = .ok (breaks, widest, after) ∧
      (∀ least ≤ base + 1, ((if needsHint text then some 2 else none).map (base + ·)).getD
        (max (max widest least) 1) = base + 2) ∧
      after.rest = literalLines (base + 2) (first :: others) ∧ after.mark.column = base + 2 := by
  obtain ⟨tail, htail⟩ := exists_literal_lines_cons (base + 2) hfirst others
  rw [htail] at hcursor ⊢
  cases hhint : needsHint text with
  | true =>
      have hbreaksVisible : ∀ character ∈ breaks, isVisible character = true :=
        fun character hmem ↦ hvisible character (htext ▸ List.mem_append_left _ hmem)
      obtain ⟨widest, after, hread, hafter, hafterColumn⟩ :=
        @read_indentation_breaks_line since _ _ _ _ hbreaksVisible hbreaks hcolumn _ hfirst hcursor 0
      exact ⟨widest, after, hread, fun _ _ ↦ rfl, hafter, hafterColumn⟩
  | false =>
      cases breaks with
      | cons next breaks =>
          simp [htext, needsHint, hbreaks next List.mem_cons_self] at hhint
      | nil =>
          have hspace : first ≠ ' ' := by
            intro hspace
            simp [htext, needsHint, hspace] at hhint
          have htab : first ≠ '\t' := ne_of_is_visible (hvisible first (by simp [htext])) (by decide)
          rw [List.nil_append] at hcursor
          have hskip := Cursor.column_skip hcursor
          have hrest := Cursor.rest_skip hcursor
          rw [List.length_replicate] at hskip hrest
          refine ⟨base + 2, cursor.skip (base + 2),
            read_indentation_unknown hfirst hspace htab hcolumn hcursor _, fun least hleast ↦ ?_,
            hrest, by omega⟩
          show max (max (base + 2) least) 1 = base + 2
          omega

/-- A literal block that the printer writes has only visible characters. -/
theorem visible_of_allows_literal {text : List Char} (h : Style.allowsLiteral text = true) :
    ∀ character ∈ text, isVisible character = true := by
  simp only [Style.allowsLiteral, Bool.and_eq_true, Bool.not_eq_true'] at h
  exact (Style.of_needs_escapes_eq_false h.2).2

/-- A text that the printer writes as a literal block is read back from the end of a document. -/
theorem read_block_literal {text : List Char} (h : Style.allowsLiteral text = true)
    (hne : text ≠ []) (blockIndent : Int)
    (hcursor : cursor.rest =
      (literal ((max blockIndent 0).toNat + 2) text).toList ++ lineEnding text) :
    ∃ after, readBlock true blockIndent cursor = .ok (.scalar text false, after) ∧
      after.rest = [] := by
  have hvisible := visible_of_allows_literal h
  obtain ⟨chomping, hchomping⟩ := exists_chomping_mark text
  rw [to_list_literal, hchomping, List.cons_append, List.append_assoc, List.cons_append] at hcursor
  obtain ⟨start, hheader, hstart, hstartColumn⟩ : ∃ start,
      readHeader cursor.mark (cursor.skip 1) = _ ∧ _ :=
    read_header (needsHint text) chomping (Cursor.rest_skip_one hcursor)
  obtain ⟨breaks, lines, htext, hbreaks, hwritten⟩ :=
    indented_line_ending_cases ((max blockIndent 0).toNat + 2) hne
  obtain ⟨hlines, hwritten⟩ | ⟨first, others, hlines, hfirst, hwritten⟩ := hwritten
  · rw [hlines, List.append_nil] at htext
    rw [hwritten] at hstart
    subst htext
    have hhint : needsHint text = true := by
      obtain ⟨first, others, rfl⟩ := List.exists_cons_of_ne_nil hne
      simp [needsHint, hbreaks first List.mem_cons_self]
    have hkeep : chomping = .keep := by
      refine Chomping.mark_injective (hchomping.symm.trans ?_)
      rw [chomping_mark_of_breaks hne hbreaks]
      rfl
    rw [hhint, hkeep] at hheader
    obtain ⟨widest, front, hindentation, hfront⟩ := @read_indentation_breaks_end cursor.mark start _
      ((max blockIndent 0).toNat + 2) hvisible hbreaks hstartColumn hstart 0
    exact ⟨front, read_block_eq hheader hindentation rfl (read_lines_end hfront _), hfront⟩
  · rw [hwritten, hlines] at hstart
    rw [hlines] at htext
    obtain ⟨widest, front, hindentation, hindent, hfront, hfrontColumn⟩ :=
      @read_first_indentation cursor.mark _ _ _ _ _ _ hvisible htext hbreaks hfirst hstartColumn
        hstart
    have hfuel : (first :: others).length < front.rest.length + 1 := by
      have hlength := length_le_literal_lines ((max blockIndent 0).toNat + 2) (first :: others)
      rw [hfront]
      omega
    obtain ⟨body, last, trailing, after, hread, hafter, hending⟩ :=
      @read_lines_indented cursor.mark _ _ (front.rest.length + 1) (first :: others) [] breaks false
      (fun character hmem ↦ hvisible character (htext ▸ List.mem_append_right breaks hmem))
      (List.cons_ne_nil first others) (by simpa using hfirst) hfuel hfrontColumn hfront
    obtain ⟨found, hmark, hbody⟩ := (hending.append breaks).exists_chomping
    have hfound : found = chomping :=
      Chomping.mark_injective (hmark.symm.trans (by rw [← htext, hchomping]))
    have hblock := read_block_eq hheader hindentation (hindent _ (by omega)) hread
    refine ⟨after, ?_, hafter⟩
    rw [hblock, List.nil_append, ← hfound, hbody, htext]

end ConfigFill.Yaml.TokenKind
