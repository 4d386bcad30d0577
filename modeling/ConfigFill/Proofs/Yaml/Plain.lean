import ConfigFill.Text.Segments
import ConfigFill.Yaml.Style
import ConfigFill.Yaml.Token.Plain

/-!
# Plain scalars in YAML, written and read

A text that the printer writes without quotes is read as what it is, if it is the last on its line
and nothing but the end of the line follows it (`read_plain_of_allows_plain`). The reader takes a
plain scalar in rounds of a word and the spaces after it. What a round leaves is again a text that
needs no quotes, which is why the induction is about texts without certain pairs of characters
(`PlainRest`) and says nothing of how they begin.
-/

namespace ConfigFill.Yaml.TokenKind

variable {since : Mark} {cursor : Cursor} {rest : List Char}

/-- A text that goes on a plain scalar to its end: its only blanks are spaces, none is last or stands
before a number sign, and no colon stands before a blank or at the end. -/
structure PlainRest (text : List Char) : Prop where
  blank : ∀ character ∈ text, isSpacing character = true → character = ' '
  last : text.getLast? ≠ some ' '
  colon : ∀ front more, text = front ++ ':' :: more → endsWord more = false
  comment : ∀ front more, text ≠ front ++ ' ' :: '#' :: more

/-- What is left of such a text is such a text. -/
theorem PlainRest.tail {front text : List Char} (h : PlainRest (front ++ text)) : PlainRest text where
  blank character hmem := h.blank character (List.mem_append_right front hmem)
  last := by
    intro hlast
    exact h.last (by rw [List.getLast?_append, hlast]; rfl)
  colon before more heq := h.colon (front ++ before) more (by rw [heq, List.append_assoc])
  comment before more heq := h.comment (front ++ before) more (by rw [heq, List.append_assoc])

/-- A word is read up to a blank, a break or the end of the text, if no colon in it ends it. -/
theorem read_plain_word {word : List Char} (hword : ∀ character ∈ word, isSpacing character = false)
    (hcolon : ∀ front more, word = front ++ ':' :: more → endsWord (more ++ rest) = false)
    (hrest : endsWord rest = true) {fuel : Nat} (hfuel : word.length ≤ fuel)
    (h : cursor.rest = word ++ rest) :
    readPlainWord false since fuel cursor = .ok (word, cursor.skip word.length) := by
  induction word generalizing fuel cursor with
  | nil =>
      rw [List.length_nil, Cursor.skip_zero]
      cases fuel with
      | zero => rfl
      | succ fuel =>
          rw [readPlainWord, h]
          cases rest with
          | nil => rfl
          | cons next others =>
              have hnext : isSpacing next = true := hrest
              simp [hnext]
  | cons next others ih =>
      cases fuel with
      | zero => cases hfuel
      | succ fuel =>
          have hnext := hword next List.mem_cons_self
          have hstop : (next == ':' && endsWord (others ++ rest)) = false := by
            by_cases heq : next = ':'
            · simp [hcolon [] others (by rw [heq]; rfl)]
            · simp [heq]
          have hothers := ih (fun other hmem ↦ hword other (List.mem_cons_of_mem next hmem))
            (fun front more heq ↦ hcolon (next :: front) more (by rw [heq]; rfl))
            (Nat.le_of_succ_le_succ hfuel) (Cursor.rest_skip_one h)
          rw [readPlainWord, h, List.cons_append]
          simp only [hnext, hstop, hothers, Cursor.skip_skip, List.length_cons, Nat.add_comm 1,
            Bool.false_and, Bool.or_false, Bool.false_eq_true, if_false]
          rfl

/-- What begins a word begins it whatever follows. -/
theorem ends_word_append {text : List Char} (h : endsWord text = false) (rest : List Char) :
    endsWord (text ++ rest) = false := by
  cases text with
  | nil => cases h
  | cons next others => exact h

/-- The last round reads a word and the end of its line. -/
theorem read_plain_text_last {indent : Int} {word gap : List Char} {middle : Cursor} {broken : Bool}
    (hmark : cursor.isAtDocumentMark = false) (hcomment : cursor.isAt '#' = false)
    (hword : readPlainWord false since cursor.rest.length cursor = .ok (word, middle))
    (hne : word ≠ []) (hmiddle : middle.rest = ['\n']) (fuel : Nat) :
    ∃ ended after, readPlainText false indent since (fuel + 2) gap broken cursor =
        .ok (gap ++ word, ended, after) ∧ after.rest = [] := by
  have hsome : word.isEmpty = false := by simpa using hne
  have hgap : Gap.read indent 1 (.start false) middle =
      .ok (⟨[], true, ['\n'], []⟩, ⟨[], middle.mark.nextLine ['\n']⟩) := by
    rw [Gap.read, hmiddle]
    simp [Gap.start, Gap.read, Cursor.takeBreak, hmiddle, isBlank, isBreak]
  have hend : ∀ (column : Mark) gap broken, readPlainText false indent since (fuel + 1) gap broken
      ⟨[], column⟩ = .ok ([], broken, ⟨[], column⟩) := by
    intro column gap broken
    simp [readPlainText, Cursor.isAtDocumentMark, startsDocumentMark, Cursor.isAt, readPlainWord,
      bind, Except.bind, pure, Except.pure]
  refine ⟨true, ⟨[], middle.mark.nextLine ['\n']⟩, ?_, rfl⟩
  rw [readPlainText, hmark, hcomment, hword]
  simp [hsome, hmiddle, hgap, hend, isSpacing, isBreak, bind, Except.bind, pure, Except.pure]

/-- Every other round reads a word and the spaces after it. -/
theorem read_plain_text_round {indent : Int} {word gap spaces : List Char} {middle after : Cursor}
    {broken : Bool} {stretch : Gap}
    (hmark : cursor.isAtDocumentMark = false) (hcomment : cursor.isAt '#' = false)
    (hword : readPlainWord false since cursor.rest.length cursor = .ok (word, middle))
    (hne : word ≠ []) (hmiddle : middle.rest = ' ' :: spaces)
    (hgap : Gap.read indent middle.rest.length (.start false) middle = .ok (stretch, after))
    (hcolumn : indent ≤ after.mark.column) (fuel : Nat) :
    readPlainText false indent since (fuel + 1) gap broken cursor =
      readPlainText false indent since fuel stretch.folded stretch.broken after >>= fun read ↦
        .ok (gap ++ word ++ read.1, read.2) := by
  have hdeep : ¬ (after.mark.column : Int) < indent := by omega
  have hsome : word.isEmpty = false := by simpa using hne
  rw [hmiddle, List.length_cons] at hgap
  rw [readPlainText, hmark, hcomment, hword]
  simp [hsome, hmiddle, hgap, hdeep, isSpacing, isBlank, bind, Except.bind, pure, Except.pure]

/-- A text goes on a plain scalar in rounds: a word, and unless the text ends there, spaces and a rest
that begins a word again, but not with a number sign. -/
theorem PlainRest.exists_round {text : List Char} (h : PlainRest text)
    (hhead : ∀ next, text.head? = some next → next ≠ ' ') (hne : text ≠ []) :
    ∃ word count more, text = word ++ (List.replicate count ' ' ++ more) ∧ word ≠ [] ∧
      (∀ character ∈ word, isSpacing character = false) ∧
      (count = 0 ∧ more = [] ∨ 0 < count ∧ more ≠ [] ∧ endsWord (more ++ ['\n']) = false ∧
        ∀ next, more.head? = some next → next ≠ ' ' ∧ next ≠ '#') := by
  obtain ⟨word, run, more, htext, hword, hrun, hmore, hend⟩ := Text.exists_run (· == ' ') text
  have hspaces : run = List.replicate run.length ' ' :=
    List.eq_replicate_iff.2 ⟨rfl, fun character hmem ↦ by simpa using hrun character hmem⟩
  have hspacing : ∀ character, character ∈ text → character ≠ ' ' → isSpacing character = false :=
    fun character hmem hne ↦ Bool.eq_false_iff.2 fun hspacing ↦ hne (h.blank character hmem hspacing)
  have hwordSpacing : ∀ character ∈ word, isSpacing character = false := by
    intro character hmem
    exact hspacing character (by simp [htext, hmem]) (by simpa using hword character hmem)
  have hwordNe : word ≠ [] := by
    intro hempty
    rw [hempty, List.nil_append] at htext
    cases run with
    | nil => exact hne (by rw [htext, hend rfl]; rfl)
    | cons first others =>
        have hfirst : first = ' ' := by simpa using hrun first List.mem_cons_self
        exact hhead first (by rw [htext]; rfl) hfirst
  refine ⟨word, run.length, more, by rw [← hspaces, ← List.append_assoc, htext], hwordNe,
    hwordSpacing, ?_⟩
  cases hlength : run.length with
  | zero => exact .inl ⟨rfl, hend (List.length_eq_zero_iff.1 hlength)⟩
  | succ count =>
      rw [hspaces, hlength, List.replicate_succ'] at htext
      obtain ⟨next, others, rfl⟩ : ∃ next others, more = next :: others := by
        refine List.exists_cons_of_ne_nil fun hempty ↦ h.last ?_
        simp [htext, hempty]
      have hnext : next ≠ ' ' := by simpa using hmore next rfl
      have hcomment : next ≠ '#' := by
        intro hcomment
        refine h.comment (word ++ List.replicate count ' ') others ?_
        rw [htext, hcomment]
        simp
      refine .inr ⟨Nat.succ_pos count, List.cons_ne_nil next others, ?_, ?_⟩
      · exact hspacing next (by simp [htext]) hnext
      · intro found hfound
        cases hfound
        exact ⟨hnext, hcomment⟩

/-- In a round, the word is what stands before the spaces, or before the end of the line. -/
theorem read_round_word {text word more : List Char} {count : Nat} (h : PlainRest text)
    (htext : text = word ++ (List.replicate count ' ' ++ more))
    (hword : ∀ character ∈ word, isSpacing character = false) (hmore : more ≠ [] → 0 < count)
    (hcursor : cursor.rest = text ++ ['\n']) :
    readPlainWord false since cursor.rest.length cursor = .ok (word, cursor.skip word.length) ∧
      (cursor.skip word.length).rest = List.replicate count ' ' ++ (more ++ ['\n']) := by
  have hcut : cursor.rest = word ++ (List.replicate count ' ' ++ (more ++ ['\n'])) := by
    rw [hcursor, htext]
    simp
  refine ⟨read_plain_word hword ?_ ?_ ?_ hcut, Cursor.rest_skip hcut⟩
  · intro front tail heq
    have htail :=
      h.colon front (tail ++ (List.replicate count ' ' ++ more)) (by rw [htext, heq]; simp)
    simpa [List.append_assoc] using ends_word_append htail ['\n']
  · cases count with
    | zero =>
        cases more with
        | nil => rfl
        | cons next others => exact absurd (hmore (List.cons_ne_nil _ _)) (Nat.lt_irrefl 0)
    | succ count => rfl
  · rw [hcut, List.length_append]
    exact Nat.le_add_right _ _

/-- In a round, the gap after the word is the spaces. -/
theorem read_round_gap {indent : Int} {more : List Char} {count : Nat}
    (hmore : endsWord (more ++ ['\n']) = false)
    (hcursor : cursor.rest = List.replicate count ' ' ++ (more ++ ['\n'])) :
    ∃ stretch, Gap.read indent cursor.rest.length (.start false) cursor =
        .ok (stretch, cursor.skip count) ∧
      stretch.folded = List.replicate count ' ' ∧ stretch.broken = false := by
  have hfuel : count ≤ cursor.rest.length := by
    rw [hcursor, List.length_append, List.length_replicate]
    exact Nat.le_add_right _ _
  exact ⟨_, Gap.read_spaces rfl hfuel hmore hcursor, rfl, rfl⟩

/-- A text that goes on a plain scalar to its end is read as what it is, with what stands before
it. -/
theorem read_plain_text {indent : Int} {text gap : List Char} {broken : Bool} {fuel : Nat}
    (h : PlainRest text) (hhead : ∀ next, text.head? = some next → next ≠ ' ' ∧ next ≠ '#')
    (hne : text ≠ []) (hmark : cursor.isAtDocumentMark = false)
    (hcolumn : indent ≤ cursor.mark.column) (hfuel : text.length < fuel)
    (hcursor : cursor.rest = text ++ ['\n']) :
    ∃ ended after, readPlainText false indent since fuel gap broken cursor =
        .ok (gap ++ text, ended, after) ∧ after.rest = [] := by
  induction fuel generalizing cursor text gap broken with
  | zero => cases hfuel
  | succ fuel ih =>
      obtain ⟨word, count, more, htext, hword, hspacing, hround⟩ :=
        h.exists_round (fun next hnext ↦ (hhead next hnext).1) hne
      have hcomment : cursor.isAt '#' = false := by
        obtain ⟨next, others, hcons⟩ := List.exists_cons_of_ne_nil hne
        have hnext := (hhead next (by rw [hcons]; rfl)).2
        simp [Cursor.isAt, hcursor, hcons, hnext]
      have hlength : text.length = word.length + (count + more.length) := by
        rw [htext, List.length_append, List.length_append, List.length_replicate]
      have hpos := List.length_pos_iff.2 hword
      have hcount : more ≠ [] → 0 < count :=
        fun hne ↦ hround.elim (fun hlast ↦ absurd hlast.2 hne) (·.1)
      obtain ⟨hread, hmiddle⟩ := read_round_word h htext hspacing hcount hcursor
      obtain ⟨rfl, rfl⟩ | ⟨hcount, hmoreNe, hmore, hmoreHead⟩ := hround
      · obtain ⟨fuel, rfl⟩ := Nat.exists_eq_add_one.2 (show 0 < fuel by omega)
        rw [htext, List.replicate_zero, List.append_nil, List.append_nil]
        exact read_plain_text_last hmark hcomment hread hword hmiddle fuel
      · obtain ⟨stretch, hgap, hfolded, hbroken⟩ := @read_round_gap _ indent more count hmore hmiddle
        obtain ⟨spaces, hspaces⟩ : ∃ spaces, (cursor.skip word.length).rest = ' ' :: spaces := by
          obtain ⟨count, rfl⟩ := Nat.exists_eq_add_one.2 hcount
          exact ⟨_, hmiddle⟩
        have hafter := Cursor.rest_skip hmiddle
        have hcolumnAfter := Cursor.column_skip hmiddle
        have hcolumnWord :=
          @Cursor.column_skip cursor word _ (by rw [hcursor, htext, List.append_assoc])
        rw [List.length_replicate] at hafter hcolumnAfter
        have hmarkAfter := Cursor.is_at_document_mark_of_pos
          (show 0 < ((cursor.skip word.length).skip count).mark.column by omega)
        rw [← List.append_assoc] at htext
        obtain ⟨ended, last, hlast, hlastRest⟩ := @ih _ _ (List.replicate count ' ') false
          (htext ▸ h).tail hmoreHead hmoreNe hmarkAfter (by omega) (by omega) hafter
        refine ⟨ended, last, ?_, hlastRest⟩
        rw [read_plain_text_round hmark hcomment hread hword hspaces hgap (by omega), hfolded,
          hbroken, hlast, htext]
        simp [bind, Except.bind]

/-! ## Texts that the printer writes without quotes -/

/-- What no blank, break or end of the text follows begins a word. -/
theorem ends_word_of_not_followed_by_blank {text : List Char}
    (h : Style.isFollowedByBlank text = false) : endsWord text = false := by
  cases text with
  | nil => cases h
  | cons next others => exact (Bool.or_eq_false_iff.1 h).1

/-- Beyond its first character, a text without inner indicators has no colon before a blank. -/
theorem not_followed_by_blank_of_colon {before : Char} {front more : List Char}
    (h : Style.hasInnerIndicator (before :: front ++ ':' :: more) = false) :
    Style.isFollowedByBlank more = false := by
  induction front generalizing before with
  | nil =>
      simp only [List.cons_append, List.nil_append, Style.hasInnerIndicator,
        Bool.or_eq_false_iff] at h
      simpa using h.1.1
  | cons next others ih => exact ih (Bool.or_eq_false_iff.1 h).2

/-- A text without inner indicators has no number sign after a blank. -/
theorem not_followed_by_blank_of_comment {before : Char} {front more : List Char}
    (h : Style.hasInnerIndicator (front ++ before :: '#' :: more) = false) :
    Style.isFollowedByBlank [before] = false := by
  induction front with
  | nil =>
      simp only [List.nil_append, Style.hasInnerIndicator, Bool.or_eq_false_iff] at h
      simpa using h.1.2
  | cons next others ih =>
      cases others with
      | nil => exact ih (Bool.or_eq_false_iff.1 h).2
      | cons after others => exact ih (Bool.or_eq_false_iff.1 h).2

/-- A line that does not begin with three such characters does not begin with a mark of a document. -/
theorem starts_document_mark_eq_false {mark : Char} (hmark : mark ≠ '\n') {text : List Char}
    (h : [mark, mark, mark].isPrefixOf text = false) :
    startsDocumentMark mark (text ++ ['\n']) = false := by
  match text with
  | [] | [first] => rfl
  | [first, second] => simp [startsDocumentMark, Ne.symm hmark]
  | first :: second :: third :: others =>
      simp only [List.isPrefixOf, Bool.and_true] at h
      simp only [List.cons_append, startsDocumentMark]
      grind

section AllowsPlain

variable {text : List Char} (h : Style.allowsPlain text = true)
include h

/-- A plain scalar that the printer writes has only visible characters and no breaks. -/
theorem visible_of_allows_plain :
    ∀ character ∈ text, isVisible character = true ∧ isBreak character = false := by
  simp only [Style.allowsPlain, Bool.and_eq_true, Bool.not_eq_true', List.any_eq_false,
    Bool.not_eq_true] at h
  exact fun character hmem ↦
    ⟨(Style.of_needs_escapes_eq_false h.1.2).2 character hmem, h.1.1.2 character hmem⟩

/-- A text that the printer writes without quotes goes on a plain scalar to its end. -/
theorem plain_rest_of_allows_plain : PlainRest text := by
  have hvisible := visible_of_allows_plain h
  simp only [Style.allowsPlain, Bool.and_eq_true, Bool.not_eq_true'] at h
  obtain ⟨⟨⟨hspace, _⟩, _⟩, hindicator⟩ := h
  have hinner : Style.hasInnerIndicator text = false := by
    cases text with
    | nil => rfl
    | cons first others => exact (Bool.or_eq_false_iff.1 hindicator).2
  refine ⟨?_, ?_, ?_, ?_⟩
  · intro character hmem hspacing
    obtain ⟨hself, hbreak⟩ := hvisible character hmem
    have htab : character ≠ '\t' := ne_of_is_visible hself (by decide)
    simpa [isSpacing, isBlank, htab, hbreak] using hspacing
  · intro hlast
    simp [Style.hasOuterSpace, hlast] at hspace
  · intro front more heq
    refine ends_word_of_not_followed_by_blank ?_
    cases front with
    | nil =>
        rw [heq] at hindicator
        have hfirst := (Bool.or_eq_false_iff.1 (Bool.or_eq_false_iff.1 hindicator).1).2
        exact (Bool.and_eq_false_iff.1 hfirst).resolve_left (by decide)
    | cons before front => exact not_followed_by_blank_of_colon (heq ▸ hinner)
  · intro front more heq
    exact absurd (not_followed_by_blank_of_comment (heq ▸ hinner)) (by decide)

/-- A line that holds a plain scalar does not begin with a mark of a document. -/
theorem document_marks_of_allows_plain :
    startsDocumentMark '-' (text ++ ['\n']) = false ∧
      startsDocumentMark '.' (text ++ ['\n']) = false := by
  cases text with
  | nil => decide
  | cons first others =>
      simp only [Style.allowsPlain, Style.hasIndicator, Bool.and_eq_true, Bool.not_eq_true',
        Bool.or_eq_false_iff] at h
      exact ⟨starts_document_mark_eq_false (by decide) h.2.1.1.1.1,
        starts_document_mark_eq_false (by decide) h.2.1.1.1.2⟩

/-- A plain scalar that the printer writes does not begin with an indicator. -/
theorem first_of_allows_plain {first : Char} {others : List Char} (htext : text = first :: others) :
    "#,[]\x7b\x7d&*!|>'\"%@\x60".toList.contains first = false ∧
      ("?:-".toList.contains first && Style.isFollowedByBlank others) = false := by
  simp only [htext, Style.allowsPlain, Style.hasIndicator, Bool.and_eq_true, Bool.not_eq_true',
    Bool.or_eq_false_iff] at h
  exact ⟨h.2.1.1.2, h.2.1.2⟩

end AllowsPlain

/-- A text that the printer writes without quotes is read back from the end of a line. -/
theorem read_plain_of_allows_plain {text : List Char} (h : Style.allowsPlain text = true)
    (hne : text ≠ []) {blockIndent : Int} (hcolumn : blockIndent < cursor.mark.column)
    (hcursor : cursor.rest = text ++ ['\n']) :
    ∃ ended after, readPlain false blockIndent cursor = .ok (.scalar text true, ended, after) ∧
      after.rest = [] := by
  have hhead : ∀ next, text.head? = some next → next ≠ ' ' ∧ next ≠ '#' := by
    intro next hnext
    refine ⟨fun hspace ↦ ?_, fun hcomment ↦ ?_⟩
    · simp [Style.allowsPlain, Style.hasOuterSpace, hnext, hspace] at h
    · obtain ⟨others, htext⟩ := List.head?_eq_some_iff.1 hnext
      have hfirst := (first_of_allows_plain h htext).1
      rw [hcomment] at hfirst
      exact absurd hfirst (by decide)
  have hmark : cursor.isAtDocumentMark = false := by
    have hmarks := document_marks_of_allows_plain h
    simp [Cursor.isAtDocumentMark, hcursor, hmarks]
  have hfuel : text.length < cursor.rest.length + 1 := by
    rw [hcursor, List.length_append]
    omega
  obtain ⟨ended, after, hread, hafter⟩ := @read_plain_text cursor.mark cursor (blockIndent + 1)
    text [] false _ (plain_rest_of_allows_plain h) hhead hne hmark (by omega) hfuel hcursor
  refine ⟨ended, after, ?_, hafter⟩
  rw [readPlain, hread]
  rfl

end ConfigFill.Yaml.TokenKind
