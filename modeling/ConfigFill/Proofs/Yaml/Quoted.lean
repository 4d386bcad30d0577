import ConfigFill.Text.Segments
import ConfigFill.Yaml.Style
import ConfigFill.Yaml.Token.Quoted

/-!
# Quoted scalars in YAML, written and read

A text between quotes is read as what it was written for: every text between double quotes
(`read_quoted_double_quoted`), and between single quotes those that the printer writes so
(`read_quoted_single_quoted`). A reader takes a quoted scalar in rounds of a word and the stretch of
spaces or breaks after it, so both are by induction over these rounds (`read_quoted_text_round`).
Between double quotes each character of a word is read from its escape or from itself
(`read_escape`).
-/

namespace ConfigFill.Yaml.TokenKind

variable {since : Mark} {cursor : Cursor} {rest : List Char}

/-! ## Escapes -/

/-- A number that fits a width is written with so many hexadecimal digits. -/
theorem length_hex_text {width number : Nat} (hwidth : 0 < width) (h : number < Nat.pow 16 width) :
    (hexText width number).length = width := by
  have hdigits := (Nat.length_toDigits_le_iff (by decide : 1 < 16) hwidth).2 h
  simp only [hexText, List.length_append, List.length_replicate, List.length_map]
  omega

/-- The code point of a character is that of this character. -/
theorem char_of_to_nat (character : Char) : charOf? character.toNat = some character := by
  rw [charOf?, dif_pos (show character.toNat.isValidChar from character.valid)]
  exact congrArg some (Char.ext (UInt32.ofNatLT_toNat character.val))

/-- An escape by number is read as the character of this code point. -/
theorem read_escape_numbered {letter character : Char} {count : Nat}
    (hmeaning : escapeMeaning? letter = some (.codePoint count)) (hcount : 0 < count)
    (hfits : character.toNat < Nat.pow 16 count)
    (h : cursor.rest = '\\' :: letter :: (hexText count character.toNat ++ rest)) :
    readEscape since cursor = .ok (character, cursor.skip (count + 2)) := by
  have hlength := length_hex_text hcount hfits
  have htake : (hexText count character.toNat ++ rest).take count = hexText count character.toNat :=
    List.take_left' hlength
  have hlong : count ≤ (hexText count character.toNat ++ rest).length := by
    rw [List.length_append]
    omega
  have hcode : (Text.number? 16 (hexText count character.toNat)).filter
      (fun _ ↦ count ≤ (hexText count character.toNat ++ rest).length) = some character.toNat := by
    rw [hexText, Text.number?_sixteen_to_digits, Option.filter_some, if_pos]
    simpa [hexText] using hlong
  unfold readEscape
  rw [h]
  simp only [hmeaning, htake, hcode, char_of_to_nat, Cursor.skip_skip, Nat.add_comm]

/-- A character is read from its escape. -/
theorem read_escape {character : Char} (h : cursor.rest = escape character ++ rest) :
    readEscape since cursor = .ok (character, cursor.skip (escape character).length) := by
  revert h
  unfold escape
  split
  case h_16 =>
    have hvalid : character.toNat.isValidChar := character.valid
    have hlarge : character.toNat < Nat.pow 16 8 := by
      show character.toNat < 0x100000000
      simp only [Nat.isValidChar] at hvalid
      omega
    dsimp only
    split
    · rename_i hbyte
      intro h
      have hfits : character.toNat < Nat.pow 16 2 := Nat.lt_succ_of_le hbyte
      rw [List.length_cons, List.length_cons, length_hex_text (by decide) hfits]
      exact read_escape_numbered rfl (by decide) hfits h
    · split
      · rename_i hbytes
        intro h
        have hfits : character.toNat < Nat.pow 16 4 := Nat.lt_succ_of_le hbytes
        rw [List.length_cons, List.length_cons, length_hex_text (by decide) hfits]
        exact read_escape_numbered rfl (by decide) hfits h
      · intro h
        rw [List.length_cons, List.length_cons, length_hex_text (by decide) hlarge]
        exact read_escape_numbered rfl (by decide) hlarge h
  all_goals
    intro h
    unfold readEscape
    rw [h]
    rfl

/-- An escape is a backslash and a character that is no break, and what may follow them. -/
theorem exists_escape_eq (character : Char) :
    ∃ letter digits, escape character = '\\' :: letter :: digits ∧ isBreak letter = false := by
  unfold escape
  split
  case h_16 =>
    dsimp only
    split
    · exact ⟨_, _, rfl, rfl⟩
    · split
      · exact ⟨_, _, rfl, rfl⟩
      · exact ⟨_, _, rfl, rfl⟩
  all_goals exact ⟨_, _, rfl, rfl⟩

/-! ## Rounds -/

/-- The quote that closes a scalar. -/
def closingQuote (single : Bool) : Char :=
  if single then '\'' else '"'

/-- In quotes of a kind, a text is read as a character of a word, whatever follows it. -/
def ReadsAs (single : Bool) (written : List Char) (character : Char) : Prop :=
  written ≠ [] ∧ ∀ (since : Mark) (fuel : Nat) (cursor : Cursor) (rest : List Char),
    cursor.rest = written ++ rest →
      readQuotedWord single since (fuel + 1) cursor =
        readQuotedWord single since fuel (cursor.skip written.length) >>= fun read ↦
          .ok (character :: read.1, read.2)

/-- A text is read as a stretch of spaces or breaks that stands for another, if a word or the closing
quote follows it. -/
def ReadsAsStretch (written stretch : List Char) : Prop :=
  endsWord written = true ∧ written ≠ [] ∧
    ∀ (cursor : Cursor) (rest : List Char) (fuel : Nat),
      0 < cursor.mark.column → cursor.rest = written ++ rest → endsWord rest = false →
        written.length ≤ fuel →
          ∃ gap after, Gap.read 0 fuel (.start false) cursor = .ok (gap, after) ∧
            gap.folded = stretch ∧ after.rest = rest ∧ 0 < after.mark.column

/-- How a text can be written between quotes of a kind: words, with a stretch between two of them. -/
inductive QuotedSpelling (single : Bool) (shown : Char → List Char) :
    (text written : List Char) → Prop
  | word {word : List Char} (hword : ∀ character ∈ word, ReadsAs single (shown character) character) :
      QuotedSpelling single shown word (word.flatMap shown)
  | round {word stretch spaces text written : List Char}
      (hword : ∀ character ∈ word, ReadsAs single (shown character) character)
      (hstretch : ReadsAsStretch spaces stretch)
      (hnext : endsWord (written ++ [closingQuote single]) = false)
      (htext : QuotedSpelling single shown text written) :
      QuotedSpelling single shown (word ++ stretch ++ text)
        (word.flatMap shown ++ spaces ++ written)

/-- A word is read from how its characters are written, up to a stretch or the closing quote. -/
theorem read_quoted_word_eq {single : Bool} {shown : Char → List Char} {word : List Char}
    {fuel : Nat} (hword : ∀ character ∈ word, ReadsAs single (shown character) character)
    (hstop : ∀ cursor : Cursor, cursor.rest = rest → ∀ fuel,
      readQuotedWord single since fuel cursor = .ok ([], false, cursor))
    (hfuel : word.length ≤ fuel) (h : cursor.rest = word.flatMap shown ++ rest) :
    readQuotedWord single since fuel cursor =
      .ok (word, false, cursor.skip (word.flatMap shown).length) := by
  induction word generalizing fuel cursor with
  | nil => exact hstop cursor h fuel
  | cons character others ih =>
      cases fuel with
      | zero => cases hfuel
      | succ fuel =>
          rw [List.flatMap_cons, List.append_assoc] at h
          rw [(hword character List.mem_cons_self).2 since fuel cursor _ h,
            ih (fun other hmem ↦ hword other (List.mem_cons_of_mem character hmem))
              (Nat.le_of_succ_le_succ hfuel) (Cursor.rest_skip h),
            Cursor.skip_skip, List.flatMap_cons, List.length_append]
          rfl

/-- A word is written with no fewer characters than it has. -/
theorem length_le_shown {single : Bool} {shown : Char → List Char} {word : List Char}
    (hword : ∀ character ∈ word, ReadsAs single (shown character) character) :
    word.length ≤ (word.flatMap shown).length := by
  induction word with
  | nil => exact Nat.zero_le _
  | cons character others ih =>
      have hshown := List.length_pos_iff.2 (hword character List.mem_cons_self).1
      have hothers := ih fun other hmem ↦ hword other (List.mem_cons_of_mem character hmem)
      simp only [List.flatMap_cons, List.length_append, List.length_cons]
      omega

/-- No word goes on at the closing quote. -/
theorem read_quoted_word_closing {single : Bool} (hrest : single = true → rest.head? ≠ some '\'')
    (h : cursor.rest = closingQuote single :: rest) (fuel : Nat) :
    readQuotedWord single since fuel cursor = .ok ([], false, cursor) := by
  cases fuel with
  | zero => rfl
  | succ fuel =>
      rw [readQuotedWord, h]
      cases single with
      | false => rfl
      | true =>
          have hquote : (rest.head? == some '\'') = false := by simpa using hrest rfl
          simp [closingQuote, hquote, isSpacing, isBlank, isBreak]

/-- No word goes on at a stretch. -/
theorem read_quoted_word_stretch {single : Bool} {spaces : List Char}
    (hspaces : endsWord spaces = true)
    (hne : spaces ≠ []) (h : cursor.rest = spaces ++ rest) (fuel : Nat) :
    readQuotedWord single since fuel cursor = .ok ([], false, cursor) := by
  obtain ⟨next, others, rfl⟩ := List.exists_cons_of_ne_nil hne
  cases fuel with
  | zero => rfl
  | succ fuel =>
      have hnext : isSpacing next = true := hspaces
      rw [readQuotedWord, h]
      simp [hnext]

/-- A stretch does not begin with the closing quote. -/
theorem head_stretch_ne {single : Bool} {spaces : List Char} (hspaces : endsWord spaces = true)
    (hne : spaces ≠ []) (rest : List Char) :
    (spaces ++ rest).head? ≠ some (closingQuote single) := by
  obtain ⟨next, others, rfl⟩ := List.exists_cons_of_ne_nil hne
  intro hquote
  have hnext : isSpacing next = true := hspaces
  rw [show next = closingQuote single from Option.some.inj hquote] at hnext
  cases single <;> exact absurd hnext (by decide)

/-- The last round reads a word and the closing quote. -/
theorem read_quoted_text_closing {single : Bool} {word : List Char} {middle : Cursor}
    (hcolumn : 0 < cursor.mark.column) (hne : cursor.rest ≠ [])
    (hword : readQuotedWord single since cursor.rest.length cursor = .ok (word, false, middle))
    (hquote : middle.rest.head? = some (closingQuote single)) (fuel : Nat) :
    readQuotedText single since (fuel + 1) cursor = .ok (word, middle.skip 1) := by
  have hclosing : middle.isAt (if single then '\'' else '"') = true := by
    simpa [Cursor.isAt, closingQuote] using hquote
  have hsome : cursor.rest.isEmpty = false := by simpa using hne
  rw [readQuotedText, Cursor.is_at_document_mark_of_pos hcolumn, hsome, hword]
  simp [hclosing, bind, Except.bind, pure, Except.pure]

/-- Every other round reads a word and the stretch after it. -/
theorem read_quoted_text_round {single : Bool} {word : List Char} {middle after : Cursor} {gap : Gap}
    (hcolumn : 0 < cursor.mark.column) (hne : cursor.rest ≠ [])
    (hword : readQuotedWord single since cursor.rest.length cursor = .ok (word, false, middle))
    (hquote : middle.rest.head? ≠ some (closingQuote single))
    (hgap : Gap.read 0 middle.rest.length (.start false) middle = .ok (gap, after)) (fuel : Nat) :
    readQuotedText single since (fuel + 1) cursor =
      readQuotedText single since fuel after >>= fun read ↦
        .ok (word ++ gap.folded ++ read.1, read.2) := by
  have hclosing : middle.isAt (if single then '\'' else '"') = false := by
    simpa [Cursor.isAt, closingQuote] using hquote
  have hsome : cursor.rest.isEmpty = false := by simpa using hne
  rw [readQuotedText, Cursor.is_at_document_mark_of_pos hcolumn, hsome, hword]
  simp [hclosing, hgap, bind, Except.bind, pure, Except.pure]

/-- A text is read from how it is written between quotes, up to and with the closing quote. -/
theorem read_quoted_text_of_spelling {single : Bool} {shown : Char → List Char}
    {text written : List Char} (h : QuotedSpelling single shown text written)
    (hrest : single = true → rest.head? ≠ some '\'') {fuel : Nat} (hfuel : written.length < fuel)
    (hcolumn : 0 < cursor.mark.column)
    (hcursor : cursor.rest = written ++ closingQuote single :: rest) :
    ∃ after, readQuotedText single since fuel cursor = .ok (text, after) ∧ after.rest = rest := by
  have hne : cursor.rest ≠ [] := by simp [hcursor]
  induction h generalizing fuel cursor with
  | @word word hword =>
      cases fuel with
      | zero => cases hfuel
      | succ fuel =>
          have hlength : word.length ≤ cursor.rest.length := by
            have hshown := length_le_shown hword
            rw [hcursor, List.length_append]
            omega
          have hread : readQuotedWord single since _ cursor = _ := read_quoted_word_eq hword
            (fun _ hstop ↦ read_quoted_word_closing hrest hstop) hlength hcursor
          have hmiddle := Cursor.rest_skip hcursor
          refine ⟨_, read_quoted_text_closing hcolumn hne hread (by rw [hmiddle]; rfl) fuel, ?_⟩
          exact Cursor.rest_skip_one hmiddle
  | @round word stretch spaces text written hword hstretch hnext _ ih =>
      cases fuel with
      | zero => cases hfuel
      | succ fuel =>
          obtain ⟨hspaces, hspacesNe, hgap⟩ := hstretch
          rw [List.append_assoc, List.append_assoc] at hcursor
          have hlength : word.length ≤ cursor.rest.length := by
            have hshown := length_le_shown hword
            rw [hcursor, List.length_append]
            omega
          have hread : readQuotedWord single since _ cursor = _ := read_quoted_word_eq hword
            (fun _ hstop ↦ read_quoted_word_stretch hspaces hspacesNe hstop) hlength hcursor
          have hmiddle := Cursor.rest_skip hcursor
          have hnextWord : endsWord (written ++ closingQuote single :: rest) = false := by
            cases written <;> exact hnext
          have hmiddleColumn := Cursor.column_skip hcursor
          have hspacesFuel :
              spaces.length ≤ (cursor.skip (word.flatMap shown).length).rest.length := by
            rw [hmiddle, List.length_append]
            omega
          obtain ⟨gap, after, hgapRead, rfl, hafter, hafterColumn⟩ :=
            hgap _ _ _ (by omega) hmiddle hnextWord hspacesFuel
          have hshorter : written.length < fuel := by
            have hpos := List.length_pos_iff.2 hspacesNe
            simp only [List.length_append] at hfuel
            omega
          obtain ⟨last, htext, hlast⟩ := ih hshorter hafterColumn hafter (by simp [hafter])
          refine ⟨last, ?_, hlast⟩
          rw [read_quoted_text_round hcolumn hne hread ?_ hgapRead, htext]
          · rfl
          · rw [hmiddle]
            exact head_stretch_ne hspaces hspacesNe _

/-! ## Stretches -/

/-- Spaces are a stretch that stands for itself. -/
theorem reads_as_stretch_spaces {count : Nat} (h : 0 < count) :
    ReadsAsStretch (List.replicate count ' ') (List.replicate count ' ') := by
  obtain ⟨count, rfl⟩ := Nat.exists_eq_add_one.2 h
  refine ⟨rfl, by simp, fun cursor rest fuel hcolumn hcursor hnext hfuel ↦ ?_⟩
  rw [List.length_replicate] at hfuel
  refine ⟨_, _, Gap.read_spaces rfl hfuel hnext hcursor, rfl, ?_, ?_⟩
  · simpa using Cursor.rest_skip hcursor
  · have hskip := Cursor.column_skip hcursor
    rw [List.length_replicate] at hskip
    omega

/-- A separator of lines or of paragraphs, which is a break that stands for itself. -/
def IsSeparator (character : Char) : Prop :=
  character = '\u2028' ∨ character = '\u2029'

/-- A separator is a break that can stand for itself. -/
theorem IsSeparator.classes {separator : Char} (h : IsSeparator separator) :
    isBlank separator = false ∧ isBreak separator = true ∧ isVisible separator = true := by
  obtain rfl | rfl := h <;> decide

/-- Separators after a break are further breaks of the stretch. -/
theorem gap_read_separators {separators : List Char}
    (hseparators : ∀ separator ∈ separators, IsSeparator separator) {gap : Gap}
    (hbroken : gap.broken = true) (fuel : Nat) (h : cursor.rest = separators ++ rest) :
    ∃ after, Gap.read 0 (separators.length + fuel) gap cursor =
        Gap.read 0 fuel { gap with moreBreaks := gap.moreBreaks ++ separators } after ∧
      after.rest = rest := by
  induction separators generalizing gap cursor with
  | nil => exact ⟨cursor, by simp, h⟩
  | cons separator others ih =>
      have hseparator := hseparators separator List.mem_cons_self
      obtain ⟨after, hread, hafter⟩ :=
        @ih ⟨others ++ rest, cursor.mark.nextLine [separator]⟩
          (fun other hmem ↦ hseparators other (List.mem_cons_of_mem separator hmem))
          { gap with moreBreaks := gap.moreBreaks ++ [separator] } hbroken rfl
      refine ⟨after, ?_, hafter⟩
      obtain ⟨hblank, hbreak, hvisible⟩ := hseparator.classes
      rw [List.append_assoc, List.singleton_append] at hread
      rw [← hread, List.length_cons, Nat.add_right_comm, Gap.read, h, List.cons_append]
      simp only [hblank, hbreak, hbroken, take_break_of_is_visible hvisible hbreak h, if_true]
      rfl

/-- Separators with the indentation of the next line after them are a stretch that stands for the
separators. -/
theorem reads_as_stretch_separators {separators : List Char}
    (hseparators : ∀ separator ∈ separators, IsSeparator separator) (hne : separators ≠ [])
    {indent : Nat} (hindent : 0 < indent) :
    ReadsAsStretch (separators ++ List.replicate indent ' ') separators := by
  obtain ⟨separator, others, rfl⟩ := List.exists_cons_of_ne_nil hne
  have hseparator := hseparators separator List.mem_cons_self
  have hothers : ∀ other ∈ others, IsSeparator other :=
    fun other hmem ↦ hseparators other (List.mem_cons_of_mem separator hmem)
  obtain ⟨hblank, hbreak, hvisible⟩ := hseparator.classes
  refine ⟨?_, by simp, fun cursor rest fuel _ hcursor hnext hfuel ↦ ?_⟩
  · simp [endsWord, isSpacing, hbreak]
  · obtain ⟨more, rfl⟩ : ∃ more, fuel = others.length + (indent + more) + 1 := by
      simp only [List.length_append, List.length_cons, List.length_replicate] at hfuel
      exact ⟨fuel - (others.length + indent + 1), by omega⟩
    have hfirst : Gap.read 0 (others.length + (indent + more) + 1) (.start false) cursor =
        Gap.read 0 (others.length + (indent + more)) ⟨[], true, [separator], []⟩
          ⟨others ++ (List.replicate indent ' ' ++ rest), cursor.mark.nextLine [separator]⟩ := by
      rw [List.append_assoc, List.cons_append] at hcursor
      rw [Gap.read, hcursor]
      simp only [hblank, hbreak, take_break_of_is_visible hvisible hbreak hcursor, Gap.start, if_true]
      rfl
    obtain ⟨after, hread, hafter⟩ := @gap_read_separators
      ⟨others ++ (List.replicate indent ' ' ++ rest), cursor.mark.nextLine [separator]⟩ _ _ hothers
      ⟨[], true, [separator], []⟩ rfl (indent + more) rfl
    have hpadding := @Gap.read_spaces_of_broken 0 after rest ⟨[], true, [separator], [] ++ others⟩ rfl
      _ _ (Nat.le_add_right indent more) hnext hafter
    refine ⟨_, _, (hfirst.trans hread).trans hpadding, ?_, ?_, ?_⟩
    · have hfeed : [separator] ≠ ['\n'] := by
        obtain rfl | rfl := hseparator <;> decide
      simp [Gap.folded, hfeed]
    · simpa using Cursor.rest_skip hafter
    · have hskip := Cursor.column_skip hafter
      rw [List.length_replicate] at hskip
      omega

/-! ## Words between double quotes -/

/-- Between double quotes, a character that is no space stands as its escape or as itself, and as
itself only if it ends no word there. -/
theorem quoted_char_cases {character : Char} (h : character ≠ ' ') :
    quotedChar character = escape character ∨
      quotedChar character = [character] ∧ isSpacing character = false ∧ character ≠ '"' ∧
        character ≠ '\\' := by
  unfold quotedChar
  split
  · exact .inl rfl
  · rename_i hself
    simp only [Bool.or_eq_true, Bool.not_eq_true', beq_iff_eq, not_or, Bool.not_eq_false] at hself
    obtain ⟨⟨⟨hvisible, hbreak⟩, hquote⟩, hbackslash⟩ := hself
    have htab : character ≠ '\t' := ne_of_is_visible hvisible (by decide)
    refine .inr ⟨rfl, ?_, hquote, hbackslash⟩
    simp [isSpacing, isBlank, h, htab, hbreak]

/-- What a character that is no space is written as between double quotes ends no word there. -/
theorem ends_word_quoted_char {character : Char} (h : character ≠ ' ') (rest : List Char) :
    endsWord (quotedChar character ++ rest) = false := by
  obtain hescape | ⟨hself, hspacing, _⟩ := quoted_char_cases h
  · obtain ⟨letter, digits, heq, _⟩ := exists_escape_eq character
    rw [hescape, heq]
    rfl
  · rw [hself]
    exact hspacing

/-- A character that is no space is read as one of a word from what it is written as between double
quotes. -/
theorem reads_as_quoted_char {character : Char} (hspace : character ≠ ' ') :
    ReadsAs false (quotedChar character) character := by
  obtain hescape | ⟨hself, hspacing, hquote, hbackslash⟩ := quoted_char_cases hspace
  · obtain ⟨letter, digits, heq, hbreak⟩ := exists_escape_eq character
    refine ⟨by simp [hescape, heq], fun since fuel cursor rest h ↦ ?_⟩
    have hread : readEscape since cursor = _ := read_escape (hescape ▸ h)
    have hbackslash : isSpacing '\\' = false := rfl
    rw [hescape, readQuotedWord, h, hescape, hread, heq]
    simp [hbackslash, hbreak, bind, Except.bind, pure, Except.pure]
  · refine ⟨by simp [hself], fun since fuel cursor rest h ↦ ?_⟩
    rw [hself] at h ⊢
    rw [readQuotedWord, h]
    simp [hspacing, hquote, hbackslash, bind, Except.bind, pure, Except.pure]

/-- Characters that stand as themselves make up the text that they are. -/
theorem flat_map_eq_self {shown : Char → List Char} {text : List Char}
    (h : ∀ character ∈ text, shown character = [character]) : text.flatMap shown = text := by
  induction text with
  | nil => rfl
  | cons character others ih =>
      rw [List.flatMap_cons, h character List.mem_cons_self,
        ih fun other hmem ↦ h other (List.mem_cons_of_mem character hmem)]
      rfl

/-- Every text is spelled between double quotes as it is written there. -/
theorem quoted_spelling_double_quoted (text : List Char) :
    QuotedSpelling false quotedChar text (text.flatMap quotedChar) := by
  obtain ⟨word, run, more, htext, hword, hrun, hmore, hend⟩ := Text.exists_run (· == ' ') text
  have hchars : ∀ character ∈ word, ReadsAs false (quotedChar character) character :=
    fun character hmem ↦ reads_as_quoted_char (by simpa using hword character hmem)
  have hspaces : run = List.replicate run.length ' ' :=
    List.eq_replicate_iff.2 ⟨rfl, fun character hmem ↦ by simpa using hrun character hmem⟩
  by_cases hne : run = []
  · subst htext
    rw [hend hne, hne, List.append_nil, List.append_nil]
    exact .word hchars
  · have hlength : more.length < text.length := by
      have hpos := List.length_pos_iff.2 hne
      rw [htext, List.length_append, List.length_append]
      omega
    have hshown : run.flatMap quotedChar = run := by
      refine flat_map_eq_self fun character hmem ↦ ?_
      rw [show character = ' ' by simpa using hrun character hmem]
      rfl
    have hnext : endsWord (more.flatMap quotedChar ++ [closingQuote false]) = false := by
      cases more with
      | nil => rfl
      | cons next others =>
          rw [List.flatMap_cons, List.append_assoc]
          exact ends_word_quoted_char (by simpa using hmore next rfl) _
    have hstretch : ReadsAsStretch run run := by
      rw [hspaces]
      exact reads_as_stretch_spaces (List.length_pos_iff.2 hne)
    have hround := QuotedSpelling.round hchars hstretch hnext (quoted_spelling_double_quoted more)
    rwa [htext, List.flatMap_append, List.flatMap_append, hshown]
termination_by text.length

/-- A text is read from how it is written between quotes, with both of them. -/
theorem read_quoted_of_spelling {single : Bool} {shown : Char → List Char} {text written : List Char}
    (h : QuotedSpelling single shown text written) (hrest : single = true → rest.head? ≠ some '\'')
    (hcursor : cursor.rest = closingQuote single :: (written ++ closingQuote single :: rest)) :
    ∃ after, readQuoted single cursor = .ok (.scalar text false, after) ∧ after.rest = rest := by
  have hopened := Cursor.rest_skip_one hcursor
  have hcolumn : (cursor.skip 1).mark.column = cursor.mark.column + 1 :=
    @Cursor.column_skip cursor [closingQuote single] _ hcursor
  have hfuel : written.length < cursor.rest.length + 1 := by
    rw [hcursor, List.length_cons, List.length_append]
    omega
  obtain ⟨after, hread, hafter⟩ :=
    read_quoted_text_of_spelling h hrest hfuel (by omega) hopened
  refine ⟨after, ?_, hafter⟩
  rw [readQuoted, hread]
  rfl

/-- Every text is read back from how it is written between double quotes. -/
theorem read_quoted_double_quoted {text : List Char}
    (h : cursor.rest = (doubleQuoted text).toList ++ rest) :
    ∃ after, readQuoted false cursor = .ok (.scalar text false, after) ∧ after.rest = rest := by
  refine read_quoted_of_spelling (quoted_spelling_double_quoted text) (by simp) ?_
  rw [h]
  simp [doubleQuoted, closingQuote]

/-! ## Texts between single quotes -/

/-- A text that the printer can write between single quotes, with separators for its breaks. -/
structure SingleQuotable (text : List Char) : Prop where
  visible : ∀ character ∈ text, isVisible character = true
  unfolded : '\n' ∉ text
  noBreakAfterSpace : hasPair (· == ' ') isBreak text = false
  noSpaceAfterBreak : hasPair isBreak (· == ' ') text = false

namespace SingleQuotable

variable {text front : List Char}

/-- A text without line feeds can be written so if the printer finds that single quotes hold it. -/
theorem of_allows_single_quoted (h : Style.allowsSingleQuoted text = true) (hfeed : '\n' ∉ text) :
    SingleQuotable text := by
  simp only [Style.allowsSingleQuoted, Style.hasIndentedLine, Bool.and_eq_true,
    Bool.not_eq_true'] at h
  obtain ⟨hpair, hvisible⟩ := Style.of_needs_escapes_eq_false h.2
  exact ⟨hvisible, hfeed, hpair, h.1⟩

/-- Both parts of such a text are such texts. -/
theorem parts (h : SingleQuotable (front ++ text)) : SingleQuotable front ∧ SingleQuotable text := by
  have hspace := has_pair_append h.noBreakAfterSpace
  have hbreak := has_pair_append h.noSpaceAfterBreak
  exact
    ⟨⟨fun character hmem ↦ h.visible character (List.mem_append_left text hmem),
      fun hmem ↦ h.unfolded (List.mem_append_left text hmem), hspace.1, hbreak.1⟩,
    ⟨fun character hmem ↦ h.visible character (List.mem_append_right front hmem),
      fun hmem ↦ h.unfolded (List.mem_append_right front hmem), hspace.2, hbreak.2⟩⟩

/-- A blank in such a text is a space. -/
theorem eq_space_or_is_break (h : SingleQuotable text) {character : Char} (hmem : character ∈ text)
    (hspacing : isSpacing character = true) : character = ' ' ∨ isBreak character = true := by
  have htab : character ≠ '\t' := ne_of_is_visible (h.visible character hmem) (by decide)
  simpa [isSpacing, isBlank, htab] using hspacing

/-- A break in such a text is a separator. -/
theorem is_separator (h : SingleQuotable text) {character : Char} (hmem : character ∈ text)
    (hbreak : isBreak character = true) : IsSeparator character := by
  have hvisible := h.visible character hmem
  have hfeed : character ≠ '\n' := fun heq ↦ h.unfolded (heq ▸ hmem)
  have hreturn : character ≠ '\r' := ne_of_is_visible hvisible (by decide)
  have hnext : character ≠ '\x85' := ne_of_is_visible hvisible (by decide)
  simpa [IsSeparator, isBreak, hfeed, hreturn, hnext] using hbreak

/-- Where such a text has nothing but spaces and breaks, it has only spaces or only breaks. -/
theorem all_spaces_or_all_breaks (h : SingleQuotable text)
    (hspacing : ∀ character ∈ text, isSpacing character = true) :
    (∀ character ∈ text, character = ' ') ∨ ∀ character ∈ text, isBreak character = true := by
  induction text with
  | nil => exact .inl (by simp)
  | cons first others ih =>
      cases others with
      | nil =>
          simpa using h.eq_space_or_is_break List.mem_cons_self (hspacing first List.mem_cons_self)
      | cons second others =>
          have hfirst := h.eq_space_or_is_break List.mem_cons_self (hspacing first List.mem_cons_self)
          have hrest := ih (@parts _ [first] h).2
            fun other hmem ↦ hspacing other (List.mem_cons_of_mem first hmem)
          -- The first two are of one kind, since neither kind stands directly before the other.
          have hspace := (Bool.or_eq_false_iff.1 h.noBreakAfterSpace).1
          have hbreak := (Bool.or_eq_false_iff.1 h.noSpaceAfterBreak).1
          obtain rfl | hfirst := hfirst
          · obtain hspaces | hbreaks := hrest
            · exact .inl (List.forall_mem_cons.2 ⟨rfl, hspaces⟩)
            · simp [hbreaks second List.mem_cons_self] at hspace
          · obtain hspaces | hbreaks := hrest
            · simp [hfirst, hspaces second List.mem_cons_self] at hbreak
            · exact .inr (List.forall_mem_cons.2 ⟨hfirst, hbreaks⟩)

end SingleQuotable

/-- A character that is neither blank nor break is read as one of a word from what it is written as
between single quotes. -/
theorem reads_as_doubled_quote {character : Char} (h : isSpacing character = false) :
    ReadsAs true (doubledQuote character) character := by
  unfold doubledQuote
  split
  · rename_i hquote
    refine ⟨by simp, fun since fuel cursor rest hcursor ↦ ?_⟩
    rw [readQuotedWord, hcursor]
    simp [hquote, isSpacing, isBlank, isBreak, bind, Except.bind, pure, Except.pure]
  · rename_i hquote
    refine ⟨by simp, fun since fuel cursor rest hcursor ↦ ?_⟩
    rw [readQuotedWord, hcursor]
    simp [h, hquote, bind, Except.bind, pure, Except.pure]

/-- A character is a break exactly if what is written for it between single quotes is one. -/
theorem is_break_of_mem_doubled_quote {source character : Char}
    (hmem : character ∈ doubledQuote source) : isBreak character = isBreak source := by
  unfold doubledQuote at hmem
  split at hmem
  · rename_i hquote
    rw [hquote, show character = '\'' by simpa using hmem]
  · rw [List.mem_singleton.1 hmem]

/-- Characters that are no breaks are written between single quotes as they are anywhere. -/
theorem single_quoted_lines_append (indent : Nat) {front : List Char}
    (h : ∀ character ∈ front, isBreak character = false) (text : List Char) :
    singleQuotedLines indent (front ++ text) =
      front.flatMap doubledQuote ++ singleQuotedLines indent text := by
  have hshown : ∀ character ∈ front.flatMap doubledQuote, isBreak character = false := by
    intro character hmem
    obtain ⟨source, hsource, hmem⟩ := List.mem_flatMap.1 hmem
    exact (is_break_of_mem_doubled_quote hmem).trans (h source hsource)
  have hending : quotedEnding indent (front ++ text) = quotedEnding indent text := by
    unfold quotedEnding
    rw [List.getLast?_append]
    cases htext : text.getLast? with
    | none =>
        cases hfront : front.getLast? with
        | none => rfl
        | some last => simp [h last (List.mem_of_getLast? hfront)]
    | some last => rfl
  rw [singleQuotedLines, List.flatMap_append, indented_append hshown, hending, List.append_assoc]
  rfl

/-- Blanks and breaks stand between single quotes as themselves. -/
theorem flat_map_doubled_quote {run : List Char}
    (h : ∀ character ∈ run, isSpacing character = true) : run.flatMap doubledQuote = run := by
  refine flat_map_eq_self fun character hmem ↦ if_neg fun hquote ↦ ?_
  have hspacing := h character hmem
  rw [hquote] at hspacing
  exact absurd hspacing (by decide)

/-- Breaks are written between single quotes with the indentation of the next line after them. -/
theorem single_quoted_lines_breaks (indent : Nat) {breaks text : List Char}
    (h : ∀ character ∈ breaks, isBreak character = true) (hne : breaks ≠ [])
    (htext : ∀ next, text.head? = some next → isBreak next = false) :
    singleQuotedLines indent (breaks ++ text) =
      breaks ++ List.replicate indent ' ' ++ singleQuotedLines indent text := by
  have hshown : breaks.flatMap doubledQuote = breaks :=
    flat_map_doubled_quote fun character hmem ↦ Bool.or_eq_true_iff.2 (.inr (h character hmem))
  cases text with
  | nil =>
      have hending : quotedEnding indent breaks = List.replicate indent ' ' := by
        simp [quotedEnding, List.getLast?_eq_some_getLast hne, h _ (List.getLast_mem hne)]
      have hlines := indented_breaks h hne (List.replicate indent ' ') false []
      rw [singleQuotedLines, List.append_nil, hshown, hending]
      simpa [singleQuotedLines, indented, quotedEnding] using hlines
  | cons next others =>
      have hending : quotedEnding indent (breaks ++ next :: others) =
          quotedEnding indent (next :: others) := by
        unfold quotedEnding
        rw [List.getLast?_append, List.getLast?_eq_some_getLast (List.cons_ne_nil next others)]
        rfl
      obtain ⟨first, more, hfirst, hbreak⟩ : ∃ first more,
          (next :: others).flatMap doubledQuote = first :: more ∧ isBreak first = false := by
        rw [List.flatMap_cons]
        unfold doubledQuote
        split
        · exact ⟨_, _, rfl, rfl⟩
        · exact ⟨_, _, rfl, htext next rfl⟩
      rw [singleQuotedLines, List.flatMap_append, hshown, indented_breaks h hne, hending,
        singleQuotedLines, hfirst, indented_cons hbreak]
      simp only [List.append_assoc]

/-- What is written between single quotes for a text that begins with neither blank nor break does
not begin with one either. -/
theorem ends_word_single_quoted_lines (indent : Nat) {text : List Char}
    (h : ∀ next, text.head? = some next → isSpacing next = false) :
    endsWord (singleQuotedLines indent text ++ [closingQuote true]) = false := by
  cases text with
  | nil => rfl
  | cons next others =>
      have hnext := h next rfl
      have hbreak : ∀ character ∈ [next], isBreak character = false := by
        simpa using (Bool.or_eq_false_iff.1 hnext).2
      have hlines := single_quoted_lines_append indent hbreak others
      rw [List.singleton_append, List.flatMap_singleton] at hlines
      rw [hlines]
      unfold doubledQuote
      split
      · rfl
      · exact hnext

/-- A text that the printer writes between single quotes is spelled as it is written there. -/
theorem quoted_spelling_single_quoted {indent : Nat} (hindent : 0 < indent) {text : List Char}
    (h : SingleQuotable text) :
    QuotedSpelling true doubledQuote text (singleQuotedLines indent text) := by
  obtain ⟨word, run, more, htext, hword, hrun, hmore, hend⟩ := Text.exists_run isSpacing text
  have hchars : ∀ character ∈ word, ReadsAs true (doubledQuote character) character :=
    fun character hmem ↦ reads_as_doubled_quote (hword character hmem)
  have hbreakless : ∀ character ∈ word, isBreak character = false :=
    fun character hmem ↦ (Bool.or_eq_false_iff.1 (hword character hmem)).2
  by_cases hne : run = []
  · rw [hend hne, hne, List.append_nil] at htext
    rw [htext, single_quoted_lines_append indent hbreakless, List.append_nil]
    simpa [singleQuotedLines, indented, quotedEnding] using QuotedSpelling.word hchars
  · have hlength : more.length < text.length := by
      have hpos := List.length_pos_iff.2 hne
      rw [htext, List.length_append, List.length_append]
      omega
    have hparts := (htext ▸ h).parts
    have hrest := quoted_spelling_single_quoted hindent hparts.2
    have hnext := ends_word_single_quoted_lines indent hmore
    rw [htext, List.append_assoc, single_quoted_lines_append indent hbreakless, ← List.append_assoc]
    obtain hspaces | hbreaks := hparts.1.parts.2.all_spaces_or_all_breaks hrun
    · have hstretch : ReadsAsStretch run run := by
        rw [List.eq_replicate_iff.2 ⟨rfl, hspaces⟩]
        exact reads_as_stretch_spaces (List.length_pos_iff.2 hne)
      have hrunBreak : ∀ character ∈ run, isBreak character = false := by
        intro character hmem
        rw [hspaces character hmem]
        rfl
      rw [single_quoted_lines_append indent hrunBreak, flat_map_doubled_quote hrun,
        ← List.append_assoc]
      exact .round hchars hstretch hnext hrest
    · have hseparators : ∀ separator ∈ run, IsSeparator separator :=
        fun separator hmem ↦ hparts.1.parts.2.is_separator hmem (hbreaks separator hmem)
      have hmoreBreak : ∀ next, more.head? = some next → isBreak next = false :=
        fun next hhead ↦ (Bool.or_eq_false_iff.1 (hmore next hhead)).2
      rw [single_quoted_lines_breaks indent hbreaks hne hmoreBreak, ← List.append_assoc]
      exact .round hchars (reads_as_stretch_separators hseparators hne hindent) hnext hrest
termination_by text.length

/-- A text that the printer writes between single quotes is read back from how it is written there. -/
theorem read_quoted_single_quoted {indent : Nat} (hindent : 0 < indent) {text : List Char}
    (htext : SingleQuotable text) (hrest : rest.head? ≠ some '\'')
    (h : cursor.rest = (singleQuoted indent text).toList ++ rest) :
    ∃ after, readQuoted true cursor = .ok (.scalar text false, after) ∧ after.rest = rest := by
  refine read_quoted_of_spelling (quoted_spelling_single_quoted hindent htext) (fun _ ↦ hrest) ?_
  rw [h]
  simp [singleQuoted, closingQuote]

end ConfigFill.Yaml.TokenKind
