import ConfigFill.Proofs.Yaml.Literal
import ConfigFill.Proofs.Yaml.Plain
import ConfigFill.Proofs.Yaml.Quoted
import ConfigFill.Yaml.Reader

/-!
# YAML documents of one scalar

A text that begins with a scalar and ends after it is read as the node of this scalar
(`read_node_of_read_token`). Such a text has two tokens, the scalar and the end of the text. Which
scalar begins the text is up to its first character, and there is one lemma for each way in which the
printer writes a string (`read_token_quoted`, `read_token_literal` and `read_token_plain`). A key may
still begin at the scalar when it has been read, so the end of the text can be read before the scalar
is sent or after it (`run_after_first`).
-/

namespace ConfigFill.Yaml

namespace Lexer

variable {kind : TokenKind} {after : Cursor} {keyAllowed : Bool} {candidate : Option KeyCandidate}

/-! ## From text to tokens -/

/-- The lexer after the first token of a text, if it opens no block and no flow collection. -/
def afterFirst (kind : TokenKind) (after : Cursor) (keyAllowed : Bool)
    (candidate : Option KeyCandidate) : Lexer where
  cursor := after
  sent := 0
  queue := [⟨kind, .start⟩]
  indent := -1
  outerIndents := []
  keyAllowed := keyAllowed
  candidate := candidate
  outerCandidates := []
  finished := false
  cut := none

/-- The candidate for a key at the start of a text, where no key is required. -/
def firstCandidate : KeyCandidate :=
  ⟨0, .start, false⟩

/-- The lexer starts before the whole text. -/
@[simp]
theorem start_rest (text : List Char) : (Lexer.start text none).cursor.rest = text :=
  rfl

/-- The lexer starts in the first column. -/
@[simp]
theorem start_column (text : List Char) : (Lexer.start text none).cursor.mark.column = 0 :=
  rfl

/-- The lexer starts outside all flow collections. -/
@[simp]
theorem start_in_flow (text : List Char) : (Lexer.start text none).inFlow = false :=
  rfl

/-- A text that begins with a token is read from its first character. -/
theorem read_next_start {first : Char} {others : List Char} (hvisible : isVisible first = true)
    (hbreak : isBreak first = false) (hspace : first ≠ ' ') (hcomment : first ≠ '#') :
    (Lexer.start (first :: others) none).readNext =
      (Lexer.start (first :: others) none).readToken := by
  have hmark : first ≠ '\ufeff' := ne_of_is_visible hvisible (by decide)
  have hskip : ∀ fuel, skipToToken (fuel + 1) (Lexer.start (first :: others) none) =
      Lexer.start (first :: others) none := by
    intro fuel
    simp [skipToToken, Lexer.start, Cursor.ofText, Cursor.isAt, Cursor.skipWhile, Cursor.takeWhile,
      hmark, hspace, hcomment, hbreak, Lexer.inFlow, Cursor.skip_zero]
  rw [readNext, hskip]
  rfl

/-- A first character is no mark of a document if it is another one than such marks consist of. -/
theorem starts_document_mark_of_ne {mark first : Char} (h : first ≠ mark) (others : List Char) :
    startsDocumentMark mark (first :: others) = false := by
  match others with
  | [] | [_] => rfl
  | second :: third :: rest => simp [startsDocumentMark, h]

/-- The first piece of a text may turn out to begin a key. -/
theorem read_piece_start {read : Cursor → Except Fault (TokenKind × Cursor)} {text : List Char}
    (h : read (Cursor.ofText text) = .ok (kind, after)) :
    (Lexer.start text none).readPiece read =
      .ok (afterFirst kind after false (some firstCandidate)) := by
  show ((read (Cursor.ofText text)).map _ : Except Fault Lexer) = _
  rw [h]
  rfl

/-- A text that begins with a quote begins with a quoted scalar. -/
theorem read_token_quoted {single : Bool} {others : List Char}
    (h : TokenKind.readQuoted single (Cursor.ofText (TokenKind.closingQuote single :: others)) =
      .ok (kind, after)) :
    (Lexer.start (TokenKind.closingQuote single :: others) none).readToken =
      .ok (afterFirst kind after false (some firstCandidate)) := by
  rw [← read_piece_start h]
  unfold readToken
  cases single <;> simp [TokenKind.closingQuote, starts_document_mark_of_ne]

/-- A text that begins with a bar begins with a literal block. -/
theorem read_token_literal {others : List Char}
    (h : TokenKind.readBlock true (-1) (Cursor.ofText ('|' :: others)) = .ok (kind, after)) :
    (Lexer.start ('|' :: others) none).readToken = .ok (afterFirst kind after true none) := by
  have hblock : (Lexer.start ('|' :: others) none).readBlockScalar true =
      .ok (afterFirst kind after true none) := by
    show ((TokenKind.readBlock true (-1) (Cursor.ofText ('|' :: others))).map _ :
      Except Fault Lexer) = _
    rw [h]
    rfl
  rw [← hblock]
  unfold readToken
  simp [starts_document_mark_of_ne]

/-- A text that the printer writes without quotes begins like a plain scalar, and none of the
indicators that may begin one stands before a blank there. -/
theorem starts_plain_of_allows_plain {first : Char} {others : List Char}
    (h : Style.allowsPlain (first :: others) = true) :
    startsPlain false (first :: (others ++ ['\n'])) = true ∧
      (first = '-' ∨ first = '?' ∨ first = ':' → endsWord (others ++ ['\n']) = false) := by
  obtain ⟨hfirst, hblank⟩ := TokenKind.first_of_allows_plain h rfl
  have hword : first = '-' ∨ first = '?' ∨ first = ':' → endsWord (others ++ ['\n']) = false := by
    intro hkind
    refine TokenKind.ends_word_append (TokenKind.ends_word_of_not_followed_by_blank ?_) ['\n']
    refine (Bool.and_eq_false_iff.1 hblank).resolve_left ?_
    obtain rfl | rfl | rfl := hkind <;> decide
  refine ⟨?_, hword⟩
  by_cases hkind : first = '-' ∨ first = '?' ∨ first = ':'
  · have hrest := hword hkind
    have hhead : ((others ++ ['\n']).head?.map isBlank).getD false = false := by
      cases others with
      | nil => rfl
      | cons next others => exact (Bool.or_eq_false_iff.1 hrest).1
    rw [startsPlain, hhead, hrest]
    obtain rfl | rfl | rfl := hkind <;> decide
  · have hspacing : isSpacing first = false := by
      refine Bool.eq_false_iff.2 fun hspacing ↦ ?_
      have hspace := (TokenKind.plain_rest_of_allows_plain h).blank first List.mem_cons_self hspacing
      simp [Style.allowsPlain, Style.hasOuterSpace, hspace] at h
    simp only [not_or] at hkind
    simp at hfirst
    simp [startsPlain, isIndicator, hspacing, hfirst, hkind]

/-- A text that begins like a plain scalar begins with one. -/
theorem read_token_plain {text : List Char} {ended : Bool} (htext : Style.allowsPlain text = true)
    (hne : text ≠ [])
    (h : TokenKind.readPlain false (-1) (Cursor.ofText (text ++ ['\n'])) = .ok (kind, ended, after)) :
    (Lexer.start (text ++ ['\n']) none).readToken =
      .ok (afterFirst kind after ended (some firstCandidate)) := by
  obtain ⟨hdash, hdot⟩ := TokenKind.document_marks_of_allows_plain htext
  obtain ⟨first, others, rfl⟩ := List.exists_cons_of_ne_nil hne
  obtain ⟨hfirst, _⟩ := TokenKind.first_of_allows_plain htext rfl
  obtain ⟨hstarts, hword⟩ := starts_plain_of_allows_plain htext
  have hplain : (Lexer.start (first :: others ++ ['\n']) none).readPlain =
      .ok (afterFirst kind after ended (some firstCandidate)) := by
    show ((TokenKind.readPlain false (-1) (Cursor.ofText (first :: others ++ ['\n']))) >>= _ :
      Except Fault Lexer) = _
    rw [h]
    rfl
  have hentry : ¬ (first = '-' ∧ endsWord (others ++ ['\n']) = true) :=
    fun hentry ↦ Bool.false_ne_true ((hword (.inl hentry.1)).symm.trans hentry.2)
  have hkey : ¬ (first = '?' ∧ endsWord (others ++ ['\n']) = true) :=
    fun hkey ↦ Bool.false_ne_true ((hword (.inr (.inl hkey.1))).symm.trans hkey.2)
  have hvalue : ¬ (first = ':' ∧ endsWord (others ++ ['\n']) = true) :=
    fun hvalue ↦ Bool.false_ne_true ((hword (.inr (.inr hvalue.1))).symm.trans hvalue.2)
  rw [← hplain]
  unfold readToken
  simp at hfirst hdash hdot ⊢
  simp [hdash, hdot, hfirst, hstarts, hentry, hkey, hvalue]

/-- Nothing but the end of the text follows: the cursor is there, or before the end of a line. -/
def IsLast (cursor : Cursor) : Prop :=
  cursor.rest = [] ∨ cursor.rest = ['\n']

/-- At the end of the text there is nothing to pass over. -/
theorem skip_to_token_of_end {lexer : Lexer} (h : lexer.cursor.rest = []) (fuel : Nat) :
    skipToToken fuel lexer = lexer := by
  have hat : ∀ character, lexer.cursor.isAt character = false := by
    simp [Cursor.isAt, h]
  have hskip : ∀ inClass, lexer.cursor.skipWhile inClass = lexer.cursor := by
    simp [Cursor.skipWhile, Cursor.takeWhile, h, Cursor.skip_zero]
  cases fuel with
  | zero => rfl
  | succ fuel =>
      rw [skipToToken]
      simp only [hat, hskip, Bool.and_false, Bool.false_eq_true, if_false]
      rw [h]

/-- The end of the last line is passed over up to the end of the text. -/
theorem skip_to_token_of_last_line {lexer : Lexer} (h : lexer.cursor.rest = ['\n']) (fuel : Nat) :
    skipToToken (fuel + 1) lexer =
      { lexer with
        cursor := ⟨[], lexer.cursor.mark.nextLine ['\n']⟩
        keyAllowed := lexer.keyAllowed || !lexer.inFlow } := by
  have hat : ∀ character, character ≠ '\n' → lexer.cursor.isAt character = false := by
    intro character hne
    simp [Cursor.isAt, h, Ne.symm hne]
  have hskip : ∀ inClass : Char → Bool, inClass '\n' = false →
      lexer.cursor.skipWhile inClass = lexer.cursor := by
    intro inClass hclass
    simp [Cursor.skipWhile, Cursor.takeWhile, h, hclass, Cursor.skip_zero]
  have hbreak : lexer.cursor.skipBreak = ⟨[], lexer.cursor.mark.nextLine ['\n']⟩ := by
    simp [Cursor.skipBreak, Cursor.takeBreak, h, isBreak]
  have hline : isBreak '\n' = true := rfl
  rw [skipToToken]
  simp only [hat '\ufeff' (by decide), Bool.and_false, Bool.false_eq_true, if_false]
  rw [hskip _ (by simp), hat '#' (by decide), if_neg Bool.false_ne_true, h]
  simp only [hline, if_true, hbreak]
  exact skip_to_token_of_end rfl fuel

/-- No key is required at the candidate, if there is one. -/
def IsOptional (candidate : Option KeyCandidate) : Prop :=
  ∀ found, candidate = some found → found.required = false

/-- A candidate at which no key is required can be dropped without a fault. -/
theorem drop_candidate_of_optional {lexer : Lexer} (h : IsOptional lexer.candidate) :
    lexer.dropCandidate = .ok { lexer with candidate := none } := by
  rw [dropCandidate]
  cases hcandidate : lexer.candidate with
  | none =>
      simp only
      rw [← hcandidate]
  | some found => simp [h found hcandidate]

/-- Outside flow collections, a candidate at which no key is required stays or is dropped. -/
theorem drop_stale_of_optional {lexer : Lexer} (h : IsOptional lexer.candidate)
    (hflow : lexer.outerCandidates = []) :
    ∃ kept, IsOptional kept ∧ lexer.dropStale = .ok { lexer with candidate := kept } := by
  have hrefreshed : ∃ kept, IsOptional kept ∧ lexer.refreshed lexer.candidate = .ok kept := by
    cases hcandidate : lexer.candidate with
    | none => exact ⟨none, by simp [IsOptional], rfl⟩
    | some found =>
        have hoptional := h found hcandidate
        by_cases hstale : lexer.isStale found = true
        · exact ⟨none, by simp [IsOptional], by simp [refreshed, hstale, hoptional]⟩
        · exact ⟨some found, hcandidate ▸ h, by simp [refreshed, hstale]⟩
  obtain ⟨kept, hkept, hrefreshed⟩ := hrefreshed
  refine ⟨kept, hkept, ?_⟩
  rw [dropStale, hflow, hrefreshed, ← hflow]
  simp [hflow, bind, Except.bind, pure, Except.pure]

/-- Where no block is open, none is closed. -/
theorem dedent_to_of_no_blocks {lexer : Lexer} (h : lexer.outerIndents = []) (column : Int) :
    lexer.dedentTo column = lexer := by
  simp [dedentTo, h, closeBlocks]

/-- The lexer past the end of the text, where no block is open and no key is required. -/
def finishedAt (lexer : Lexer) (mark : Mark) : Lexer :=
  { lexer with
    cursor := ⟨[], mark⟩
    queue := lexer.queue ++ [⟨.streamEnd, mark⟩]
    keyAllowed := false
    candidate := none
    finished := true }

/-- Where no block is open and no key is required, the end of the text is a token. -/
theorem read_end_of_no_blocks {lexer : Lexer} (hrest : lexer.cursor.rest = [])
    (h : IsOptional lexer.candidate) (hindents : lexer.outerIndents = []) :
    ∃ mark, lexer.readEnd = .ok (lexer.finishedAt mark) := by
  obtain ⟨mark, hmark⟩ : ∃ mark, mark =
      if lexer.cursor.mark.column == 0 then lexer.cursor.mark
      else ⟨lexer.cursor.mark.index, lexer.cursor.mark.line + 1, 0⟩ := ⟨_, rfl⟩
  refine ⟨mark, ?_⟩
  rw [readEnd, ← hmark, dedent_to_of_no_blocks (by exact hindents)]
  rw [drop_candidate_of_optional (by exact h)]
  simp [finishedAt, take, push, hrest, Cursor.skip_zero, bind, Except.bind, pure, Except.pure]

/-- After the only token of a text comes the end of the text. -/
theorem advance_end {lexer : Lexer} (hcut : lexer.cut = none) (hlast : IsLast lexer.cursor)
    (h : IsOptional lexer.candidate) (hindents : lexer.outerIndents = [])
    (hflow : lexer.outerCandidates = []) :
    ∃ mark, lexer.advance = .ok (lexer.finishedAt mark) := by
  obtain ⟨mark, keyAllowed, hskip⟩ : ∃ mark keyAllowed,
      skipToToken (lexer.cursor.rest.length + 1) lexer =
        { lexer with cursor := ⟨[], mark⟩, keyAllowed := keyAllowed } := by
    obtain hrest | hrest := hlast
    · refine ⟨lexer.cursor.mark, lexer.keyAllowed, ?_⟩
      rw [skip_to_token_of_end hrest, ← hrest]
    · exact ⟨_, _, skip_to_token_of_last_line hrest _⟩
  obtain ⟨kept, hkept, hstale⟩ := @drop_stale_of_optional
    { lexer with cursor := ⟨[], mark⟩, keyAllowed := keyAllowed } h hflow
  obtain ⟨final, hend⟩ := @read_end_of_no_blocks
    { lexer with cursor := ⟨[], mark⟩, keyAllowed := keyAllowed, candidate := kept } rfl hkept
    hindents
  refine ⟨final, ?_⟩
  rw [advance, hcut, readNext, hskip, hstale]
  show readToken (dedentTo _ _) = _
  rw [dedent_to_of_no_blocks (by exact hindents)]
  exact hend

section Run

variable {lexer kept next : Lexer} {token : Token} {others : List Token}

/-- With an empty queue, a token is read. -/
theorem run_of_empty (hqueue : lexer.queue = []) (hfinished : lexer.finished = false)
    (hadvance : lexer.advance = .ok next) (fuel : Nat) : lexer.run (fuel + 1) = next.run fuel := by
  rw [run, hqueue]
  simp [hfinished, hadvance]

/-- As long as a key can begin at the token in front, a token is read. -/
theorem run_of_candidate (hqueue : lexer.queue = token :: others)
    (hstale : lexer.dropStale = .ok kept) (hfront : kept.frontIsCandidate = true)
    (hadvance : kept.advance = .ok next) (fuel : Nat) :
    lexer.run (fuel + 1) = next.run fuel := by
  rw [run, hqueue]
  simp [hstale, hfront, hadvance]

/-- When no key can begin at the token in front any more, it is sent. -/
theorem run_of_no_candidate (hqueue : lexer.queue = token :: others)
    (hstale : lexer.dropStale = .ok kept) (hfront : kept.frontIsCandidate = false) {fuel : Nat}
    {tokens : List Token} {fault : Option Fault}
    (hothers : run fuel { kept with sent := kept.sent + 1, queue := others } = (tokens, fault)) :
    lexer.run (fuel + 1) = (token :: tokens, fault) := by
  rw [run, hqueue]
  simp [hstale, hfront, hothers]

/-- At the end of the text, where no key can begin any more, the tokens in the queue are sent. -/
theorem run_of_finished (hfinished : lexer.finished = true) (hcandidate : lexer.candidate = none)
    (hflow : lexer.outerCandidates = []) {fuel : Nat} (hfuel : lexer.queue.length < fuel) :
    lexer.run fuel = (lexer.queue, none) := by
  induction fuel generalizing lexer with
  | zero => cases hfuel
  | succ fuel ih =>
      have hstale : lexer.dropStale = .ok lexer := by
        simp only [dropStale, hflow, hcandidate, refreshed, bind, Except.bind, pure, Except.pure,
          List.reverse_nil, List.mapM_nil]
        rw [← hcandidate, ← hflow]
      have hfront : lexer.frontIsCandidate = false := by
        simp [frontIsCandidate, hcandidate, hflow]
      cases hqueue : lexer.queue with
      | nil =>
          rw [run, hqueue]
          simp [hfinished]
      | cons token others =>
          have hothers := @ih { lexer with sent := lexer.sent + 1, queue := others } hfinished
            hcandidate hflow (by simpa [hqueue] using hfuel)
          exact run_of_no_candidate hqueue hstale hfront hothers

end Run

/-- A text of one scalar has the tokens of the scalar and of the end of the text. -/
theorem run_after_first (hlast : IsLast after) (h : IsOptional candidate) (fuel : Nat) :
    ∃ mark, (afterFirst kind after keyAllowed candidate).run (fuel + 4) =
      ([⟨kind, .start⟩, ⟨.streamEnd, mark⟩], none) := by
  obtain ⟨kept, hkept, hstale⟩ : ∃ kept, IsOptional kept ∧
      (afterFirst kind after keyAllowed candidate).dropStale =
        .ok (afterFirst kind after keyAllowed kept) :=
    drop_stale_of_optional h rfl
  cases hfront : (afterFirst kind after keyAllowed kept).frontIsCandidate with
  | true =>
      obtain ⟨mark, hnext⟩ : ∃ mark, (afterFirst kind after keyAllowed kept).advance =
          .ok ((afterFirst kind after keyAllowed kept).finishedAt mark) :=
        advance_end rfl hlast hkept rfl rfl
      refine ⟨mark, ?_⟩
      rw [run_of_candidate rfl hstale hfront hnext]
      exact run_of_finished rfl rfl rfl (by simp [finishedAt, afterFirst])
  | false =>
      obtain ⟨mark, hnext⟩ := @advance_end
        { afterFirst kind after keyAllowed kept with sent := 1, queue := [] } rfl hlast hkept rfl rfl
      refine ⟨mark, run_of_no_candidate rfl hstale hfront ?_⟩
      exact (run_of_empty rfl rfl hnext _).trans
        (run_of_finished rfl rfl rfl (by simp [finishedAt]))

/-- A character that can stand for itself is one that a text may hold. -/
theorem is_allowed_of_is_visible {character : Char} (h : isVisible character = true) :
    isAllowed character = true := by
  simp only [isVisible, isAllowed, Bool.or_eq_true, Bool.and_eq_true, beq_iff_eq, bne_iff_ne, ne_eq,
    decide_eq_true_eq] at h ⊢
  omega

/-- A text of characters that can stand for themselves is read to its end. -/
theorem cut_eq_none {text : List Char} (h : ∀ character ∈ text, isVisible character = true)
    (block offset : Nat) : cut? block offset text = none := by
  induction text generalizing block offset with
  | nil => rfl
  | cons next others ih =>
      rw [cut?, if_pos (is_allowed_of_is_visible (h next List.mem_cons_self))]
      exact ih (fun other hmem ↦ h other (List.mem_cons_of_mem next hmem)) _ _

/-- A text that begins with a scalar and ends after it has the tokens of the scalar and of the end of
the text. -/
theorem tokenize_of_read_token {text : List Char} {first : Char} {others : List Char}
    (htext : text = first :: others) (hvisible : ∀ character ∈ text, isVisible character = true)
    (hbreak : isBreak first = false) (hspace : first ≠ ' ') (hcomment : first ≠ '#')
    (hread : (Lexer.start text none).readToken = .ok (afterFirst kind after keyAllowed candidate))
    (hlast : IsLast after) (hcandidate : IsOptional candidate) :
    ∃ mark, tokenize text = ([⟨kind, .start⟩, ⟨.streamEnd, mark⟩], none) := by
  obtain ⟨mark, hrun⟩ := @run_after_first kind after keyAllowed candidate hlast hcandidate
    (8 * text.length + 11)
  have hnext : (Lexer.start text none).advance =
      .ok (afterFirst kind after keyAllowed candidate) := by
    subst htext
    exact (read_next_start (hvisible first List.mem_cons_self) hbreak hspace hcomment).trans hread
  refine ⟨mark, ?_⟩
  rw [tokenize, cut_eq_none hvisible 0 0]
  exact (run_of_empty rfl rfl hnext _).trans hrun

end Lexer

/-! ## From tokens to a node -/

/-- A scalar is read as its node. -/
theorem Document.read_node_scalar {document : Document} {place : Place} {scalar : List Char}
    {plain : Bool} {mark : Mark}
    (h : document.events[place.position]? = some ⟨.scalar .none scalar plain, mark⟩)
    (fuel depth : Nat) (location : Location) :
    Document.readNode document (fuel + 1) depth location place =
      (scalarNode none (String.ofList scalar) plain location mark).map fun node ↦
        (node, { place with position := place.position + 1 }) := by
  rw [Document.readNode, eventAt, h]
  cases hnode : scalarNode none (String.ofList scalar) plain location mark <;>
    simp [Properties.none, hnode, bind, Except.bind, pure, Except.pure, Except.map]

/-- The root of a document of one scalar is that of the scalar. -/
theorem Document.root_scalar {document : Document} {scalar : List Char} {plain : Bool} {mark : Mark}
    (hfault : document.fault = none)
    (hevents : document.events = #[⟨.scalar .none scalar plain, mark⟩]) :
    document.root = scalarNode none (String.ofList scalar) plain .root mark := by
  have hfirst : document.events[0]? = some ⟨.scalar .none scalar plain, mark⟩ := by
    simp [hevents]
  obtain ⟨fuel, hfuel⟩ : ∃ fuel, 3 * (document.events.size + 1) *
      (100 * (document.events.size + 1) + 1) = fuel + 1 :=
    Nat.exists_eq_succ_of_ne_zero (by simp)
  have hread := @read_node_scalar document ⟨0, 0⟩ _ _ _ hfirst fuel depthLimit .root
  rw [root]
  dsimp only
  rw [hfuel, hread]
  cases scalarNode none (String.ofList scalar) plain .root mark <;>
    simp [hfault, bind, Except.bind, pure, Except.pure, Except.map]

/-- The node of a text that has one scalar is that of the scalar. -/
theorem read_node_of_tokenize {text scalar : List Char} {plain : Bool} {mark : Mark}
    (h : tokenize text = ([⟨.scalar scalar plain, .start⟩, ⟨.streamEnd, mark⟩], none)) :
    readNode text = Document.scalarNode none (String.ofList scalar) plain .root .start := by
  have hevents : events [⟨.scalar scalar plain, .start⟩, ⟨.streamEnd, mark⟩] none =
      ([⟨.documentStart, .start⟩, ⟨.scalar .none scalar plain, .start⟩, ⟨.documentEnd, mark⟩],
        none) :=
    rfl
  have hroot : Document.root ⟨#[⟨.scalar .none scalar plain, .start⟩], [], [], none⟩ =
      Document.scalarNode none (String.ofList scalar) plain .root .start :=
    Document.root_scalar rfl rfl
  rw [readNode, h]
  dsimp only
  rw [hevents]
  show (Document.root ⟨#[⟨.scalar .none scalar plain, .start⟩], [], [], none⟩ >>= _) = _
  rw [hroot]
  cases Document.scalarNode none (String.ofList scalar) plain .root .start <;> rfl

/-- A text that begins with a scalar and ends after it is read as the node of the scalar. -/
theorem read_node_of_read_token {scalar : List Char} {plain keyAllowed : Bool} {after : Cursor}
    {candidate : Option KeyCandidate} {first : Char} {others : List Char}
    (hvisible : ∀ character ∈ first :: others, isVisible character = true)
    (hbreak : isBreak first = false) (hspace : first ≠ ' ') (hcomment : first ≠ '#')
    (hread : (Lexer.start (first :: others) none).readToken =
      .ok (Lexer.afterFirst (.scalar scalar plain) after keyAllowed candidate))
    (hlast : Lexer.IsLast after) (hcandidate : Lexer.IsOptional candidate) :
    readNode (first :: others) =
      Document.scalarNode none (String.ofList scalar) plain .root .start := by
  obtain ⟨mark, htokens⟩ := Lexer.tokenize_of_read_token rfl hvisible hbreak hspace hcomment hread
    hlast hcandidate
  exact read_node_of_tokenize htokens

end ConfigFill.Yaml
