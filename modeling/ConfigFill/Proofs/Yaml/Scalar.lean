import ConfigFill.Proofs.Tree.Shape
import ConfigFill.Proofs.Yaml.Document
import ConfigFill.Yaml.Printer

/-!
# Scalars in YAML, written and read

A document that the printer writes for one scalar is read as the scalar, unless it is a
floating-point number (`parse_render_of_is_scalar`). A string is read back in whichever style it is
written (`read_node_string`). All of the document must consist of characters that a text may hold,
which is what the first section is about. Every other scalar is written without quotes, and then it
remains to show that its text means the scalar.
-/

namespace ConfigFill.Yaml

/-! ## Characters of what is written -/

/-- A hexadecimal digit can stand for itself. -/
theorem is_visible_of_digit_value {digit : Char} (h : Text.digitValue digit < 16) :
    isVisible digit = true := by
  have hrange : 0x30 ≤ digit.toNat ∧ digit.toNat ≤ 0x66 := by
    have h0 : '0'.toNat = 0x30 := rfl
    have h9 : '9'.toNat = 0x39 := rfl
    have ha : 'a'.toNat = 0x61 := rfl
    have hf : 'f'.toNat = 0x66 := rfl
    have hA : 'A'.toNat = 0x41 := rfl
    have hF : 'F'.toNat = 0x46 := rfl
    unfold Text.digitValue at h
    simp only [Char.isDigit, Bool.and_eq_true, decide_eq_true_eq, ge_iff_le, Char.le_def,
      UInt32.le_iff_toNat_le] at h
    simp only [Char.toNat] at *
    split at h
    · omega
    · split at h
      · omega
      · split at h <;> omega
  simp only [isVisible, Bool.or_eq_true, Bool.and_eq_true, decide_eq_true_eq]
  omega

/-- An escape consists of characters that can stand for themselves. -/
theorem is_visible_of_mem_escape {source character : Char} (h : character ∈ escape source) :
    isVisible character = true := by
  have hhex : ∀ width number, character ∈ hexText width number → isVisible character = true := by
    intro width number hmem
    refine is_visible_of_digit_value ?_
    obtain hzero | hdigit := List.mem_append.1 hmem
    · rw [List.eq_of_mem_replicate hzero]
      decide
    · exact Text.digit_value_lt_sixteen hdigit
  have hletters : character = '\\' ∨ character ∈ "0abtnvfre\"\\N_LPxuU".toList ∨
      ∃ width number, character ∈ hexText width number := by
    unfold escape at h
    split at h
    case h_16 =>
      dsimp only at h
      repeat' split at h
      all_goals
        simp only [List.mem_cons] at h
        obtain h | h | h := h
        · exact .inl h
        · exact .inr (.inl (by rw [h]; decide))
        · exact .inr (.inr ⟨_, _, h⟩)
    all_goals
      simp only [List.mem_cons, List.not_mem_nil, or_false] at h
      obtain h | h := h
      · exact .inl h
      · exact .inr (.inl (by rw [h]; decide))
  obtain rfl | hletter | ⟨width, number, hdigit⟩ := hletters
  · decide
  · have hall : "0abtnvfre\"\\N_LPxuU".toList.all isVisible = true := by decide
    exact List.all_eq_true.1 hall character hletter
  · exact hhex width number hdigit

/-- What is written for a text between double quotes can stand for itself. -/
theorem is_visible_of_mem_double_quoted {text : List Char} {character : Char}
    (h : character ∈ (doubleQuoted text).toList) : isVisible character = true := by
  simp only [doubleQuoted, String.toList_ofList, List.mem_cons, List.mem_append, List.cons_append,
    List.mem_flatMap, List.not_mem_nil, or_false] at h
  obtain rfl | ⟨source, _, hshown⟩ | rfl := h
  · decide
  · unfold quotedChar at hshown
    split at hshown
    · exact is_visible_of_mem_escape hshown
    · rename_i hself
      simp only [Bool.or_eq_true, Bool.not_eq_true', not_or, Bool.not_eq_false] at hself
      rw [List.mem_singleton.1 hshown]
      exact hself.1.1.1
  · decide

/-- Indentation adds nothing but the padding. -/
theorem mem_of_mem_indented {padding text : List Char} {broken : Bool} {character : Char}
    (h : character ∈ indented padding broken text) : character ∈ padding ∨ character ∈ text := by
  induction text generalizing broken with
  | nil => cases h
  | cons next others ih =>
      have hrest : ∀ broken, character ∈ indented padding broken others →
          character ∈ padding ∨ character ∈ next :: others :=
        fun _ hmem ↦ (ih hmem).imp_right (List.mem_cons_of_mem next)
      unfold indented at h
      split at h
      · obtain rfl | hmem := List.mem_cons.1 h
        · exact .inr List.mem_cons_self
        · exact hrest _ hmem
      · split at h
        · obtain hpadding | h := List.mem_append.1 h
          · exact .inl hpadding
          · obtain rfl | hmem := List.mem_cons.1 h
            · exact .inr List.mem_cons_self
            · exact hrest _ hmem
        · obtain rfl | hmem := List.mem_cons.1 h
          · exact .inr List.mem_cons_self
          · exact hrest _ hmem

section Visible

variable {text : List Char} (htext : ∀ character ∈ text, isVisible character = true)
include htext

/-- What is written for a visible text with indentation can stand for itself. -/
theorem is_visible_of_mem_indented {indent : Nat} {broken : Bool} {character : Char}
    (h : character ∈ indented (List.replicate indent ' ') broken text) :
    isVisible character = true := by
  obtain hpadding | hmem := mem_of_mem_indented h
  · rw [List.eq_of_mem_replicate hpadding]
    decide
  · exact htext character hmem

/-- What is written for a visible text between single quotes can stand for itself. -/
theorem is_visible_of_mem_single_quoted {indent : Nat} {character : Char}
    (h : character ∈ (singleQuoted indent text).toList) : isVisible character = true := by
  have hdoubled : ∀ character ∈ text.flatMap doubledQuote, isVisible character = true := by
    intro character hmem
    obtain ⟨source, hsource, hshown⟩ := List.mem_flatMap.1 hmem
    have hvisible := htext source hsource
    unfold doubledQuote at hshown
    split at hshown
    · rename_i hquote
      rw [show character = source by simpa [hquote] using hshown]
      exact hvisible
    · rw [List.mem_singleton.1 hshown]
      exact hvisible
  have hending : ∀ character ∈ quotedEnding indent text, isVisible character = true := by
    intro character hmem
    unfold quotedEnding at hmem
    split at hmem
    · rw [List.eq_of_mem_replicate hmem]
      decide
    · cases hmem
  simp only [singleQuoted, singleQuotedLines, String.toList_ofList, List.cons_append, List.mem_cons,
    List.mem_append, List.not_mem_nil, or_false] at h
  obtain rfl | (hlines | hend) | rfl := h
  · decide
  · exact is_visible_of_mem_indented hdoubled hlines
  · exact hending character hend
  · decide

/-- What is written for a visible text as a literal block can stand for itself. -/
theorem is_visible_of_mem_literal {indent : Nat} {character : Char}
    (h : character ∈ (literal indent text).toList) : isVisible character = true := by
  have hmarks : ∀ chomping : TokenKind.Chomping, chomping.mark.all isVisible = true := by
    intro chomping
    cases chomping <;> decide
  obtain ⟨chomping, hchomping⟩ := TokenKind.exists_chomping_mark text
  rw [TokenKind.to_list_literal, hchomping, List.mem_cons, List.mem_append, List.mem_append,
    List.mem_cons] at h
  obtain rfl | (hhint | hmark) | rfl | hlines := h
  · decide
  · split at hhint
    · rw [List.mem_singleton.1 hhint]
      decide
    · cases hhint
  · exact List.all_eq_true.1 (hmarks chomping) character hmark
  · decide
  · exact is_visible_of_mem_indented htext hlines

end Visible

/-- What stands at the end of a document after a literal block can stand for itself. -/
theorem is_visible_of_mem_line_ending {text : List Char} {character : Char}
    (h : character ∈ TokenKind.lineEnding text) : isVisible character = true := by
  unfold TokenKind.lineEnding at h
  split at h
  · cases h
  · rw [List.mem_singleton.1 h]
    decide

/-! ## Documents of one string -/

section Documents

open TokenKind (lineEnding)

variable {text : List Char}

/-- A text without quotes is read as what a plain scalar of this text means. -/
theorem read_node_plain (h : Style.allowsPlain text = true) (hne : text ≠ []) :
    readNode (text ++ ['\n']) = Document.plainNode (String.ofList text) .root .start := by
  obtain ⟨first, others, rfl⟩ := List.exists_cons_of_ne_nil hne
  have hcolumn : (-1 : Int) < (Cursor.ofText (first :: others ++ ['\n'])).mark.column :=
    Int.negSucc_lt_zero 0
  obtain ⟨ended, after, hread, hafter⟩ := TokenKind.read_plain_of_allows_plain h hne hcolumn rfl
  have hvisible := TokenKind.visible_of_allows_plain h
  have hspace : first ≠ ' ' := by
    intro hspace
    simp [Style.allowsPlain, Style.hasOuterSpace, hspace] at h
  have hcomment : first ≠ '#' := by
    intro hcomment
    have hindicator := (TokenKind.first_of_allows_plain h rfl).1
    rw [hcomment] at hindicator
    exact absurd hindicator (by decide)
  have hdocument : ∀ character ∈ first :: others ++ ['\n'], isVisible character = true :=
    List.forall_mem_append.2
      ⟨fun character hmem ↦ (hvisible character hmem).1, List.forall_mem_singleton.2 rfl⟩
  exact read_node_of_read_token hdocument (hvisible first List.mem_cons_self).2 hspace hcomment
    (Lexer.read_token_plain h hne hread) (.inl hafter)
    (by simp [Lexer.IsOptional, Lexer.firstCandidate])

/-- What stands between quotes on a line is read as the text that it is a scalar of. -/
theorem read_node_quoted {single : Bool} {written : List Char} {after : Cursor}
    (hquote : written.head? = some (TokenKind.closingQuote single))
    (hvisible : ∀ character ∈ written, isVisible character = true)
    (hread : TokenKind.readQuoted single (Cursor.ofText (written ++ ['\n'])) =
      .ok (.scalar text false, after))
    (hafter : after.rest = ['\n']) :
    readNode (written ++ ['\n']) = .ok (.text (String.ofList text)) := by
  obtain ⟨others, rfl⟩ := List.head?_eq_some_iff.1 hquote
  have hdocument : ∀ character ∈ TokenKind.closingQuote single :: others ++ ['\n'],
      isVisible character = true :=
    List.forall_mem_append.2 ⟨hvisible, List.forall_mem_singleton.2 rfl⟩
  refine read_node_of_read_token hdocument ?_ ?_ ?_ (Lexer.read_token_quoted hread) (.inr hafter)
    (by simp [Lexer.IsOptional, Lexer.firstCandidate])
  all_goals cases single <;> decide

/-- A text between double quotes is read as the text. -/
theorem read_node_double_quoted (text : List Char) :
    readNode ((doubleQuoted text).toList ++ ['\n']) = .ok (.text (String.ofList text)) := by
  obtain ⟨after, hread, hafter⟩ := @TokenKind.read_quoted_double_quoted
    (Cursor.ofText ((doubleQuoted text).toList ++ ['\n'])) ['\n'] text rfl
  exact read_node_quoted (by simp [doubleQuoted, TokenKind.closingQuote])
    (fun _ ↦ is_visible_of_mem_double_quoted) hread hafter

/-- A text between single quotes is read as the text. -/
theorem read_node_single_quoted {indent : Nat} (hindent : 0 < indent)
    (h : TokenKind.SingleQuotable text) :
    readNode ((singleQuoted indent text).toList ++ ['\n']) = .ok (.text (String.ofList text)) := by
  obtain ⟨after, hread, hafter⟩ := @TokenKind.read_quoted_single_quoted
    (Cursor.ofText ((singleQuoted indent text).toList ++ ['\n'])) ['\n'] indent hindent text h
    (by simp) rfl
  exact read_node_quoted (by simp [singleQuoted, TokenKind.closingQuote])
    (fun _ ↦ is_visible_of_mem_single_quoted h.visible) hread hafter

/-- A text as a literal block is read as the text. -/
theorem read_node_literal (h : Style.allowsLiteral text = true) (hne : text ≠ []) :
    readNode ((literal 2 text).toList ++ lineEnding text) = .ok (.text (String.ofList text)) := by
  have hvisible := TokenKind.visible_of_allows_literal h
  obtain ⟨others, hothers⟩ : ∃ others,
      (literal 2 text).toList ++ lineEnding text = '|' :: others := by
    simp [TokenKind.to_list_literal]
  have hdocument : ∀ character ∈ (literal 2 text).toList ++ lineEnding text,
      isVisible character = true :=
    List.forall_mem_append.2
      ⟨fun _ ↦ is_visible_of_mem_literal hvisible, fun _ ↦ is_visible_of_mem_line_ending⟩
  have hindent : (max (-1 : Int) 0).toNat + 2 = 2 := rfl
  obtain ⟨after, hread, hafter⟩ := @TokenKind.read_block_literal
    (Cursor.ofText ((literal 2 text).toList ++ lineEnding text)) text h hne (-1)
    (by rw [hindent]; rfl)
  rw [hothers] at hread hdocument ⊢
  have htoken := Lexer.read_token_literal hread
  exact read_node_of_read_token hdocument (by decide) (by decide) (by decide) htoken (.inl hafter)
    (by simp [Lexer.IsOptional])

end Documents

/-! ## Strings -/

/-- A text that the printer writes without quotes is a text as a plain scalar, and has characters. -/
theorem of_eq_plain {text : String} (h : Style.of text = .plain) :
    Meaning.of text = .text ∧ Style.allowsPlain text.toList = true ∧ text.toList ≠ [] := by
  unfold Style.of at h
  dsimp only at h
  split at h
  · split at h <;> cases h
  · split at h
    · rename_i hplain
      simp only [Style.isAmbiguous, Bool.and_eq_true, Bool.not_eq_true', Bool.or_eq_false_iff,
        bne_eq_false_iff_eq] at hplain
      obtain ⟨⟨hmeaning, _⟩, hallows⟩ := hplain
      refine ⟨hmeaning, hallows, fun hempty ↦ ?_⟩
      rw [String.toList_eq_nil_iff.1 hempty] at hmeaning
      cases hmeaning
    · split at h <;> cases h

/-- A text that the printer writes between single quotes can be written so. -/
theorem of_eq_single_quoted {text : String} (h : Style.of text = .singleQuoted) :
    TokenKind.SingleQuotable text.toList := by
  unfold Style.of at h
  dsimp only at h
  split at h
  · split at h <;> cases h
  · rename_i hfeed
    split at h
    · cases h
    · split at h
      · rename_i hallows
        exact .of_allows_single_quoted hallows (by simpa using hfeed)
      · cases h

/-- A text that the printer writes as a literal block can be written so, and has characters. -/
theorem of_eq_literal {text : String} (h : Style.of text = .literal) :
    Style.allowsLiteral text.toList = true ∧ text.toList ≠ [] := by
  unfold Style.of at h
  dsimp only at h
  split at h
  · rename_i hfeed
    split at h
    · rename_i hallows
      refine ⟨hallows, fun hempty ↦ ?_⟩
      rw [hempty] at hfeed
      cases hfeed
    · cases h
  · split at h
    · cases h
    · split at h <;> cases h

/-- What is indented ends as the text does. -/
theorem get_last_indented (padding : List Char) (broken : Bool) (text : List Char) :
    (indented padding broken text).getLast? = text.getLast? := by
  induction text generalizing broken with
  | nil => rfl
  | cons next others ih =>
      unfold indented
      repeat' split
      all_goals simp [List.getLast?_cons, ih]

/-- A document ends in a line feed after a text without quotes. -/
theorem line_ending_of_allows_plain {text : List Char} (h : Style.allowsPlain text = true) :
    TokenKind.lineEnding text = ['\n'] := by
  unfold TokenKind.lineEnding
  cases hlast : text.getLast? with
  | none => rfl
  | some last =>
      have hbreak := (TokenKind.visible_of_allows_plain h last (List.mem_of_getLast? hlast)).2
      simp [hbreak]

/-- A document ends after a literal block as the text requires. -/
theorem line_ending_literal (indent : Nat) {text : List Char} (hne : text ≠ []) :
    TokenKind.lineEnding (literal indent text).toList = TokenKind.lineEnding text := by
  unfold TokenKind.lineEnding
  rw [TokenKind.to_list_literal, List.getLast?_cons, List.getLast?_append, List.getLast?_cons,
    get_last_indented, List.getLast?_eq_some_getLast hne]
  rfl

/-- A document of one string is read as the string. -/
theorem read_node_string (text : String) :
    readNode ((stringText 2 text).toList ++ TokenKind.lineEnding (stringText 2 text).toList) =
      .ok (.text text) := by
  have hquoted : ∀ (front : List Char) (quote : Char), isBreak quote = false →
      TokenKind.lineEnding (front ++ [quote]) = ['\n'] := by
    intro front quote hquote
    simp [TokenKind.lineEnding, hquote]
  cases hstyle : Style.of text with
  | plain =>
      obtain ⟨hmeaning, hallows, hne⟩ := of_eq_plain hstyle
      rw [stringText, hstyle]
      dsimp only
      rw [line_ending_of_allows_plain hallows, read_node_plain hallows hne, String.ofList_toList,
        Document.plainNode, hmeaning]
  | singleQuoted =>
      have hending : TokenKind.lineEnding (singleQuoted 2 text.toList).toList = ['\n'] := by
        simpa [singleQuoted] using hquoted ('\'' :: singleQuotedLines 2 text.toList) '\'' rfl
      have hread := read_node_single_quoted (Nat.zero_lt_two) (of_eq_single_quoted hstyle)
      rw [stringText, hstyle]
      dsimp only
      rw [hending, hread, String.ofList_toList]
  | doubleQuoted =>
      have hending : TokenKind.lineEnding (doubleQuoted text.toList).toList = ['\n'] := by
        simpa [doubleQuoted] using hquoted ('"' :: text.toList.flatMap quotedChar) '"' rfl
      rw [stringText, hstyle]
      dsimp only
      rw [hending, read_node_double_quoted, String.ofList_toList]
  | literal =>
      obtain ⟨hallows, hne⟩ := of_eq_literal hstyle
      rw [stringText, hstyle]
      dsimp only
      rw [line_ending_literal 2 hne, read_node_literal hallows hne, String.ofList_toList]

/-! ## Integers -/

/-- A digit or a dash can stand for itself, and neither parts a text nor ends a plain scalar. -/
theorem class_of_numeral {character : Char} (h : character.isDigit = true ∨ character = '-') :
    isVisible character = true ∧ isBreak character = false ∧ character ≠ ' ' ∧ character ≠ ':' ∧
      character ≠ '#' := by
  obtain hdigit | rfl := h
  · have hne : ∀ other : Char, other.isDigit = false → character ≠ other :=
      fun _ ↦ Text.ne_of_is_digit hdigit
    refine ⟨is_visible_of_digit_value ?_, ?_, hne _ rfl, hne _ rfl, hne _ rfl⟩
    · exact Nat.lt_trans (Text.digit_value_lt_ten hdigit) (by decide)
    · simp [isBreak, hne]
  · decide

/-- A text without colons and number signs has no indicators beyond its first character. -/
theorem inner_indicator_eq_false {text : List Char}
    (h : ∀ character ∈ text, character ≠ ':' ∧ character ≠ '#') :
    Style.hasInnerIndicator text = false := by
  fun_induction Style.hasInnerIndicator text with
  | case1 before next rest ih =>
      obtain ⟨hcolon, hcomment⟩ := h next (by simp)
      rw [ih fun other hmem ↦ h other (List.mem_cons_of_mem before hmem)]
      simp [hcolon, hcomment]
  | case2 => rfl

/-- A text without characters of the second class has no pair with such a character. -/
theorem has_pair_eq_false {first second : Char → Bool} {text : List Char}
    (h : ∀ character ∈ text, second character = false) : hasPair first second text = false := by
  fun_induction hasPair first second text with
  | case1 before after rest ih =>
      rw [h after (by simp), Bool.and_false, Bool.false_or]
      exact ih fun other hmem ↦ h other (List.mem_cons_of_mem before hmem)
  | case2 => rfl

/-- A text without spaces and breaks neither begins nor ends with one. -/
theorem outer_space_eq_false {text : List Char}
    (h : ∀ character ∈ text, character ≠ ' ' ∧ isBreak character = false) :
    Style.hasOuterSpace text = false := by
  have hend : ∀ found : Option Char, (∀ character, found = some character → character ∈ text) →
      (found.map fun character ↦ character == ' ' || isBreak character).getD false = false := by
    intro found hfound
    cases found with
    | none => rfl
    | some character => simp [h character (hfound character rfl)]
  rw [Style.hasOuterSpace, hend _ fun _ ↦ List.mem_of_head?, hend _ fun _ ↦ List.mem_of_getLast?]
  rfl

/-- A text of digits, with or without a dash before them, is written without quotes. -/
theorem allows_plain_of_digits {text : List Char} {first : Char} {others : List Char}
    (htext : text = first :: others ∨ text = '-' :: first :: others)
    (h : ∀ digit ∈ first :: others, digit.isDigit = true) : Style.allowsPlain text = true := by
  have hnumeral : ∀ character ∈ text, character.isDigit = true ∨ character = '-' := by
    intro character hmem
    obtain rfl | rfl := htext
    · exact .inl (h character hmem)
    · exact (List.mem_cons.1 hmem).symm.imp_left (h character)
  have hclass := fun character hmem ↦ class_of_numeral (hnumeral character hmem)
  have hbreak : ∀ character ∈ text, isBreak character = false :=
    fun character hmem ↦ (hclass character hmem).2.1
  have hindicator : Style.hasIndicator text = false := by
    have hinner := inner_indicator_eq_false fun character hmem ↦ (hclass character hmem).2.2.2
    have hdigit : ∀ other : Char, other.isDigit = false → first ≠ other :=
      fun _ ↦ Text.ne_of_is_digit (h first List.mem_cons_self)
    have hdash : '-' ≠ first := (hdigit '-' rfl).symm
    have hdot : '.' ≠ first := (hdigit '.' rfl).symm
    obtain rfl | rfl := htext
    · simp [Style.hasIndicator, hinner, hdigit, List.isPrefixOf, hdash, hdot]
    · simp [Style.hasIndicator, hinner, hdigit, List.isPrefixOf, hdash, Style.isFollowedByBlank,
        isSpacing, isBlank, isBreak]
  have hescapes : Style.needsEscapes text = false := by
    rw [Style.needsEscapes, has_pair_eq_false hbreak, Bool.false_or, List.any_eq_false]
    intro character hmem
    simp [(hclass character hmem).1]
  have houter : Style.hasOuterSpace text = false :=
    outer_space_eq_false fun character hmem ↦ ⟨(hclass character hmem).2.2.1, hbreak character hmem⟩
  have hbreaks : text.any isBreak = false :=
    List.any_eq_false.2 fun character hmem ↦ by simp [hbreak character hmem]
  rw [Style.allowsPlain, houter, hbreaks, hescapes, hindicator]
  rfl

/-- An integer is written without quotes. -/
theorem allows_plain_int (value : Int) : Style.allowsPlain (toString value).toList = true := by
  obtain ⟨first, others, hdigits, _⟩ := Text.exists_first_digit value.natAbs
  have hall : ∀ digit ∈ first :: others, digit.isDigit = true :=
    fun digit hmem ↦ Text.is_digit_of_mem_to_digits (hdigits ▸ hmem)
  refine allows_plain_of_digits ?_ hall
  rw [Text.to_list_to_string_int, hdigits]
  split
  · exact .inr rfl
  · exact .inl rfl

namespace Meaning

/-- The sign of a written integer is parted from its digits. -/
theorem split_sign_to_string (value : Int) :
    splitSign (toString value).toList = (decide (value < 0), Nat.toDigits 10 value.natAbs) := by
  obtain ⟨first, others, hdigits, hfirst⟩ := Text.exists_first_digit value.natAbs
  rw [Text.to_list_to_string_int, hdigits]
  by_cases hnegative : value < 0
  · rw [if_pos hnegative, decide_eq_true hnegative]
    rfl
  · rw [if_neg hnegative, decide_eq_false hnegative]
    have hdash : first ≠ '-' := Text.ne_of_is_digit hfirst rfl
    have hplus : first ≠ '+' := Text.ne_of_is_digit hfirst rfl
    simp [splitSign, hdash, hplus]

/-- A written integer has no zero before another digit. -/
theorem has_leading_zero_to_string (value : Int) :
    hasLeadingZero (toString value).toList = false := by
  rw [hasLeadingZero, split_sign_to_string]
  dsimp only
  split
  · rename_i hdigits
    by_cases hzero : value.natAbs = 0
    · rw [hzero] at hdigits
      cases hdigits
    · refine absurd ?_ (Text.head_to_digits_ne (Nat.pos_of_ne_zero hzero))
      rw [hdigits]
      rfl
  · rfl

/-- The decimal digits of a number are in base ten. -/
theorem based_digits_to_digits (value : Nat) :
    basedDigits (Nat.toDigits 10 value) = (10, Nat.toDigits 10 value) := by
  have hletter : ∀ letter rest, Nat.toDigits 10 value = '0' :: letter :: rest →
      letter.isDigit = true := by
    intro letter rest hdigits
    have hmem : letter ∈ Nat.toDigits 10 value := by simp [hdigits]
    exact Text.is_digit_of_mem_to_digits hmem
  unfold basedDigits
  split
  · exact absurd (hletter _ _ ‹_›) (by decide)
  · exact absurd (hletter _ _ ‹_›) (by decide)
  · exact absurd (hletter _ _ ‹_›) (by decide)
  · rfl

/-- A written integer is read as the integer. -/
theorem int?_to_string (value : Int) : int? (toString value).toList = some value := by
  rw [int?, has_leading_zero_to_string, split_sign_to_string]
  dsimp only
  rw [based_digits_to_digits]
  simp only [Bool.false_eq_true, if_false, Text.number?_to_digits, decide_eq_true_eq]
  refine congrArg some ?_
  split <;> dsimp only <;> omega

/-- A text that is an integer means neither a null nor a boolean. -/
theorem of_int {text : String} {value : Int} (h : int? text.toList = some value) :
    Meaning.of text = ofInt text value := by
  have hnone : ∀ word ∈ ["", "~", "null", "Null", "NULL", "true", "True", "TRUE", "false", "False",
      "FALSE"], int? word.toList = none := by
    decide
  have hne : ∀ word ∈ ["", "~", "null", "Null", "NULL", "true", "True", "TRUE", "false", "False",
      "FALSE"], text ≠ word := by
    intro word hmem heq
    rw [heq, hnone word hmem] at h
    cases h
  simp only [List.forall_mem_cons] at hne
  simp [Meaning.of, isNull, bool?, hne, h]

/-- A written integer means the integer, if a tree can hold it. -/
theorem of_to_string {value : Int} (hleast : -Int.pow 2 63 ≤ value)
    (hgreatest : value < Int.pow 2 64) : Meaning.of (toString value) = .int value := by
  rw [of_int (int?_to_string value), ofInt, if_pos ⟨hleast, hgreatest⟩]

end Meaning

/-! ## Scalars -/

/-- A text at the end of a document is ended by a line feed, unless it brings a break along. -/
theorem to_list_line_after (text : String) :
    (text ++ lineAfter text 0).toList = text.toList ++ TokenKind.lineEnding text.toList := by
  rw [String.toList_append, lineAfter, endsInBreak, TokenKind.lineEnding]
  split <;> simp

section Render

variable {tree : Tree} (hrender : render tree = inlineText 2 tree ++ lineAfter (inlineText 2 tree) 0)
include hrender

/-- A tree without lines of its own is read back if its text is read as a node that has this tree. -/
theorem parse_render_of_read_node {node : Node}
    (hread : readNode
      ((inlineText 2 tree).toList ++ TokenKind.lineEnding (inlineText 2 tree).toList) = .ok node)
    (htree : node.toTree? = some tree) : parse (render tree) = .ok tree := by
  have hnode : readNode (render tree).toList = .ok node := by
    rw [hrender, to_list_line_after, hread]
  simp only [parse, readTree, hnode, htree, bind, Except.bind]
  rfl

/-- A tree without quotes is read back if its text means a node that has this tree. -/
theorem parse_render_of_plain_node {node : Node}
    (hallows : Style.allowsPlain (inlineText 2 tree).toList = true)
    (hne : (inlineText 2 tree).toList ≠ [])
    (hplain : Document.plainNode (inlineText 2 tree) .root .start = .ok node)
    (htree : node.toTree? = some tree) : parse (render tree) = .ok tree := by
  refine parse_render_of_read_node hrender ?_ htree
  rw [line_ending_of_allows_plain hallows, read_node_plain hallows hne, String.ofList_toList, hplain]

end Render

/-- An integer is read back. -/
theorem parse_render_int (value : Int64) : parse (render (.int value)) = .ok (.int value) := by
  have hleast : -Int.pow 2 63 ≤ value.toInt := value.le_toInt
  have hgreatest : value.toInt < Int.pow 2 63 := value.toInt_lt
  have hmeaning : Meaning.of (toString value.toInt) = .int value.toInt :=
    Meaning.of_to_string hleast (Int.lt_trans hgreatest (by decide))
  have hne : (toString value.toInt).toList ≠ [] := by
    intro hempty
    have hread := Meaning.int?_to_string value.toInt
    rw [hempty] at hread
    cases hread
  refine @parse_render_of_plain_node (.int value) rfl (.int value.toInt) (allows_plain_int _) hne
    ?_ ?_
  · rw [inlineText, Document.plainNode, hmeaning]
  · rw [Node.toTree?, if_pos hgreatest, Int64.ofInt_toInt]

/-- A document of one scalar is read as the scalar, unless it is a floating-point number. -/
theorem parse_render_of_is_scalar {tree : Tree} (h : tree.IsScalar)
    (hfloat : ∀ value, tree ≠ .float value) : parse (render tree) = .ok tree := by
  cases tree with
  | null => exact parse_render_of_plain_node rfl (by decide) (by decide) rfl rfl
  | bool value =>
      cases value <;> exact parse_render_of_plain_node rfl (by decide) (by decide) rfl rfl
  | int value => exact parse_render_int value
  | float value => exact absurd rfl (hfloat value)
  | string value => exact parse_render_of_read_node rfl (read_node_string value) rfl
  | sequence items => cases h.1
  | mapping entries => cases h.2

end ConfigFill.Yaml
