import ConfigFill.Proofs.Placeholder.Parts
import ConfigFill.Proofs.Text.Pattern

/-!
# The grammar of placeholders

Placeholders are given by a pattern: `pattern` matches a text exactly if the text is read as a
placeholder, and the groups of its preferred match are the parts of the placeholder
(`parse_eq_first`). The main statement is `parse_accepts_grammar`, which adds what these parts are
and that they can be read back from the text that they are written as.
-/

namespace ConfigFill.Placeholder

open Text (Pattern)

variable {text : String} {json : Bool} {body : List Char}

/-- The pattern of a path: `/[A-Za-z0-9_-]+[^|]*`. -/
def pathPattern : Pattern :=
  .sequence (.literal "/") (.sequence (.atLeastOne isSegmentStart) (.many (· ≠ '|')))

/-- The pattern of what follows a path: `\|?([^|]+)?`. -/
def suffixPattern : Pattern :=
  .sequence (.option (.literal "|")) (.option (.group 3 (.atLeastOne (· ≠ '|'))))

/-- The pattern of placeholders, which is matched where a text begins:
`^aws-ssm(-json)?:/(/[A-Za-z0-9_-]+[^|]*)\|?([^|]+)?`. -/
def pattern : Pattern :=
  .sequence (.literal "aws-ssm") <| .sequence (.option (.group 1 (.literal "-json"))) <|
    .sequence (.literal ":/") <| .sequence (.group 2 pathPattern) suffixPattern

/-- The parts that a match of the pattern keeps. -/
def ofMatch? (found : Text.Match) : Option Placeholder :=
  (found.group? 2).map fun path ↦
    ⟨String.ofList found.matched, (found.group? 1).isSome, String.ofList path,
      (found.group? 3).map String.ofList⟩

/-- A scan for a class that goes on as a scan for a larger class is one for the larger class. -/
theorem take_while_append_drop_while_take_while {small large : Char → Bool}
    (h : ∀ character, small character = true → large character = true) (text : List Char) :
    text.takeWhile small ++ (text.dropWhile small).takeWhile large = text.takeWhile large ∧
      (text.dropWhile small).dropWhile large = text.dropWhile large := by
  induction text with
  | nil => exact ⟨rfl, rfl⟩
  | cons character rest ih =>
      by_cases hsmall : small character = true
      · simpa [hsmall, h character hsmall] using ih
      · simp [hsmall]

/-- A character that may begin a segment is no bar. -/
theorem ne_bar_of_is_segment_start (character : Char) (h : isSegmentStart character = true) :
    decide (character ≠ '|') = true := by
  rw [decide_eq_true_eq]
  rintro rfl
  exact absurd h (by decide)

/-- The pattern of a path takes all up to the first bar. -/
theorem first_path (hstart : startsPath ('/' :: body) = true) :
    pathPattern.first? ('/' :: body) =
      some ⟨'/' :: body.takeWhile (· ≠ '|'), [], body.dropWhile (· ≠ '|')⟩ := by
  have hslash : (Pattern.literal "/").first? ('/' :: body) = some ⟨['/'], [], body⟩ :=
    Pattern.first_literal "/" body
  have hne : body.takeWhile isSegmentStart ≠ [] := by
    cases body with
    | nil => cases hstart
    | cons first rest =>
        have hfirst : isSegmentStart first = true := hstart
        simp [hfirst]
  have hword : (Pattern.atLeastOne isSegmentStart).first? body =
      some ⟨body.takeWhile isSegmentStart, [], body.dropWhile isSegmentStart⟩ := by
    rw [Pattern.first_at_least_one, if_neg hne]
  have hrun := Pattern.first_sequence hword (Pattern.first_many (· ≠ '|') _)
  obtain ⟨htake, hdrop⟩ := take_while_append_drop_while_take_while ne_bar_of_is_segment_start body
  rw [pathPattern, Pattern.first_sequence hslash hrun]
  simp only [Text.Match.followed, htake, hdrop, List.nil_append, List.cons_append]

/-- Where the pattern of a path takes something, a path begins. -/
theorem starts_path_of_mem_ways {text : List Char} {found : Text.Match}
    (h : found ∈ pathPattern.ways text) : startsPath text = true := by
  obtain ⟨slash, hslash, _, hrest, _⟩ := Pattern.mem_ways_sequence_iff.1 h
  obtain ⟨word, hword, _⟩ := Pattern.mem_ways_sequence_iff.1 hrest
  obtain ⟨hrest, hne, hmatched⟩ := Pattern.of_mem_ways_at_least_one hword
  obtain ⟨first, others, hfirst⟩ := List.exists_cons_of_ne_nil hne
  rw [(Pattern.mem_ways_literal_iff.1 hslash).1, hrest, hfirst]
  exact hmatched first (hfirst ▸ List.mem_cons_self)

/-- The group that a suffix is kept in, if it is not empty. -/
def suffixGroups (run : List Char) : List (Nat × List Char) :=
  if run = [] then [] else [(3, run)]

/-- The pattern of a suffix takes the bar and all up to the next one. -/
theorem first_suffix_bar (rest : List Char) :
    suffixPattern.first? ('|' :: rest) =
      some ⟨'|' :: rest.takeWhile (· ≠ '|'), suffixGroups (rest.takeWhile (· ≠ '|')),
        rest.dropWhile (· ≠ '|')⟩ := by
  have hliteral : (Pattern.literal "|").first? ('|' :: rest) = some ⟨['|'], [], rest⟩ :=
    Pattern.first_literal "|" rest
  have hbar : (Pattern.option (.literal "|")).first? ('|' :: rest) = some ⟨['|'], [], rest⟩ := by
    rw [Pattern.first_option, hliteral]
    rfl
  have hgroup : (Pattern.option (.group 3 (.atLeastOne (· ≠ '|')))).first? rest =
      some ⟨rest.takeWhile (· ≠ '|'), suffixGroups (rest.takeWhile (· ≠ '|')),
        rest.dropWhile (· ≠ '|')⟩ := by
    have hrest : rest.takeWhile (· ≠ '|') ++ rest.dropWhile (· ≠ '|') = rest :=
      List.takeWhile_append_dropWhile
    rw [Pattern.first_option, Pattern.first_group, Pattern.first_at_least_one, suffixGroups]
    split
    · rename_i hnil
      rw [hnil, List.nil_append] at hrest
      rw [hnil, hrest]
      rfl
    · rfl
  rw [suffixPattern, Pattern.first_sequence hbar hgroup]
  rfl

/-- After the scheme, the pattern keeps the path and the suffix. -/
theorem exists_first_parts (hstart : startsPath ('/' :: body) = true) :
    ∃ found, (Pattern.sequence (.group 2 pathPattern) suffixPattern).first? ('/' :: body) =
        some found ∧
      found.groups = (2, '/' :: body.takeWhile (· ≠ '|')) :: suffixGroups (suffixRun body) ∧
      ∀ json, matchedIn json body = scheme json ++ String.ofList found.matched := by
  have hpath : (Pattern.group 2 pathPattern).first? ('/' :: body) =
      some ⟨'/' :: body.takeWhile (· ≠ '|'), [(2, '/' :: body.takeWhile (· ≠ '|'))],
        body.dropWhile (· ≠ '|')⟩ := by
    rw [Pattern.first_group, first_path hstart]
    rfl
  obtain ⟨hdrop, hbar⟩ | ⟨rest, hdrop⟩ := drop_while_bar body
  · have hsuffix : suffixPattern.first? (body.dropWhile (· ≠ '|')) = some ⟨[], [], []⟩ := by
      rw [hdrop]
      rfl
    refine ⟨_, Pattern.first_sequence hpath hsuffix, ?_, ?_⟩
    · rw [suffix_run_of_not_mem hbar]
      rfl
    · intro json
      simp [matched_in_of_not_mem hbar, pathIn, Text.Match.followed]
  · have hafter := after_bar_iff.2 hdrop
    have hsuffix := first_suffix_bar rest
    rw [← hdrop] at hsuffix
    refine ⟨_, Pattern.first_sequence hpath hsuffix, ?_, ?_⟩
    · rw [suffix_run_of_after_bar hafter]
      rfl
    · intro json
      simp [matched_in_of_after_bar hafter, pathIn, Text.Match.followed, String.append_assoc]

/-- The mark for JSON in a scheme. -/
def markText (json : Bool) : List Char :=
  if json then "-json".toList else []

/-- The group that the mark for JSON is kept in, if it is there. -/
def markGroups (json : Bool) : List (Nat × List Char) :=
  if json then [(1, "-json".toList)] else []

/-- The pattern of the mark takes the mark where it is and nothing where it is not. -/
theorem first_mark (json : Bool) (rest : List Char) :
    (Pattern.option (.group 1 (.literal "-json"))).first? (markText json ++ ':' :: rest) =
      some ⟨markText json, markGroups json, ':' :: rest⟩ := by
  rw [Pattern.first_option, Pattern.first_group]
  cases json with
  | false => rfl
  | true =>
      rw [markText, if_pos rfl, Pattern.first_literal]
      rfl

/-- The groups of a match, in the order in which the pattern keeps them, give the parts. -/
theorem of_match?_eq {found : Text.Match} {path run : List Char}
    (h : found.groups = markGroups json ++ (2, path) :: suffixGroups run) :
    ofMatch? found = some ⟨String.ofList found.matched, json, String.ofList path,
      if run = [] then none else some (String.ofList run)⟩ := by
  have hlookup : (suffixGroups run).lookup 1 = none ∧
      (suffixGroups run).lookup 3 = if run = [] then none else some run := by
    unfold suffixGroups
    split <;> exact ⟨rfl, rfl⟩
  have hmark : (found.group? 1).isSome = json := by
    rw [Text.Match.group?, h]
    cases json with
    | false => exact congrArg Option.isSome hlookup.1
    | true => rfl
  have hpath : found.group? 2 = some path := by
    rw [Text.Match.group?, h]
    cases json <;> rfl
  have hsuffix : found.group? 3 = if run = [] then none else some run := by
    rw [Text.Match.group?, h]
    cases json <;> exact hlookup.2
  rw [ofMatch?, hmark, hpath, hsuffix]
  split <;> rfl

/-- A scheme is what the pattern matches before the path. -/
theorem scheme_append (json : Bool) (rest : List Char) :
    (scheme json).toList ++ rest = "aws-ssm".toList ++ (markText json ++ ':' :: '/' :: rest) := by
  cases json <;> rfl

/-- The pattern matches a text that begins as a placeholder, and keeps the parts of it. -/
theorem exists_first (hbegins : Begins text json body) :
    ∃ found, pattern.first? text.toList = some found ∧
      ofMatch? found = some ⟨matchedIn json body, json, pathIn body, suffixIn body⟩ := by
  obtain ⟨found, hfound, hgroups, hmatched⟩ := exists_first_parts hbegins.starts
  have hslash : (Pattern.literal ":/").first? (':' :: '/' :: '/' :: body) =
      some ⟨[':', '/'], [], '/' :: body⟩ := Pattern.first_literal ":/" ('/' :: body)
  have htext : text.toList = "aws-ssm".toList ++ (markText json ++ ':' :: '/' :: '/' :: body) := by
    rw [hbegins.eq_append, scheme_append]
  have hpath : String.ofList ('/' :: body.takeWhile (· ≠ '|')) = pathIn body := by simp [pathIn]
  have hwhole : String.ofList
      ("aws-ssm".toList ++ (markText json ++ ([':', '/'] ++ found.matched))) =
      matchedIn json body := by
    apply String.ext
    simp only [hmatched, String.toList_append, String.toList_ofList]
    exact (scheme_append json _).symm
  have hkept := congrArg (markGroups json ++ ·) hgroups
  rw [htext]
  refine ⟨_, Pattern.first_sequence (Pattern.first_literal _ _)
    (Pattern.first_sequence (first_mark json _) (Pattern.first_sequence hslash hfound)),
    Eq.trans (of_match?_eq hkept) ?_⟩
  rw [← hwhole, hpath]
  rfl

/-- Where the pattern matches, the text begins as a placeholder does. -/
theorem begins_of_first {found : Text.Match} (h : pattern.first? text.toList = some found) :
    ∃ json body, Begins text json body := by
  obtain ⟨name, hname, _, hrest, _⟩ :=
    Pattern.mem_ways_sequence_iff.1 (Pattern.mem_ways_of_first h)
  obtain ⟨mark, hmark, _, hrest, _⟩ := Pattern.mem_ways_sequence_iff.1 hrest
  obtain ⟨slash, hslash, _, hrest, _⟩ := Pattern.mem_ways_sequence_iff.1 hrest
  obtain ⟨path, hpath, _⟩ := Pattern.mem_ways_sequence_iff.1 hrest
  obtain ⟨path, hpath, _⟩ := Pattern.mem_ways_group_iff.1 hpath
  obtain ⟨json, hjson⟩ : ∃ json, name.rest = markText json ++ mark.rest := by
    rcases Pattern.mem_ways_option_iff.1 hmark with hmark | rfl
    · obtain ⟨way, hway, rfl⟩ := Pattern.mem_ways_group_iff.1 hmark
      exact ⟨true, (Pattern.mem_ways_literal_iff.1 hway).1⟩
    · exact ⟨false, rfl⟩
  have htext : text.toList = (scheme json).toList ++ slash.rest := by
    rw [(Pattern.mem_ways_literal_iff.1 hname).1, hjson, (Pattern.mem_ways_literal_iff.1 hslash).1]
    exact (scheme_append json _).symm
  obtain ⟨body, hbody, hbegins⟩ := begins_of_starts_path htext (starts_path_of_mem_ways hpath)
  exact ⟨json, body, hbegins⟩

/-- A text is read as the placeholder whose parts the preferred match of the pattern keeps. -/
theorem parse_eq_first (text : String) :
    parse text = (pattern.first? text.toList).bind ofMatch? := by
  cases hfirst : pattern.first? text.toList with
  | none =>
      cases hparse : parse text with
      | none => rfl
      | some placeholder =>
          obtain ⟨json, body, hbegins⟩ := begins_of_parse hparse
          obtain ⟨found, hfound, _⟩ := exists_first hbegins
          rw [hfirst] at hfound
          cases hfound
  | some found =>
      obtain ⟨json, body, hbegins⟩ := begins_of_first hfirst
      obtain ⟨_, hfound, hparts⟩ := exists_first hbegins
      rw [hfirst] at hfound
      cases hfound
      rw [parse_of_begins hbegins, parse_after_eq hbegins.starts, Option.bind_some, hparts]

/-- A text is read as a placeholder exactly if it is `aws-ssm://` or `aws-ssm-json://` and then
begins with a letter, a digit, a dash or an underscore. The path is a slash and all up to the first
bar, the suffix all from there to the next, if this is not empty; what is matched is the text of the
parts, with the bar of an empty suffix; and what is left over is nothing or begins with a bar. All
parts of this shape are read back from their text. This is the preferred match of the pattern, in
which repetitions are as long as they can be. -/
theorem parse_accepts_grammar :
    (∀ text, (parse text).isSome = true ↔ ∃ json body, Begins text json body) ∧
      (∀ text placeholder,
        parse text = some placeholder ↔ ∃ body, HasParts placeholder text body) ∧
      (∀ json path suffix, IsPath path → IsSuffix suffix →
        parse (Placeholder.text json path suffix) =
          some ⟨Placeholder.text json path suffix, json, path, suffix⟩) ∧
      ∀ text, parse text = (pattern.first? text.toList).bind ofMatch? := by
  refine ⟨fun text ↦ ?_, fun _ _ ↦ parse_eq_some_iff, ?_, parse_eq_first⟩
  · constructor
    · intro h
      obtain ⟨placeholder, hparse⟩ := Option.isSome_iff_exists.1 h
      exact begins_of_parse hparse
    · rintro ⟨json, body, h⟩
      rw [parse_of_begins h, parse_after_eq h.starts, Option.isSome_some]
  · intro json path suffix hpath hsuffix
    obtain ⟨word, rest, hpath, hne, hword, hrest⟩ := hpath
    obtain ⟨first, others, rfl⟩ := List.exists_cons_of_ne_nil hne
    have hfirst := is_segment_start_iff.2 (hword first List.mem_cons_self)
    have hbar : '|' ∉ path.toList := by
      have hwordBar : '|' ∉ first :: others := by
        intro hmem
        exact absurd (hword '|' hmem) (by decide)
      simp only [hpath, List.mem_cons, List.mem_append, not_or] at hwordBar ⊢
      exact ⟨by decide, hwordBar, hrest⟩
    exact parse_text hpath hfirst hbar hsuffix

/-- Of two bars in a row the first is matched and the second is left over. -/
example : parse "aws-ssm://x||y" = some ⟨"aws-ssm://x|", false, "/x", none⟩ ∧
    parse "aws-ssm-json://x|y|z" = some ⟨"aws-ssm-json://x|y", true, "/x", some "y"⟩ := by
  decide

end ConfigFill.Placeholder
