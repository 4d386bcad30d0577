import ConfigFill.Placeholder.Basic
import ConfigFill.Text.Segments
import Mathlib.Data.List.Basic
import Mathlib.Data.List.TakeWhile

/-!
# The parts of a placeholder

What the parts of a placeholder are, said by cutting the text that it is read from: `HasParts`.
A text is read as a placeholder exactly if it has the parts of it (`parse_eq_some_iff`), and parts
that are written as a text are read back from it (`parse_text`).
-/

namespace ConfigFill.Placeholder

/-! ## Parts of a text -/

/-- The run is the longest beginning of the text without a bar. -/
structure IsRun (run text : List Char) : Prop where
  start : run <+: text
  bar : '|' ∉ run
  longest : ∀ other, other <+: text → '|' ∉ other → other.length ≤ run.length

/-- The rest is what comes after the first bar of the text. -/
def AfterBar (text rest : List Char) : Prop :=
  ∃ before, text = before ++ '|' :: rest ∧ '|' ∉ before

/-- The text begins as a placeholder does, and the body is what comes after the two slashes. -/
structure Begins (text : String) (json : Bool) (body : List Char) : Prop where
  scheme : text.toList = (if json then "aws-ssm-json://" else "aws-ssm://").toList ++ body
  segment : ∃ first rest, body = first :: rest ∧
    (first.isAlphanum = true ∨ first = '_' ∨ first = '-')

/-- The placeholder has the parts that the text writes. The path runs to the first bar and the
suffix from there to the next. An empty suffix is none, but its bar is matched, and nothing is
matched from the second bar on. -/
structure HasParts (placeholder : Placeholder) (text : String) (body : List Char) : Prop where
  begins : Begins text placeholder.json body
  path : ∃ run, IsRun run body ∧ placeholder.path = "/" ++ String.ofList run
  suffix : ∀ suffix, placeholder.suffix = some suffix →
    suffix ≠ "" ∧ ∃ rest, AfterBar body rest ∧ IsRun suffix.toList rest
  noSuffix : placeholder.suffix = none → ∀ rest, AfterBar body rest → IsRun [] rest
  matched : placeholder.matched =
    Placeholder.text placeholder.json placeholder.path placeholder.suffix ++
      if placeholder.suffix = none ∧ '|' ∈ text.toList then "|" else ""
  rest : ∃ rest, text = placeholder.matched ++ rest ∧ (rest = "" ∨ rest.toList.head? = some '|')

/-- A run without a bar goes on with what comes after it. -/
theorem take_while_append_not_mem {run : List Char} (h : '|' ∉ run) (rest : List Char) :
    (run ++ rest).takeWhile (· ≠ '|') = run ++ rest.takeWhile (· ≠ '|') :=
  List.takeWhile_append_of_pos (Text.decide_ne_of_not_mem h)

/-- There is no bar in what comes before the first bar. -/
theorem bar_not_mem_take_while (text : List Char) : '|' ∉ text.takeWhile (· ≠ '|') := by
  intro hmem
  simpa using List.mem_takeWhile_imp hmem

/-- A scan for a bar gives the longest beginning without one. -/
theorem is_run_iff {run text : List Char} : IsRun run text ↔ run = text.takeWhile (· ≠ '|') := by
  constructor
  · intro h
    obtain ⟨rest, rfl⟩ := h.start
    have hlonger := h.longest _ (List.takeWhile_prefix _) (bar_not_mem_take_while _)
    rw [take_while_append_not_mem h.bar, List.length_append] at hlonger
    have hnil : rest.takeWhile (· ≠ '|') = [] := List.eq_nil_of_length_eq_zero (by omega)
    rw [take_while_append_not_mem h.bar, hnil, List.append_nil]
  · rintro rfl
    refine ⟨List.takeWhile_prefix _, bar_not_mem_take_while text, ?_⟩
    rintro other ⟨rest, rfl⟩ hbar
    rw [take_while_append_not_mem hbar, List.length_append]
    omega

/-- What stands after the first bar follows the run up to it. -/
theorem after_bar_iff {text rest : List Char} :
    AfterBar text rest ↔ text.dropWhile (· ≠ '|') = '|' :: rest := by
  constructor
  · rintro ⟨before, rfl, hbefore⟩
    exact Text.drop_while_ne_cut hbefore rest
  · intro h
    refine ⟨text.takeWhile (· ≠ '|'), ?_, bar_not_mem_take_while text⟩
    rw [← h, List.takeWhile_append_dropWhile]

/-- What a scan for a bar leaves is nothing or begins with the bar. -/
theorem drop_while_bar (text : List Char) :
    text.dropWhile (· ≠ '|') = [] ∧ '|' ∉ text ∨
      ∃ rest, text.dropWhile (· ≠ '|') = '|' :: rest := by
  cases h : text.dropWhile (· ≠ '|') with
  | nil =>
      refine .inl ⟨rfl, fun hmem ↦ ?_⟩
      simpa using List.dropWhile_eq_nil_iff.1 h _ hmem
  | cons bar rest =>
      have hne : text.dropWhile (· ≠ '|') ≠ [] := h ▸ List.cons_ne_nil _ _
      have hbar := List.head_dropWhile_not (· ≠ '|') hne
      simp only [h, List.head_cons, ne_eq, decide_eq_false_iff_not, not_not] at hbar
      exact .inr ⟨rest, hbar ▸ rfl⟩

/-! ## Reading -/

variable {text : String} {json : Bool} {body : List Char} {placeholder : Placeholder}

/-- A segment begins with an ASCII letter, a digit, an underscore or a dash. -/
theorem is_segment_start_iff {character : Char} :
    isSegmentStart character = true ↔
      character.isAlphanum = true ∨ character = '_' ∨ character = '-' := by
  simp [isSegmentStart, or_assoc]

/-- What follows the scheme begins a path. -/
theorem Begins.starts (h : Begins text json body) : startsPath ('/' :: body) = true := by
  obtain ⟨first, rest, rfl, hfirst⟩ := h.segment
  exact is_segment_start_iff.2 hfirst

/-- The scheme ends in the slash before the one that the path begins with. -/
theorem scheme_append_slash (json : Bool) (body : List Char) :
    (scheme json).toList ++ '/' :: body =
      (if json then "aws-ssm-json://" else "aws-ssm://").toList ++ body := by
  cases json <;> rfl

/-- The text is the scheme and what follows it. -/
theorem Begins.eq_append (h : Begins text json body) :
    text.toList = (Placeholder.scheme json).toList ++ '/' :: body := by
  rw [h.scheme, scheme_append_slash]

/-- A bar in the text is one in what follows the scheme, since the scheme has none. -/
theorem Begins.bar_mem_iff (h : Begins text json body) : '|' ∈ text.toList ↔ '|' ∈ body := by
  rw [h.scheme, List.mem_append]
  cases json <;> simp

/-- No text has both schemes before its path. -/
theorem parse_of_begins (h : Begins text json body) :
    parse text = parseAfter json ('/' :: body) := by
  have hself : (scheme json).toList.isPrefixOf? text.toList = some ('/' :: body) :=
    List.isPrefixOf?_eq_some_iff_append_eq.2 h.eq_append.symm
  have hother : (scheme !json).toList.isPrefixOf? text.toList = none := by
    rw [h.eq_append]
    cases json <;> rfl
  cases json with
  | false =>
      rw [Bool.not_false] at hother
      simp [parse, hself, hother]
  | true =>
      rw [Bool.not_true] at hother
      simp [parse, hself, hother]

/-- A text begins as a placeholder does if a path begins after its scheme. -/
theorem begins_of_starts_path {rest : List Char} (htext : text.toList = (scheme json).toList ++ rest)
    (h : startsPath rest = true) : ∃ body, rest = '/' :: body ∧ Begins text json body := by
  unfold startsPath at h
  split at h
  · rename_i first rest
    refine ⟨first :: rest, rfl, ?_, first, rest, rfl, is_segment_start_iff.1 h⟩
    rw [htext, scheme_append_slash]
  · cases h

/-- A text that is read as a placeholder begins as one does. -/
theorem begins_of_parse (h : parse text = some placeholder) :
    ∃ json body, Begins text json body := by
  obtain ⟨json, hjson⟩ : ∃ json, ((scheme json).toList.isPrefixOf? text.toList).bind
      (parseAfter json) = some placeholder := by
    simp only [parse, Option.orElse_eq_orElse, Option.orElse_eq_or, Option.or_eq_some_iff] at h
    rcases h with h | ⟨_, h⟩
    · exact ⟨false, h⟩
    · exact ⟨true, h⟩
  obtain ⟨rest, hrest, hafter⟩ := Option.bind_eq_some_iff.1 hjson
  have htext := List.isPrefixOf?_eq_some_iff_append_eq.1 hrest
  unfold parseAfter at hafter
  split at hafter
  · rename_i hstart
    obtain ⟨body, _, hbegins⟩ := begins_of_starts_path htext.symm hstart
    exact ⟨json, body, hbegins⟩
  · cases hafter

/-- The text between the first two bars of a body, or from the only one to the end. -/
def suffixRun (body : List Char) : List Char :=
  ((body.dropWhile (· ≠ '|')).drop 1).takeWhile (· ≠ '|')

/-- The suffix in a body, if it is not empty. -/
def suffixIn (body : List Char) : Option String :=
  if suffixRun body = [] then none else some (String.ofList (suffixRun body))

/-- Without a bar, there is no run of a suffix. -/
theorem suffix_run_of_not_mem (h : '|' ∉ body) : suffixRun body = [] := by
  have hdrop : body.dropWhile (· ≠ '|') = [] :=
    List.dropWhile_eq_nil_iff.2 (Text.decide_ne_of_not_mem h)
  rw [suffixRun, hdrop, List.drop_nil, List.takeWhile_nil]

/-- The run of a suffix goes from the first bar to the next. -/
theorem suffix_run_of_after_bar {rest : List Char} (h : AfterBar body rest) :
    suffixRun body = rest.takeWhile (· ≠ '|') := by
  rw [after_bar_iff] at h
  rw [suffixRun, h, List.drop_one, List.tail_cons]

/-- Without a bar, there is no suffix. -/
theorem suffix_in_of_not_mem (h : '|' ∉ body) : suffixIn body = none := by
  rw [suffixIn, if_pos (suffix_run_of_not_mem h)]

/-- The suffix goes from the first bar to the next, and an empty one is none. -/
theorem suffix_in_of_after_bar {rest : List Char} (h : AfterBar body rest) :
    suffixIn body =
      if rest.takeWhile (· ≠ '|') = [] then none
      else some (String.ofList (rest.takeWhile (· ≠ '|'))) := by
  rw [suffixIn, suffix_run_of_after_bar h]

/-- The path in a body, with the slash before it. -/
def pathIn (body : List Char) : String :=
  "/" ++ String.ofList (body.takeWhile (· ≠ '|'))

/-- What is matched of a text with this body: the parts, and the bar of an empty suffix. -/
def matchedIn (json : Bool) (body : List Char) : String :=
  Placeholder.text json (pathIn body) (suffixIn body) ++
    if suffixIn body = none ∧ '|' ∈ body then "|" else ""

/-- Without a bar, the placeholder is its scheme and its path. -/
theorem matched_in_of_not_mem (h : '|' ∉ body) : matchedIn json body = scheme json ++ pathIn body := by
  simp [matchedIn, suffix_in_of_not_mem h, h, Placeholder.text]

/-- With a bar, the placeholder is its scheme, its path, the bar and what goes to the next one. -/
theorem matched_in_of_after_bar {rest : List Char} (h : AfterBar body rest) :
    matchedIn json body =
      scheme json ++ pathIn body ++ "|" ++ String.ofList (rest.takeWhile (· ≠ '|')) := by
  have hmem : '|' ∈ body := by
    obtain ⟨before, rfl, _⟩ := h
    simp
  simp only [matchedIn, suffix_in_of_after_bar h, hmem, Placeholder.text]
  generalize rest.takeWhile (· ≠ '|') = run
  cases run with
  | nil => simp
  | cons first run => simp [String.append_assoc]

/-- After the scheme, just these parts are read where a path begins. -/
theorem parse_after_eq (hstart : startsPath ('/' :: body) = true) :
    parseAfter json ('/' :: body) =
      some ⟨matchedIn json body, json, pathIn body, suffixIn body⟩ := by
  have htake : ('/' :: body).takeWhile (· ≠ '|') = '/' :: body.takeWhile (· ≠ '|') := by simp
  have hdrop : ('/' :: body).dropWhile (· ≠ '|') = body.dropWhile (· ≠ '|') := by simp
  have hpath : String.ofList ('/' :: body.takeWhile (· ≠ '|')) = pathIn body := by simp [pathIn]
  simp only [parseAfter, hstart, if_true, htake, hdrop, hpath]
  obtain ⟨hbody, hbar⟩ | ⟨rest, hbody⟩ := drop_while_bar body
  · simp only [hbody, suffix_in_of_not_mem hbar, matched_in_of_not_mem hbar]
  · have hafter := after_bar_iff.2 hbody
    simp only [hbody, suffix_in_of_after_bar hafter, matched_in_of_after_bar hafter,
      String.isEmpty_iff, String.ofList_eq_empty_iff]

/-- What is left over of a text begins with a bar. -/
theorem exists_rest (hbegins : Begins text json body) :
    ∃ rest, text = matchedIn json body ++ rest ∧ (rest = "" ∨ rest.toList.head? = some '|') := by
  have hslash : "/".toList = ['/'] := rfl
  have hline : "|".toList = ['|'] := rfl
  have hbody : body.takeWhile (· ≠ '|') ++ body.dropWhile (· ≠ '|') = body :=
    List.takeWhile_append_dropWhile
  obtain ⟨hdrop, hbar⟩ | ⟨rest, hdrop⟩ := drop_while_bar body
  · refine ⟨"", String.ext ?_, .inl rfl⟩
    rw [hdrop, List.append_nil] at hbody
    rw [matched_in_of_not_mem hbar, hbegins.eq_append]
    simp only [pathIn, hbody, String.append_empty, String.toList_append, String.toList_ofList,
      hslash, List.cons_append, List.nil_append]
  · have hrest : rest.takeWhile (· ≠ '|') ++ rest.dropWhile (· ≠ '|') = rest :=
      List.takeWhile_append_dropWhile
    refine ⟨String.ofList (rest.dropWhile (· ≠ '|')), String.ext ?_, ?_⟩
    · rw [hdrop, ← hrest] at hbody
      rw [matched_in_of_after_bar (after_bar_iff.2 hdrop), hbegins.eq_append]
      simp only [pathIn, String.toList_append, String.toList_ofList, hslash, hline,
        List.append_assoc, List.cons_append, List.nil_append, hbody]
    · obtain ⟨hnil, _⟩ | ⟨others, hothers⟩ := drop_while_bar rest
      · exact .inl (by rw [hnil])
      · exact .inr (by rw [hothers, String.toList_ofList]; rfl)

/-- The reader finds the parts of a text that begins as a placeholder does. -/
theorem has_parts_of_parse_after (hbegins : Begins text json body)
    (h : parseAfter json ('/' :: body) = some placeholder) : HasParts placeholder text body := by
  rw [parse_after_eq hbegins.starts] at h
  cases h
  refine ⟨hbegins, ⟨_, is_run_iff.2 rfl, rfl⟩, ?_, ?_, ?_, ?_⟩
  · intro suffix hsuffix
    obtain ⟨_, hbar⟩ | ⟨rest, hbody⟩ := drop_while_bar body
    · rw [suffix_in_of_not_mem hbar] at hsuffix
      cases hsuffix
    · have hafter := after_bar_iff.2 hbody
      rw [suffix_in_of_after_bar hafter] at hsuffix
      split at hsuffix
      · cases hsuffix
      · rename_i hrun
        cases hsuffix
        exact ⟨by simpa using hrun, rest, hafter, is_run_iff.2 String.toList_ofList⟩
  · intro hsuffix rest hafter
    rw [suffix_in_of_after_bar hafter] at hsuffix
    split at hsuffix
    · rename_i hrun
      exact is_run_iff.2 hrun.symm
    · cases hsuffix
  · simp only [hbegins.bar_mem_iff, matchedIn]
  · exact exists_rest hbegins

/-- A text and a body have the parts of one placeholder of each kind. -/
theorem HasParts.unique {other : Placeholder} (h : HasParts placeholder text body)
    (hother : HasParts other text body) (hjson : placeholder.json = other.json) :
    placeholder = other := by
  have hpath : placeholder.path = other.path := by
    obtain ⟨run, hrun, hpath⟩ := h.path
    obtain ⟨_, hrun', hpath'⟩ := hother.path
    rw [is_run_iff] at hrun hrun'
    rw [hpath, hpath', hrun, hrun']
  have hsuffix : placeholder.suffix = other.suffix := by
    cases hfirst : placeholder.suffix with
    | none =>
        cases hsecond : other.suffix with
        | none => rfl
        | some suffix =>
            obtain ⟨hne, rest, hafter, hrun⟩ := hother.suffix suffix hsecond
            have hnil := h.noSuffix hfirst rest hafter
            rw [is_run_iff] at hrun hnil
            exact absurd (by simpa using hrun.trans hnil.symm) hne
    | some suffix =>
        obtain ⟨hne, rest, hafter, hrun⟩ := h.suffix suffix hfirst
        cases hsecond : other.suffix with
        | none =>
            have hnil := hother.noSuffix hsecond rest hafter
            rw [is_run_iff] at hrun hnil
            exact absurd (by simpa using hrun.trans hnil.symm) hne
        | some suffix' =>
            obtain ⟨_, rest', hafter', hrun'⟩ := hother.suffix suffix' hsecond
            rw [after_bar_iff] at hafter hafter'
            cases hafter.symm.trans hafter'
            rw [is_run_iff] at hrun hrun'
            rw [String.ext (hrun.trans hrun'.symm)]
  have hmatched := h.matched
  rw [hjson, hpath, hsuffix, ← hother.matched] at hmatched
  cases placeholder
  cases other
  simp only [Placeholder.mk.injEq]
  exact ⟨hmatched, hjson, hpath, hsuffix⟩

/-- A text is read as a placeholder exactly if it has the parts of it. -/
theorem parse_eq_some_iff :
    parse text = some placeholder ↔ ∃ body, HasParts placeholder text body := by
  constructor
  · intro h
    obtain ⟨json, body, hbegins⟩ := begins_of_parse h
    exact ⟨body, has_parts_of_parse_after hbegins (parse_of_begins hbegins ▸ h)⟩
  · rintro ⟨body, h⟩
    have hafter : parseAfter placeholder.json ('/' :: body) = _ := parse_after_eq h.begins.starts
    have hfound := has_parts_of_parse_after h.begins hafter
    rw [parse_of_begins h.begins, hafter, ← h.unique hfound rfl]

/-- The path is a slash, a word of letters, digits, dashes and underscores, and any text without a
bar. -/
def IsPath (path : String) : Prop :=
  ∃ word rest, path.toList = '/' :: (word ++ rest) ∧ word ≠ [] ∧
    (∀ character ∈ word,
      character.isAlphanum = true ∨ character = '_' ∨ character = '-') ∧ '|' ∉ rest

/-- The suffix is absent, or a text without a bar that is not empty. -/
def IsSuffix (suffix : Option String) : Prop :=
  ∀ text, suffix = some text → text ≠ "" ∧ '|' ∉ text.toList

/-- Parts that are written as a text are read back from it. -/
theorem parse_text {path : String} {suffix : Option String} {first : Char} {rest : List Char}
    (hpath : path.toList = '/' :: first :: rest) (hfirst : isSegmentStart first = true)
    (hbar : '|' ∉ path.toList) (hsuffix : IsSuffix suffix) :
    parse (Placeholder.text json path suffix) =
      some ⟨Placeholder.text json path suffix, json, path, suffix⟩ := by
  have hrest : '|' ∉ first :: rest := fun hmem ↦ hbar (hpath ▸ List.mem_cons_of_mem _ hmem)
  have hpathIn : "/" ++ String.ofList (first :: rest) = path := by simp [String.ext_iff, hpath]
  cases suffix with
  | none =>
      have hbegins : Begins (Placeholder.text json path none) json (first :: rest) := by
        refine ⟨?_, first, rest, rfl, is_segment_start_iff.1 hfirst⟩
        simp only [Placeholder.text, String.append_empty, String.toList_append, hpath]
        exact scheme_append_slash json _
      have hpathIn : pathIn (first :: rest) = path := by
        rw [pathIn, List.takeWhile_eq_self_iff.2 (Text.decide_ne_of_not_mem hrest), hpathIn]
      rw [parse_of_begins hbegins, parse_after_eq hbegins.starts, matched_in_of_not_mem hrest,
        suffix_in_of_not_mem hrest, hpathIn]
      simp [Placeholder.text]
  | some suffix =>
      obtain ⟨hne, hmem⟩ := hsuffix suffix rfl
      have hbegins : Begins (Placeholder.text json path (some suffix)) json
          (first :: rest ++ '|' :: suffix.toList) := by
        refine ⟨?_, first, rest ++ '|' :: suffix.toList, rfl, is_segment_start_iff.1 hfirst⟩
        simp only [Placeholder.text, String.toList_append, hpath, List.append_assoc]
        exact scheme_append_slash json _
      have hafter : AfterBar (first :: rest ++ '|' :: suffix.toList) suffix.toList :=
        ⟨_, rfl, hrest⟩
      have hpathIn : pathIn (first :: rest ++ '|' :: suffix.toList) = path := by
        rw [pathIn, Text.take_while_ne_cut hrest, hpathIn]
      have hrun : suffix.toList.takeWhile (· ≠ '|') = suffix.toList :=
        List.takeWhile_eq_self_iff.2 (Text.decide_ne_of_not_mem hmem)
      have hnil : suffix.toList ≠ [] := by simpa using hne
      rw [parse_of_begins hbegins, parse_after_eq hbegins.starts, matched_in_of_after_bar hafter,
        suffix_in_of_after_bar hafter, hpathIn, hrun, if_neg hnil, String.ofList_toList]
      simp [Placeholder.text, String.append_assoc]

end ConfigFill.Placeholder
