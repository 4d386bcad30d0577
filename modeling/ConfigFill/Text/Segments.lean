/-!
# Segments of a text

Cutting a text at every occurrence of a separator, and joining the pieces again. A text without
the separator has one segment, and every text has at least one. The main statements are
`joined_segments`, that cutting loses nothing but the separators, which joining puts back,
`segments_joined`, that joined pieces are cut where they were joined,
`segments_append`, that a cut at one separator is followed by the cuts on its two sides,
`segments_append_of_not_mem`, that all other text falls to the last segment, and
`segments_prefix_iff`, that a text has the segments of another first if it goes on after it with a
separator. A text can also be cut once, around the first run of characters of a class
(`exists_run`).
-/

namespace ConfigFill.Text

/-- The pieces of the text between occurrences of the separator, empty pieces included. -/
def segments (separator : Char) : List Char → List (List Char)
  | [] => [[]]
  | character :: rest =>
      if character = separator then [] :: segments separator rest
      else
        match segments separator rest with
        | [] => [[character]]
        | first :: others => (character :: first) :: others

/-- The pieces with the separator between every two of them. -/
def joined (separator : Char) : List (List Char) → List Char
  | [] => []
  | [last] => last
  | first :: others => first ++ separator :: joined separator others

/-- Every text has at least one segment. -/
theorem segments_ne_nil (separator : Char) (text : List Char) : segments separator text ≠ [] := by
  cases text with
  | nil => simp [segments]
  | cons character rest =>
      simp only [segments]
      split
      · simp
      · split <;> simp

/-- Joining the segments of a text gives the text back. -/
theorem joined_segments (separator : Char) (text : List Char) :
    joined separator (segments separator text) = text := by
  induction text with
  | nil => rfl
  | cons character rest ih =>
      have hrest := segments_ne_nil separator rest
      cases hs : segments separator rest with
      | nil => exact absurd hs hrest
      | cons first others =>
          rw [hs] at ih
          by_cases hc : character = separator
          · simp [segments, hc, hs, joined, ih]
          · cases others with
            | nil => simpa [segments, hc, hs, joined] using ih
            | cons second others => simpa [segments, hc, hs, joined] using ih

/-- No segment holds the separator. -/
theorem not_mem_of_mem_segments {separator : Char} {text segment : List Char}
    (h : segment ∈ segments separator text) : separator ∉ segment := by
  induction text generalizing segment with
  | nil =>
      obtain rfl : segment = [] := by simpa [segments] using h
      exact List.not_mem_nil
  | cons character rest ih =>
      by_cases hc : character = separator
      · rw [segments, if_pos hc, List.mem_cons] at h
        obtain rfl | h := h
        · exact List.not_mem_nil
        · exact ih h
      · obtain ⟨first, others, hs⟩ := List.exists_cons_of_ne_nil (segments_ne_nil separator rest)
        simp only [segments, hc, if_false, hs, List.mem_cons] at h
        obtain rfl | h := h
        · have hfirst : separator ∉ first := ih (by simp [hs])
          simp [Ne.symm hc, hfirst]
        · exact ih (by simp [hs, h])

/-- The segments of two texts with the separator between them are those of the first and then those
of the second. -/
theorem segments_append (separator : Char) (first second : List Char) :
    segments separator (first ++ separator :: second) =
      segments separator first ++ segments separator second := by
  induction first with
  | nil => simp [segments]
  | cons character rest ih =>
      by_cases hc : character = separator
      · simp [segments, hc, ih]
      · cases hs : segments separator rest with
        | nil => exact absurd hs (segments_ne_nil separator rest)
        | cons head others => simp [segments, hc, ih, hs]

/-- Pieces joined in two lots are joined with a separator between the lots. -/
theorem joined_append {separator : Char} {first second : List (List Char)} (hfirst : first ≠ [])
    (hsecond : second ≠ []) :
    joined separator (first ++ second) =
      joined separator first ++ separator :: joined separator second := by
  induction first with
  | nil => exact absurd rfl hfirst
  | cons piece rest ih =>
      cases rest with
      | nil =>
          obtain ⟨next, others, rfl⟩ := List.exists_cons_of_ne_nil hsecond
          rfl
      | cons next others =>
          have hrest := ih (List.cons_ne_nil next others)
          rw [List.cons_append] at hrest
          simp only [List.cons_append, joined, hrest, List.append_assoc]

/-- The segments of a text come first in those of another exactly if the other is the same text or
goes on after it with a separator. -/
theorem segments_prefix_iff {separator : Char} {first second : List Char} :
    segments separator first <+: segments separator second ↔
      second = first ∨ ∃ rest, second = first ++ separator :: rest := by
  constructor
  · rintro ⟨others, heq⟩
    have hsecond := joined_segments separator second
    rw [← heq] at hsecond
    by_cases hothers : others = []
    · rw [hothers, List.append_nil, joined_segments] at hsecond
      exact .inl hsecond.symm
    · rw [joined_append (segments_ne_nil separator first) hothers, joined_segments] at hsecond
      exact .inr ⟨joined separator others, hsecond.symm⟩
  · rintro (rfl | ⟨rest, rfl⟩)
    · exact List.prefix_rfl
    · rw [segments_append]
      exact List.prefix_append _ _

/-- No character of a text without the separator ends a scan for it. -/
theorem decide_ne_of_not_mem {separator : Char} {text : List Char} (h : separator ∉ text) :
    ∀ character ∈ text, decide (character ≠ separator) = true := by
  intro character hmem
  simp only [ne_eq, decide_eq_true_eq]
  rintro rfl
  exact h hmem

/-- A scan for a separator stops at the first one. -/
theorem take_while_ne_cut {separator : Char} {first : List Char} (h : separator ∉ first)
    (rest : List Char) : (first ++ separator :: rest).takeWhile (· ≠ separator) = first := by
  rw [List.takeWhile_append_of_pos (decide_ne_of_not_mem h)]
  simp

/-- What follows a run without the separator begins with the separator. -/
theorem drop_while_ne_cut {separator : Char} {first : List Char} (h : separator ∉ first)
    (rest : List Char) :
    (first ++ separator :: rest).dropWhile (· ≠ separator) = separator :: rest := by
  rw [List.dropWhile_append_of_pos (decide_ne_of_not_mem h)]
  simp

/-- A text has one cut at its first separator. -/
theorem cut_injective {separator : Char} {first second rest others : List Char}
    (hfirst : separator ∉ first) (hsecond : separator ∉ second)
    (h : first ++ separator :: rest = second ++ separator :: others) :
    first = second ∧ rest = others := by
  have htake := take_while_ne_cut hfirst rest
  have hdrop := drop_while_ne_cut hfirst rest
  rw [h, take_while_ne_cut hsecond] at htake
  rw [h, drop_while_ne_cut hsecond] at hdrop
  exact ⟨htake.symm, (List.cons.inj hdrop).2.symm⟩

/-- A text without the separator is its only segment. -/
theorem segments_of_not_mem {separator : Char} {text : List Char} (h : separator ∉ text) :
    segments separator text = [text] := by
  induction text with
  | nil => rfl
  | cons character rest ih =>
      rw [List.mem_cons, not_or] at h
      have hc : ¬ character = separator := fun heq ↦ h.1 heq.symm
      simp [segments, hc, ih h.2]

/-- Pieces without the separator are the segments of the text that they are joined to. -/
theorem segments_joined {separator : Char} {pieces : List (List Char)} (hne : pieces ≠ [])
    (h : ∀ piece ∈ pieces, separator ∉ piece) :
    segments separator (joined separator pieces) = pieces := by
  induction pieces with
  | nil => exact absurd rfl hne
  | cons piece rest ih =>
      have hpiece : segments separator piece = [piece] := segments_of_not_mem (h piece (by simp))
      cases rest with
      | nil => exact hpiece
      | cons next others =>
          have hrest := ih (List.cons_ne_nil next others) fun other hmem ↦
            h other (List.mem_cons_of_mem piece hmem)
          rw [joined, segments_append, hpiece, hrest]
          · rfl
          · simp

/-- A text without the separator after another text lengthens its last segment. -/
theorem segments_append_of_not_mem {separator : Char} (text : List Char) {suffix : List Char}
    (h : separator ∉ suffix) :
    ∃ before last, segments separator text = before ++ [last] ∧
      segments separator (text ++ suffix) = before ++ [last ++ suffix] := by
  induction text with
  | nil => exact ⟨[], [], rfl, segments_of_not_mem h⟩
  | cons character rest ih =>
      obtain ⟨before, last, hrest, happended⟩ := ih
      by_cases hc : character = separator
      · exact ⟨[] :: before, last, by simp [segments, hc, hrest], by simp [segments, hc, happended]⟩
      · cases before with
        | nil =>
            refine ⟨[], character :: last, ?_, ?_⟩
            · simp [segments, hc, hrest]
            · simp [segments, hc, happended]
        | cons first before =>
            refine ⟨(character :: first) :: before, last, ?_, ?_⟩
            · simp [segments, hc, hrest]
            · simp [segments, hc, happended]

/-- A text is cut at the first run of characters of a class: what stands before the run, the run, and
what follows it. -/
theorem exists_run (inClass : Char → Bool) (text : List Char) :
    ∃ word run more, text = word ++ run ++ more ∧ (∀ character ∈ word, inClass character = false) ∧
      (∀ character ∈ run, inClass character = true) ∧
      (∀ next, more.head? = some next → inClass next = false) ∧ (run = [] → more = []) := by
  have hcut : text = text.takeWhile (!inClass ·) ++ text.dropWhile (!inClass ·) :=
    List.takeWhile_append_dropWhile.symm
  have hword : ∀ character ∈ text.takeWhile (!inClass ·), inClass character = false :=
    fun character hmem ↦ by simpa using List.all_eq_true.1 List.all_takeWhile character hmem
  cases htail : text.dropWhile (!inClass ·) with
  | nil =>
      rw [htail] at hcut
      exact ⟨_, [], [], by simpa using hcut, hword, by simp, by simp, fun _ ↦ rfl⟩
  | cons next others =>
      have hnext : inClass next = true := by
        have hhead := List.head_dropWhile_not (!inClass ·) (by rw [htail]; exact List.cons_ne_nil _ _)
        simpa [htail] using hhead
      rw [htail] at hcut
      refine ⟨_, (next :: others).takeWhile inClass, (next :: others).dropWhile inClass, ?_, hword,
        fun character hmem ↦ List.all_eq_true.1 List.all_takeWhile character hmem, ?_, ?_⟩
      · rw [List.append_assoc, List.takeWhile_append_dropWhile]
        exact hcut
      · intro first hfirst
        have hhead := List.head?_dropWhile_not inClass (next :: others)
        rwa [hfirst] at hhead
      · intro hempty
        simp [hnext] at hempty

end ConfigFill.Text
