import ConfigFill.Proofs.Command.Filling

/-!
# Checking files one by one

The command that checks files goes through all of them, whatever becomes of each: those that can be
loaded are listed on its output, the others reported among its messages, both in the order in which
they are named. Merging the same files stops at the first that cannot be loaded, so the two agree on
whether all is well (`exists_load_merged_iff`). The main statement is `check_goes_through_files`.
-/

namespace ConfigFill

/-- The number of lines of a text, each ended by a line break. -/
def lineCount (text : String) : Nat :=
  text.toList.count '\n'

/-- Two texts in a row have the lines of both. -/
theorem line_count_append (first second : String) :
    lineCount (first ++ second) = lineCount first + lineCount second := by
  simp [lineCount]

/-- Texts of one line each. -/
theorem line_count_join {texts : List String} (h : ∀ text ∈ texts, lineCount text = 1) :
    lineCount (String.join texts) = texts.length := by
  induction texts with
  | nil => rfl
  | cons text rest ih =>
      rw [List.forall_mem_cons] at h
      rw [String.join_cons, line_count_append, h.1, ih h.2, List.length_cons, Nat.add_comm]

/-- A number is written without line breaks. -/
theorem line_count_number (value : Nat) : lineCount (toString value) = 0 := by
  have hdigits : '\n' ∉ (toString value).toList := by
    rw [Nat.toString_eq_repr, Nat.toList_repr]
    intro hmem
    exact absurd (Text.is_digit_of_mem_to_digits hmem) (by decide)
  exact List.count_eq_zero.2 hdigits

namespace Command

/-- The files that can be loaded, with their trees. -/
def loadedFiles (files : Files) (paths : List String) : List (String × Tree) :=
  paths.filterMap fun path ↦
    match Document.load files path with
    | .ok tree => some (path, tree)
    | .error _ => none

/-- The files that cannot be loaded, each with the reason. -/
def refusedFiles (files : Files) (paths : List String) : List (String × Failure) :=
  paths.filterMap fun path ↦
    match Document.load files path with
    | .ok _ => none
    | .error failure => some (path, failure)

/-- The line at the head of a file's placeholders, with their number. -/
def heading (file : String) (count : Nat) : String :=
  s!"✓ {file}: {count} placeholder(s)\n"

/-- The line of a placeholder: its place in the file and its path, and then that it asks for JSON, if
it does, and its suffix, if it has one. -/
def placeLine (place : Tree.Path) (placeholder : Placeholder) : String :=
  match placeholder.json, placeholder.suffix with
  | false, none => s!"    {place.shown} -> {placeholder.path}\n"
  | true, none => s!"    {place.shown} -> {placeholder.path} (json)\n"
  | false, some suffix => s!"    {place.shown} -> {placeholder.path} + '{suffix}'\n"
  | true, some suffix => s!"    {place.shown} -> {placeholder.path} (json) + '{suffix}'\n"

/-- The lines about a file that can be loaded: the heading and one for each of its placeholders. -/
def listing (file : String) (tree : Tree) : List String :=
  heading file tree.placeholders.length ::
    tree.placeholders.map fun (place, placeholder) ↦ placeLine place placeholder

/-- The report of a file that cannot be loaded. -/
def report (file : String) (failure : Failure) : String :=
  s!"✗ {file}: {failure.message}\n"

variable {files : Files} {path : String} {rest : List String}

/-- A file that can be loaded comes before the others that can be. -/
theorem loaded_files_ok {tree : Tree} (h : Document.load files path = .ok tree) :
    loadedFiles files (path :: rest) = (path, tree) :: loadedFiles files rest := by
  simp [loadedFiles, h]

/-- A file that cannot be loaded is left out of those that can be. -/
theorem loaded_files_error {failure : Failure} (h : Document.load files path = .error failure) :
    loadedFiles files (path :: rest) = loadedFiles files rest := by
  simp [loadedFiles, h]

/-- A file that can be loaded is left out of those that cannot be. -/
theorem refused_files_ok {tree : Tree} (h : Document.load files path = .ok tree) :
    refusedFiles files (path :: rest) = refusedFiles files rest := by
  simp [refusedFiles, h]

/-- A file that cannot be loaded comes before the others that cannot be. -/
theorem refused_files_error {failure : Failure} (h : Document.load files path = .error failure) :
    refusedFiles files (path :: rest) = (path, failure) :: refusedFiles files rest := by
  simp [refusedFiles, h]

/-- No file is refused exactly if each can be loaded. -/
theorem refused_files_eq_nil_iff {paths : List String} :
    refusedFiles files paths = [] ↔ ∀ path ∈ paths, ∃ tree, Document.load files path = .ok tree := by
  induction paths with
  | nil => simp [refusedFiles]
  | cons path rest ih =>
      rw [List.forall_mem_cons, ← ih]
      cases h : Document.load files path with
      | ok tree => simp [refused_files_ok h]
      | error failure => simp [refused_files_error h]

/-- The line that the program writes about a placeholder is the one that it should have. -/
theorem placeholder_line_eq (place : Tree.Path) (placeholder : Placeholder) :
    placeholderLine place placeholder = placeLine place placeholder := by
  obtain ⟨matched, json, path, suffix⟩ := placeholder
  rw [String.ext_iff]
  cases json <;> cases suffix <;> simp [placeholderLine, placeLine, toString]

/-- A file that can be loaded is listed, and the others are checked as if it were not there. -/
theorem check_files_ok {tree : Tree} (h : Document.load files path = .ok tree) :
    checkFiles files (path :: rest) =
      { checkFiles files rest with
        output := String.join (listing path tree) ++ (checkFiles files rest).output } := by
  simp [checkFiles, checkFile, h, listing, heading, placeholderLines, placeholder_line_eq,
    String.join_cons]

/-- A file that cannot be loaded is reported and makes the whole check fail, and the others are checked
all the same. -/
theorem check_files_error {failure : Failure} (h : Document.load files path = .error failure) :
    checkFiles files (path :: rest) =
      { checkFiles files rest with
        status := .misused
        messages := report path failure ++ (checkFiles files rest).messages } := by
  simp [checkFiles, checkFile, h, report, String.join_cons]

/-- What comes of checking files, in terms of those that can be loaded and those that cannot. -/
theorem check_files_eq (files : Files) (paths : List String) :
    checkFiles files paths =
      { status := if refusedFiles files paths = [] then .success else .misused
        output := String.join ((loadedFiles files paths).flatMap fun (file, tree) ↦ listing file tree)
        messages :=
          String.join ((refusedFiles files paths).map fun (file, failure) ↦ report file failure)
        written := none } := by
  induction paths with
  | nil => rfl
  | cons path rest ih =>
      cases h : Document.load files path with
      | ok tree =>
          rw [check_files_ok h, ih, loaded_files_ok h, refused_files_ok h, List.flatMap_cons,
            String.join_append]
      | error failure =>
          rw [check_files_error h, ih, loaded_files_error h, refused_files_error h, List.map_cons,
            String.join_cons, if_neg (List.cons_ne_nil _ _)]

/-! ## Counting lines -/

/-- A heading takes one line more than the file's name has line breaks. -/
theorem line_count_heading (file : String) (count : Nat) :
    lineCount (heading file count) = lineCount file + 1 := by
  have htext : heading file count =
      "✓ " ++ file ++ ": " ++ toString count ++ " placeholder(s)\n" := rfl
  have hmark : lineCount "✓ " = 0 := by decide
  have hcolon : lineCount ": " = 0 := by decide
  have hend : lineCount " placeholder(s)\n" = 1 := by decide
  rw [htext]
  simp only [line_count_append, line_count_number, hmark, hcolon, hend]
  omega

/-- The line of a placeholder takes one line more than its place, its path and its suffix have line
breaks. -/
theorem line_count_place_line (place : Tree.Path) (placeholder : Placeholder) :
    lineCount (placeLine place placeholder) =
      lineCount place.shown + lineCount placeholder.path +
        lineCount (placeholder.suffix.getD "") + 1 := by
  have hindent : lineCount "    " = 0 := by decide
  have harrow : lineCount " -> " = 0 := by decide
  have hend : lineCount "\n" = 1 := by decide
  have hmark : lineCount " (json)" = 0 := by decide
  have hopen : lineCount " + '" = 0 := by decide
  have hclose : lineCount "'" = 0 := by decide
  have hnone : lineCount "" = 0 := rfl
  obtain ⟨matched, json, path, suffix⟩ := placeholder
  rw [← placeholder_line_eq]
  cases json <;> cases suffix <;>
    simp [placeholderLine, toString, line_count_append, hindent, harrow, hend, hmark, hopen, hclose,
      hnone]

/-- Nothing that is named about a file takes more than one line: neither the file nor the places,
paths and suffixes of its placeholders. -/
def NamedInLine (file : String) (tree : Tree) : Prop :=
  lineCount file = 0 ∧ ∀ found ∈ tree.placeholders, lineCount found.1.shown = 0 ∧
    lineCount found.2.path = 0 ∧ lineCount (found.2.suffix.getD "") = 0

/-- Without line breaks in names, everything about a file takes one line. -/
theorem line_count_of_mem_listing {file : String} {tree : Tree} (h : NamedInLine file tree)
    {line : String} (hmem : line ∈ listing file tree) : lineCount line = 1 := by
  obtain ⟨hfile, hfound⟩ := h
  obtain hline | hmem := List.mem_cons.1 hmem
  · rw [hline, line_count_heading, hfile]
  · obtain ⟨found, hplaceholder, hline⟩ := List.mem_map.1 hmem
    obtain ⟨hplace, hpath, hsuffix⟩ := hfound found hplaceholder
    rw [← hline, line_count_place_line, hplace, hpath, hsuffix]

/-- There is a heading for each file and a line for each placeholder. -/
theorem length_listings (loaded : List (String × Tree)) :
    (loaded.flatMap fun (file, tree) ↦ listing file tree).length =
      loaded.length + (loaded.flatMap fun (_, tree) ↦ tree.placeholders).length := by
  induction loaded with
  | nil => rfl
  | cons entry rest ih =>
      obtain ⟨file, tree⟩ := entry
      have hlisting : (listing file tree).length = tree.placeholders.length + 1 := by
        simp [listing]
      rw [List.flatMap_cons, List.length_append, ih, hlisting, List.flatMap_cons,
        List.length_append, List.length_cons]
      show _ = _ + (tree.placeholders.length + _)
      omega

/-- Each file has one line for its heading and one for each of its placeholders. -/
theorem line_count_listings {loaded : List (String × Tree)}
    (h : ∀ entry ∈ loaded, NamedInLine entry.1 entry.2) :
    lineCount (String.join (loaded.flatMap fun (file, tree) ↦ listing file tree)) =
      loaded.length + (loaded.flatMap fun (_, tree) ↦ tree.placeholders).length := by
  rw [← length_listings]
  refine line_count_join ?_
  intro line hmem
  obtain ⟨entry, hentry, hline⟩ := List.mem_flatMap.1 hmem
  exact line_count_of_mem_listing (h entry hentry) hline

/-- The command that checks files loads each of them in order, whatever becomes of the others, and
does nothing besides: no store is asked and nothing is logged. Its output is, for each file that can be
loaded, a heading with the number of its placeholders and one line for each of them in their order;
its messages are one report for each file that cannot be loaded. The exit code is zero if all can be
loaded, which is the case exactly if they can be merged, and two otherwise. Where no name has a line
break in it, the output has one line for each file that can be loaded and one for each of its
placeholders. -/
theorem check_goes_through_files (surroundings : Surroundings) (paths : List String)
    (verbose : Bool) :
    let (trace, outcome) := (Command.check paths).run surroundings verbose
    let loaded := loadedFiles surroundings.files paths
    trace = [] ∧
      outcome.output = String.join (loaded.flatMap fun (file, tree) ↦ listing file tree) ∧
      outcome.messages = String.join ((refusedFiles surroundings.files paths).map
        fun (file, failure) ↦ report file failure) ∧
      outcome.written = none ∧
      (outcome.status.code = 0 ↔
        ∀ path ∈ paths, ∃ tree, Document.load surroundings.files path = .ok tree) ∧
      (outcome.status.code ≠ 0 → outcome.status.code = 2) ∧
      (outcome.status.code = 0 ↔
        ∃ tree, (Document.loadMerged surroundings.files paths).start.2 = .ok tree) ∧
      ((∀ entry ∈ loaded, NamedInLine entry.1 entry.2) → lineCount outcome.output =
        loaded.length + (loaded.flatMap fun (_, tree) ↦ tree.placeholders).length) := by
  have hrun : (Command.check paths).run surroundings verbose =
      ([], checkFiles surroundings.files paths) := by
    have hlog : (if verbose then shownLog [] else "") = "" := by
      cases verbose <;> rfl
    show ([], { checkFiles surroundings.files paths with
      messages := (if verbose then shownLog [] else "") ++
        (checkFiles surroundings.files paths).messages }) = _
    rw [hlog, String.empty_append]
  rw [hrun, check_files_eq]
  have hcode : (if refusedFiles surroundings.files paths = [] then Status.success
      else Status.misused).code = 0 ↔ refusedFiles surroundings.files paths = [] := by
    split <;> simp [Status.code, *]
  refine ⟨rfl, rfl, rfl, rfl, hcode.trans refused_files_eq_nil_iff, ?_, ?_, ?_⟩
  · intro hne
    show Status.code (if _ then _ else _) = 2
    rw [if_neg fun hnil ↦ hne (hcode.2 hnil)]
    rfl
  · rw [Document.exists_load_merged_iff, ← refused_files_eq_nil_iff]
    exact hcode
  · exact line_count_listings

end Command

end ConfigFill
