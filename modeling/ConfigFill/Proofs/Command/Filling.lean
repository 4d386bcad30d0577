import ConfigFill.Command.Execution
import ConfigFill.Proofs.Document.Loading

/-!
# Filling files, all or nothing

What the command that fills files comes to, in terms of the operations that it is made of: loading
and merging, opening the source of parameter values, filling, selecting, rendering and writing.
`Ends` names the four ways in which it can end, and `fill_files_ends` says that it ends in one of
them. The main statement, `fill_all_or_nothing`, reads off the exit code, what is put out and what
is written, for every choice of arguments and surroundings.
-/

namespace ConfigFill

open Effect (Settled)

namespace Command

variable {surroundings : Surroundings} {files : List String} {format : String}
  {output select : Option String} {source : Source}

/-! ## The stages before filling -/

/-- The source of parameter values can be opened and is this store: the table in the parameters file
if one is given, and the service otherwise. -/
inductive Source.Opens (surroundings : Surroundings) (source : Source) : Store → Prop where
  | file {path : String} {tree : Tree} {table : Parameter.Table}
      (h : source.parametersFile = some path)
      (hload : Document.load surroundings.files path = .ok tree)
      (htable : Parameter.Table.ofTree tree = .ok table) : source.Opens surroundings table.store
  | service (h : source.parametersFile = none) :
      source.Opens surroundings surroundings.service.store

/-- All that comes before filling goes well: files are named, the format is not plain text, the
files make this tree, and the source is this store. -/
structure Prepared (surroundings : Surroundings) (files : List String) (format : String)
    (source : Source) (tree : Tree) (store : Store) : Prop where
  named : files ≠ []
  format : format ≠ "text"
  merged : (Document.loadMerged surroundings.files files).start.2 = .ok tree
  opened : source.Opens surroundings store

/-- Loading the configuration asks for no path. -/
theorem load_configuration_settled (files : Files) (paths : List String) :
    Settled (loadConfiguration files paths) := by
  unfold loadConfiguration
  split
  · exact .fail _
  · exact (Document.load_merged_settled files paths).map_failure

/-- The configuration is loaded exactly if files are named and can be merged. -/
theorem load_configuration_ok_iff {files : Files} {paths : List String} {tree : Tree} :
    (loadConfiguration files paths).start.2 = .ok tree ↔
      paths ≠ [] ∧ (Document.loadMerged files paths).start.2 = .ok tree := by
  cases paths with
  | nil => simp [loadConfiguration, Effect.fail, Effect.start]
  | cons path rest =>
      have hloaded : (loadConfiguration files (path :: rest)).start.2 =
          (Document.loadMerged files (path :: rest)).start.2.mapError fun failure ↦
            .misuse s!"Failed to load configuration: {failure.message}" := rfl
      simp [hloaded, Except.map_error_eq_ok_iff]

/-- Where the operation stops, it does so on account of files, arguments or the output target. -/
def Misused {α : Type} (outcome : Except Stop α) : Prop :=
  ∀ stop, outcome = .error stop → stop.status = .misused

/-- A failure that is reported as misuse is one. -/
theorem misused_of_map_error {ε α : Type} {outcome : Except ε α} {reason : ε → String} :
    Misused (outcome.mapError fun failure ↦ .misuse (reason failure)) := by
  intro stop hstop
  cases outcome with
  | ok value => cases hstop
  | error failure =>
      cases hstop
      rfl

/-- Steps that fail by misuse only do so one after the other too. -/
theorem Misused.bind {α β : Type} {outcome : Except Stop α} {next : α → Except Stop β}
    (h : Misused outcome) (hnext : ∀ value, Misused (next value)) : Misused (outcome >>= next) := by
  cases outcome with
  | ok value => exact hnext value
  | error stop =>
      rintro _ ⟨⟩
      exact h stop rfl

/-- A configuration that cannot be loaded is misuse. -/
theorem misused_load_configuration (files : Files) (paths : List String) :
    Misused (loadConfiguration files paths).start.2 := by
  unfold loadConfiguration
  split
  · rintro _ ⟨⟩
    rfl
  · exact misused_of_map_error

/-- A table is loaded exactly if its file is and the document makes a table. -/
theorem load_table_ok_iff {files : Files} {path : String} {table : Parameter.Table} :
    loadTable files path = .ok table ↔
      ∃ tree, Document.load files path = .ok tree ∧ Parameter.Table.ofTree tree = .ok table := by
  simp only [loadTable, Except.bind_eq_ok_iff, Except.map_error_eq_ok_iff]

/-- A table that cannot be loaded is misuse. -/
theorem misused_load_table (files : Files) (path : String) : Misused (loadTable files path) :=
  misused_of_map_error.bind fun _ ↦ misused_of_map_error

/-- Opening the source of parameter values asks for no path. -/
theorem open_resolver_settled (surroundings : Surroundings) (source : Source) :
    Settled (openResolver surroundings source) := by
  unfold openResolver
  split
  · exact (Settled.of_except _).bind fun table ↦ (Settled.log _).bind fun _ ↦ .pure _
  · exact (Settled.log _).bind fun _ ↦ .pure _

/-- With a parameters file, the source is the table in it. -/
theorem open_resolver_file {path : String} (h : source.parametersFile = some path) :
    (openResolver surroundings source).start.2 =
      (loadTable surroundings.files path).map fun table ↦ ⟨table.store⟩ := by
  simp only [openResolver, h]
  refine ((Settled.of_except _).outcome_bind _ []).trans ?_
  show loadTable surroundings.files path >>= _ = _
  cases loadTable surroundings.files path <;> rfl

/-- Without a parameters file, the source is the service. -/
theorem open_resolver_service (h : source.parametersFile = none) :
    (openResolver surroundings source).start.2 = .ok ⟨surroundings.service.store⟩ := by
  simp only [openResolver, h]
  rfl

/-- A source is opened as a store exactly if it opens as that store. -/
theorem open_resolver_ok_iff {store : Store} :
    (openResolver surroundings source).start.2 = .ok ⟨store⟩ ↔
      source.Opens surroundings store := by
  constructor
  · intro h
    cases hpath : source.parametersFile with
    | none =>
        obtain rfl : surroundings.service.store = store := by
          simpa [open_resolver_service hpath] using h
        exact .service hpath
    | some path =>
        rw [open_resolver_file hpath] at h
        cases htable : loadTable surroundings.files path with
        | error stop => simp [htable, Except.map] at h
        | ok table =>
            obtain ⟨tree, hload, hread⟩ := load_table_ok_iff.1 htable
            obtain rfl : table.store = store := by simpa [htable, Except.map] using h
            exact .file hpath hload hread
  · intro h
    cases h with
    | file hpath hload hread =>
        rw [open_resolver_file hpath, load_table_ok_iff.2 ⟨_, hload, hread⟩]
        rfl
    | service hpath => exact open_resolver_service hpath

/-- A source that cannot be opened is misuse. -/
theorem misused_open_resolver (surroundings : Surroundings) (source : Source) :
    Misused (openResolver surroundings source).start.2 := by
  intro stop hstop
  cases hpath : source.parametersFile with
  | none => simp [open_resolver_service hpath] at hstop
  | some path =>
      rw [open_resolver_file hpath] at hstop
      cases htable : loadTable surroundings.files path with
      | ok table => simp [htable, Except.map] at hstop
      | error other =>
          obtain rfl : other = stop := by simpa [htable, Except.map] using hstop
          exact misused_load_table _ _ _ htable

/-- There is one way in which all goes well before filling. -/
theorem Prepared.unique {tree other : Tree} {store store' : Store}
    (h : Prepared surroundings files format source tree store)
    (hother : Prepared surroundings files format source other store') :
    tree = other ∧ store = store' := by
  obtain ⟨_, _, hmerged, hopened⟩ := h
  obtain ⟨_, _, hmerged', hopened'⟩ := hother
  have hopened := open_resolver_ok_iff.2 hopened
  have hopened' := open_resolver_ok_iff.2 hopened'
  rw [hmerged] at hmerged'
  rw [hopened] at hopened'
  simp_all

/-! ## The stages after filling -/

/-- The text stands for the selected part of the tree, in a format that is not plain text: all of the
tree if nothing is selected, as JSON with a line break at its end or as YAML. -/
structure Shows (format : String) (select : Option String) (tree part : Tree) (text : String) :
    Prop where
  selected : match select with
    | none => part = tree
    | some path => tree.select path = .ok part
  rendered : format = "json" ∧ text = Json.pretty part ++ "\n" ∨
    (format = "yaml" ∨ format = "yml") ∧ text = Yaml.render part

/-- What is shown of a tree is one text. -/
theorem Shows.unique {tree part other : Tree} {text otherText : String}
    (h : Shows format select tree part text) (hother : Shows format select tree other otherText) :
    text = otherText := by
  obtain ⟨hpart, htext⟩ := h
  obtain ⟨hpart', htext'⟩ := hother
  obtain rfl : part = other := by
    cases select with
    | none => exact hpart.trans hpart'.symm
    | some path => exact Except.ok.inj (hpart.symm.trans hpart')
  rcases htext with ⟨rfl, rfl⟩ | ⟨hyaml, rfl⟩
  · simpa [eq_comm] using htext'
  · rcases hyaml with rfl | rfl <;> simpa [eq_comm] using htext'

/-- The output can be written, if it goes to a file. -/
def Writable (files : Files) (output : Option String) : Prop :=
  ∀ path, output = some path → files.refusal path = none

/-- What comes of a text that is delivered: it is put out, or it is what the output file holds. -/
def Outcome.ofText (output : Option String) (text : String) : Outcome :=
  match output with
  | none => ⟨.success, text, "", none⟩
  | some path => ⟨.success, "", s!"✓ Wrote to {path}\n", some (path, text)⟩

/-- What is selected is the tree itself or what the given path selects in it. -/
theorem selected_ok_iff {tree part : Tree} :
    selected select tree = .ok part ↔
      match select with
      | none => part = tree
      | some path => tree.select path = .ok part := by
  cases select with
  | none => simp [selected, eq_comm]
  | some path => simp [selected, Except.map_error_eq_ok_iff]

/-- A path that selects nothing is misuse. -/
theorem misused_selected (select : Option String) (tree : Tree) :
    Misused (selected select tree) := by
  cases select with
  | none => rintro _ ⟨⟩
  | some path => exact misused_of_map_error

/-- A tree is written as JSON or YAML, as the format says, and in no other format but plain text. -/
theorem rendered_ok_iff (hformat : format ≠ "text") {tree : Tree} {text : String} :
    rendered format tree = .ok text ↔
      (format = "json" ∧ text = Json.pretty tree ++ "\n") ∨
        ((format = "yaml" ∨ format = "yml") ∧ text = Yaml.render tree) := by
  rw [rendered, Except.map_error_eq_ok_iff]
  unfold render
  split
  · simp [eq_comm]
  · simp [eq_comm]
  · simp [eq_comm]
  · exact absurd rfl hformat
  · rename_i hjson hyaml hyml _
    constructor
    · intro h
      cases h
    · rintro (⟨h, _⟩ | ⟨h | h, _⟩)
      · exact absurd h hjson
      · exact absurd h hyaml
      · exact absurd h hyml

/-- A text is delivered exactly if its target can be written, and then all of it. -/
theorem deliver_ok_iff {files : Files} {text : String} {outcome : Outcome} :
    deliver files output text = .ok outcome ↔
      Writable files output ∧ outcome = .ofText output text := by
  cases output with
  | none => simp [deliver, Writable, Outcome.ofText, eq_comm]
  | some path =>
      cases hrefusal : files.refusal path with
      | none => simp [deliver, hrefusal, Writable, Outcome.ofText, eq_comm]
      | some fault => simp [deliver, hrefusal, Writable]

/-- A target that cannot be written is misuse. -/
theorem misused_deliver (files : Files) (output : Option String) (text : String) :
    Misused (deliver files output text) := by
  unfold deliver
  split
  · rintro _ ⟨⟩
  · split
    · rintro _ ⟨⟩
      rfl
    · rintro _ ⟨⟩

/-- Whatever keeps a tree from being put out is misuse. -/
theorem misused_put_out (files : Files) (format : String) (output select : Option String)
    (tree : Tree) : Misused (putOut files format output select tree) :=
  (misused_selected select tree).bind fun _ ↦
    misused_of_map_error.bind fun _ ↦ misused_deliver files output _

/-- A tree is put out exactly if something of it can be shown and the target can be written. -/
theorem put_out_ok_iff (hformat : format ≠ "text") {files : Files} {tree : Tree}
    {outcome : Outcome} :
    putOut files format output select tree = .ok outcome ↔
      ∃ part text, Shows format select tree part text ∧ Writable files output ∧
        outcome = .ofText output text := by
  simp only [putOut, Except.bind_eq_ok_iff, selected_ok_iff, rendered_ok_iff hformat,
    deliver_ok_iff]
  constructor
  · rintro ⟨part, hpart, text, htext, hwritable, rfl⟩
    exact ⟨part, text, ⟨hpart, htext⟩, hwritable, rfl⟩
  · rintro ⟨part, text, ⟨hpart, htext⟩, hwritable, rfl⟩
    exact ⟨part, hpart, text, htext, hwritable, rfl⟩

/-! ## The whole command -/

/-- How filling files ends: it stops before filling, in filling or after it, or it delivers a text. -/
inductive Ends (surroundings : Surroundings) (files : List String) (format : String)
    (output select : Option String) (source : Source) : Except Stop Outcome → Prop where
  | unprepared {stop : Stop} (hstatus : stop.status = .misused)
      (h : ∀ tree store, ¬ Prepared surroundings files format source tree store) :
      Ends surroundings files format output select source (.error stop)
  | unresolved {stop : Stop} {tree : Tree} {store : Store} {failure : Failure}
      (hstatus : stop.status = .unresolved)
      (h : Prepared surroundings files format source tree store)
      (hfill : (tree.fill surroundings.environment store).start.2 = .error failure) :
      Ends surroundings files format output select source (.error stop)
  | refused {stop : Stop} {tree filled : Tree} {store : Store} (hstatus : stop.status = .misused)
      (h : Prepared surroundings files format source tree store)
      (hfill : (tree.fill surroundings.environment store).start.2 = .ok filled)
      (hrefused : ∀ part text, Shows format select filled part text →
        ¬ Writable surroundings.files output) :
      Ends surroundings files format output select source (.error stop)
  | delivered {tree filled part : Tree} {store : Store} {text : String}
      (h : Prepared surroundings files format source tree store)
      (hfill : (tree.fill surroundings.environment store).start.2 = .ok filled)
      (hshows : Shows format select filled part text)
      (hwritable : Writable surroundings.files output) :
      Ends surroundings files format output select source (.ok (Outcome.ofText output text))

/-- The command is its stages one after the other, each as if it stood alone. -/
theorem fill_files_outcome (hformat : format ≠ "text") :
    (fillFiles surroundings files format output select source).start.2 =
      (loadConfiguration surroundings.files files).start.2 >>= fun tree ↦
        (openResolver surroundings source).start.2 >>= fun resolver ↦
          ((tree.fill surroundings.environment resolver.store).start.2.mapError fun failure ↦
            .unresolved ("✗ Resolution failed\n\n" ++ failure.message)) >>=
              putOut surroundings.files format output select := by
  have hafter (tree : Tree) (resolver : Resolver) :
      ((Effect.log (.fillingStarted resolver.name) >>= fun _ ↦
          ((resolver.fill surroundings.environment tree).mapFailure fun failure ↦
            .unresolved ("✗ Resolution failed\n\n" ++ failure.message)) >>= fun filled ↦
              .ofExcept (putOut surroundings.files format output select filled)) []).2 =
        ((tree.fill surroundings.environment resolver.store).start.2.mapError fun failure ↦
          .unresolved ("✗ Resolution failed\n\n" ++ failure.message)) >>=
            putOut surroundings.files format output select :=
    ((Settled.log _).outcome_bind _ []).trans (Effect.outcome_bind_of_except _ _ [])
  simp only [fillFiles, hformat, if_false]
  refine ((load_configuration_settled _ _).outcome_bind _ []).trans (congrArg _ (funext fun tree ↦ ?_))
  refine ((open_resolver_settled _ _).outcome_bind _ []).trans (congrArg _ (funext fun resolver ↦ ?_))
  exact hafter tree resolver

/-- Filling files ends in one of the four ways. -/
theorem fill_files_ends (surroundings : Surroundings) (files : List String) (format : String)
    (output select : Option String) (source : Source) :
    Ends surroundings files format output select source
      (fillFiles surroundings files format output select source).start.2 := by
  by_cases hformat : format = "text"
  · have hstop : (fillFiles surroundings files format output select source).start.2 =
        .error (.misuse "Unsupported format: text. Use yaml or json.") := by
      simp only [fillFiles, hformat, if_true]
      rfl
    rw [hstop]
    exact .unprepared rfl fun _ _ h ↦ h.format hformat
  rw [fill_files_outcome hformat]
  cases hload : (loadConfiguration surroundings.files files).start.2 with
  | error stop =>
      refine .unprepared (misused_load_configuration _ _ stop hload) fun tree store h ↦ ?_
      rw [load_configuration_ok_iff.2 ⟨h.named, h.merged⟩] at hload
      cases hload
  | ok tree =>
      obtain ⟨hnamed, hmerged⟩ := load_configuration_ok_iff.1 hload
      cases hopen : (openResolver surroundings source).start.2 with
      | error stop =>
          refine .unprepared (misused_open_resolver _ _ stop hopen) fun tree store h ↦ ?_
          rw [open_resolver_ok_iff.2 h.opened] at hopen
          cases hopen
      | ok resolver =>
          have hprepared : Prepared surroundings files format source tree resolver.store :=
            ⟨hnamed, hformat, hmerged, open_resolver_ok_iff.1 hopen⟩
          cases hfill : (tree.fill surroundings.environment resolver.store).start.2 with
          | error failure =>
              simp only [bind, Except.bind, hfill, Except.mapError]
              exact .unresolved rfl hprepared hfill
          | ok filled =>
              simp only [bind, Except.bind, hfill, Except.mapError]
              cases hput : putOut surroundings.files format output select filled with
              | error stop =>
                  refine .refused (misused_put_out _ _ _ _ _ stop hput) hprepared hfill ?_
                  intro part text hshows hwritable
                  rw [(put_out_ok_iff hformat).2 ⟨part, text, hshows, hwritable, rfl⟩] at hput
                  cases hput
              | ok outcome =>
                  obtain ⟨part, text, hshows, hwritable, rfl⟩ := (put_out_ok_iff hformat).1 hput
                  exact .delivered hprepared hfill hshows hwritable

/-- Only with files do the arguments of a command make one that fills files. -/
theorem read_command_named {name : String} {arguments : List String} {verbose : Bool}
    (h : readCommand name arguments = .ok (.fill files format output select source, verbose)) :
    files ≠ [] := by
  unfold readCommand at h
  split at h
  · obtain ⟨given, _, hgiven⟩ := Except.bind_eq_ok_iff.1 h
    split at hgiven
    · cases hgiven
    · rename_i hoperands
      cases hgiven
      simpa using hoperands
  · obtain ⟨given, _, hgiven⟩ := Except.bind_eq_ok_iff.1 h
    split at hgiven <;> cases hgiven
  · obtain ⟨given, _, hgiven⟩ := Except.bind_eq_ok_iff.1 h
    split at hgiven <;> cases hgiven
  · cases h
  · cases h

/-- The arguments of a command that fills files name a file. -/
theorem read_invocation_named {arguments : List String} {verbose inner : Bool}
    (h : readInvocation verbose arguments = .ok (.fill files format output select source, inner)) :
    files ≠ [] := by
  -- Flags before the command are read one argument after the other.
  induction arguments generalizing verbose with
  | nil => cases h
  | cons argument rest ih =>
      unfold readInvocation at h
      split at h
      · split at h
        · split at h
          · cases h
          · exact ih h
        · cases h
        · cases h
        · cases h
      · obtain ⟨flag, _, hrest⟩ := Except.bind_eq_ok_iff.1 h
        exact ih hrest
      · cases hcommand : readCommand argument rest with
        | error invocation => simp [hcommand, Except.map] at h
        | ok result =>
            obtain ⟨command, flag⟩ := result
            rw [hcommand] at h
            cases h
            exact read_command_named hcommand

/-- A stop has the exit code of its status. -/
theorem code_of_stop {stop : Stop} {status : Status} (h : stop.status = status) :
    (outcomeOf (.error stop)).status.code = status.code :=
  congrArg Status.code h

namespace Ends

variable {result : Except Stop Outcome}

/-- The exit code is zero exactly if every stage goes well. -/
theorem code_eq_zero_iff (h : Ends surroundings files format output select source result) :
    (outcomeOf result).status.code = 0 ↔ ∃ tree store filled part text,
      Prepared surroundings files format source tree store ∧
      (tree.fill surroundings.environment store).start.2 = .ok filled ∧
      Shows format select filled part text ∧ Writable surroundings.files output := by
  cases h with
  | unprepared hstatus h =>
      rw [code_of_stop hstatus]
      refine ⟨(fun hcode ↦ nomatch hcode), ?_⟩
      rintro ⟨tree, store, _, _, _, hprepared, _⟩
      exact absurd hprepared (h tree store)
  | unresolved hstatus h hfill =>
      rw [code_of_stop hstatus]
      refine ⟨(fun hcode ↦ nomatch hcode), ?_⟩
      rintro ⟨_, _, _, _, _, hprepared, hfilled, _⟩
      obtain ⟨rfl, rfl⟩ := h.unique hprepared
      cases hfill.symm.trans hfilled
  | refused hstatus h hfill hrefused =>
      rw [code_of_stop hstatus]
      refine ⟨(fun hcode ↦ nomatch hcode), ?_⟩
      rintro ⟨_, _, _, part, text, hprepared, hfilled, hshows, hwritable⟩
      obtain ⟨rfl, rfl⟩ := h.unique hprepared
      cases hfill.symm.trans hfilled
      exact absurd hwritable (hrefused part text hshows)
  | @delivered tree filled part store text h hfill hshows hwritable =>
      refine ⟨fun _ ↦ ⟨tree, store, filled, part, text, h, hfill, hshows, hwritable⟩, fun _ ↦ ?_⟩
      cases output <;> rfl

/-- The exit code is one exactly if all before filling goes well and filling fails. -/
theorem code_eq_one_iff (h : Ends surroundings files format output select source result) :
    (outcomeOf result).status.code = 1 ↔ ∃ tree store failure,
      Prepared surroundings files format source tree store ∧
      (tree.fill surroundings.environment store).start.2 = .error failure := by
  cases h with
  | unprepared hstatus h =>
      rw [code_of_stop hstatus]
      refine ⟨(fun hcode ↦ nomatch hcode), ?_⟩
      rintro ⟨tree, store, _, hprepared, _⟩
      exact absurd hprepared (h tree store)
  | @unresolved stop tree store failure hstatus h hfill =>
      rw [code_of_stop hstatus]
      exact ⟨fun _ ↦ ⟨tree, store, failure, h, hfill⟩, fun _ ↦ rfl⟩
  | refused hstatus h hfill hrefused =>
      rw [code_of_stop hstatus]
      refine ⟨(fun hcode ↦ nomatch hcode), ?_⟩
      rintro ⟨_, _, _, hprepared, hfails⟩
      obtain ⟨rfl, rfl⟩ := h.unique hprepared
      cases hfill.symm.trans hfails
  | delivered h hfill hshows hwritable =>
      refine ⟨fun hcode ↦ ?_, ?_⟩
      · cases output <;> cases hcode
      · rintro ⟨_, _, _, hprepared, hfails⟩
        obtain ⟨rfl, rfl⟩ := h.unique hprepared
        cases hfill.symm.trans hfails

/-- If every stage goes well, the text is delivered. -/
theorem delivers (h : Ends surroundings files format output select source result)
    {tree filled part : Tree} {store : Store} {text : String}
    (hprepared : Prepared surroundings files format source tree store)
    (hfilled : (tree.fill surroundings.environment store).start.2 = .ok filled)
    (hshows : Shows format select filled part text)
    (hwritable : Writable surroundings.files output) :
    result = .ok (.ofText output text) := by
  cases h with
  | unprepared hstatus h => exact absurd hprepared (h tree store)
  | unresolved hstatus h hfill =>
      obtain ⟨rfl, rfl⟩ := h.unique hprepared
      cases hfill.symm.trans hfilled
  | refused hstatus h hfill hrefused =>
      obtain ⟨rfl, rfl⟩ := h.unique hprepared
      cases hfill.symm.trans hfilled
      exact absurd hwritable (hrefused part text hshows)
  | delivered h hfill hshows' hwritable' =>
      obtain ⟨rfl, rfl⟩ := h.unique hprepared
      cases hfill.symm.trans hfilled
      rw [hshows.unique hshows']

/-- With any other exit code than zero, nothing is put out and nothing written. -/
theorem stops (h : Ends surroundings files format output select source result)
    (hcode : (outcomeOf result).status.code ≠ 0) :
    (outcomeOf result).output = "" ∧ (outcomeOf result).written = none := by
  cases h with
  | unprepared | unresolved | refused => exact ⟨rfl, rfl⟩
  | delivered => cases output <;> exact absurd rfl hcode

end Ends

/-- The exit code is zero, one or two. -/
theorem code_eq_two {status : Status} (hzero : status.code ≠ 0) (hone : status.code ≠ 1) :
    status.code = 2 := by
  cases status with
  | success => exact absurd rfl hzero
  | unresolved => exact absurd rfl hone
  | misused => rfl

/-- The command that fills files is its stages one after the other, all or nothing. It succeeds
exactly if files are named and loaded, the source of parameter values can be opened, all placeholders
are filled, the selected part is there, its format is JSON or YAML, and the output can be written;
then the text of the part is all that is put out, or all that the output file holds. The exit code is
one exactly if the command gets as far as filling and fails there, and two whenever else it fails.
Unless it succeeds nothing is put out and nothing is written. On every command line files are named. -/
theorem fill_all_or_nothing (surroundings : Surroundings) (files : List String) (format : String)
    (output select : Option String) (source : Source) (verbose : Bool) :
    let outcome := ((Command.fill files format output select source).run surroundings verbose).2
    (outcome.status.code = 0 ↔ ∃ tree store filled part text,
        Prepared surroundings files format source tree store ∧
        (tree.fill surroundings.environment store).start.2 = .ok filled ∧
        Shows format select filled part text ∧ Writable surroundings.files output) ∧
      (∀ tree store filled part text, Prepared surroundings files format source tree store →
        (tree.fill surroundings.environment store).start.2 = .ok filled →
        Shows format select filled part text → Writable surroundings.files output →
        outcome.output = (if output.isSome then "" else text) ∧
          outcome.written = output.map fun path ↦ (path, text)) ∧
      (outcome.status.code = 1 ↔ ∃ tree store failure,
        Prepared surroundings files format source tree store ∧
        (tree.fill surroundings.environment store).start.2 = .error failure) ∧
      (outcome.status.code ≠ 0 → outcome.status.code ≠ 1 → outcome.status.code = 2) ∧
      (outcome.status.code ≠ 0 → outcome.output = "" ∧ outcome.written = none) ∧
      (∀ arguments, readInvocation false arguments =
        .ok (.fill files format output select source, verbose) → files ≠ []) := by
  have hends := fill_files_ends surroundings files format output select source
  intro outcome
  refine ⟨hends.code_eq_zero_iff, ?_, hends.code_eq_one_iff, code_eq_two, hends.stops, ?_⟩
  · intro tree store filled part text hprepared hfilled hshows hwritable
    have hresult := hends.delivers hprepared hfilled hshows hwritable
    have houtcome : outcome.output = (Outcome.ofText output text).output ∧
        outcome.written = (Outcome.ofText output text).written := by
      simp only [outcome, Command.run, execute, hresult, outcomeOf, and_self]
    rw [houtcome.1, houtcome.2]
    cases output <;> exact ⟨rfl, rfl⟩
  · exact fun arguments harguments ↦ read_invocation_named harguments

end Command

end ConfigFill
