import ConfigFill.Proofs.Filling.Leaves
import ConfigFill.Proofs.Parameter.Names
import ConfigFill.Proofs.Trace.Log

/-!
# Values stay out of the log

The log of filling a tree depends on the values of parameters only in where it ends. With two stores
that differ in values alone, the two runs write the same records for as long as both go on
(`lookup_logs_alike`, `fill_logs_alike`); a value can end a run, but no record carries one. The main
statement is `log_value_free`.
-/

namespace ConfigFill

open Effect (LogsAlike LogsMeet)

/-- The stores have one name, do the same on being asked, fail alike, and list parameters of the
same names in the same order. The values may be any. -/
structure Store.SameNames (first second : Store) : Prop where
  name : first.name = second.name
  events : ∀ earlier path, (first.answer earlier path).events = (second.answer earlier path).events
  answers : ∀ earlier path,
    EndAlike Eq (fun listed other ↦ listed.map (·.name) = other.map (·.name))
      (first.answer earlier path).result (second.answer earlier path).result

/-- Of the logs of two runs one begins the other, and if both runs end well the logs are the same. -/
def SameLog (run other : Trace × Except Failure Tree) : Prop :=
  (run.1.records <+: other.1.records ∨ other.1.records <+: run.1.records) ∧
    ∀ value value', run.2 = .ok value → other.2 = .ok value' → run.1.records = other.1.records

/-- Two runs whose logs meet have the same log, up to where one of them ends early. -/
theorem Effect.LogsMeet.same_log {R : Tree → Tree → Prop} {run other : Trace × Except Failure Tree}
    (h : LogsMeet R run other) : SameLog run other := by
  cases h with
  | both records _ _ => exact ⟨.inl (records ▸ List.prefix_rfl), fun _ _ _ _ ↦ records⟩
  | first failure outcome h => exact ⟨.inl h, fun _ _ hvalue _ ↦ nomatch hvalue⟩
  | second outcome failure h => exact ⟨.inr h, fun _ _ _ hvalue ↦ nomatch hvalue⟩

/-- Parameters of the same names are assembled with the same records. -/
theorem Parameter.assemble_logs_alike {parameters others : List Parameter}
    (h : parameters.map (·.name) = others.map (·.name)) (path : String) (exactOnly : Bool) :
    LogsAlike (fun _ _ ↦ True) (assemble path parameters exactOnly)
      (assemble path others exactOnly) := by
  simp only [assemble]
  rw [dropped_eq_of_names h]
  exact (LogsAlike.log_all _).bind fun _ _ _ ↦ .pure trivial

namespace Store

variable {first second : Store}

/-- Stores that list the same names log alike when queried. -/
theorem SameNames.query_logs_alike (h : first.SameNames second) (path : String) :
    LogsAlike (fun listed other ↦ listed.map (·.name) = other.map (·.name)) (first.query path)
      (second.query path) := by
  intro earlier
  have hevents := h.events earlier path
  have hend := h.answers earlier path
  show LogsMeet _ (.query path :: (first.answer earlier path).events, (first.answer earlier path).result)
    (.query path :: (second.answer earlier path).events, (second.answer earlier path).result)
  rw [hevents]
  generalize (first.answer earlier path).result = outcome at hend ⊢
  generalize (second.answer earlier path).result = outcome' at hend ⊢
  cases hend with
  | ok hnames => exact .both rfl rfl hnames
  | error _ => exact .first _ _ List.prefix_rfl

/-- Stores that list the same names log alike when a path is looked up. -/
theorem SameNames.lookup_logs_alike (h : first.SameNames second) (path : String) :
    LogsAlike (fun _ _ ↦ True) (first.lookup path) (second.lookup path) := by
  unfold lookup
  rw [h.name]
  refine (LogsAlike.log _).bind fun _ _ _ ↦ ?_
  refine (h.query_logs_alike path).bind fun found other hnames ↦ ?_
  have hlength : found.length = other.length := by simpa using congrArg List.length hnames
  have hempty : found.isEmpty = other.isEmpty := by
    rw [Bool.eq_iff_iff]
    simp [← List.length_eq_zero_iff, hlength]
  rw [hempty, hlength]
  split
  · split
    · refine (LogsAlike.log _).bind fun _ _ _ ↦ ?_
      refine (h.query_logs_alike _).bind fun siblings others hsiblings ↦ ?_
      refine (Parameter.assemble_logs_alike hsiblings path true).bind fun value value' _ ↦ ?_
      -- Here a value decides: an empty one ends the run, and nothing is written after it.
      refine .quiet (fun _ ↦ ?_) fun _ ↦ ?_
      · split <;> rfl
      · split <;> rfl
    · exact .quiet (fun _ ↦ rfl) fun _ ↦ rfl
  · refine (LogsAlike.log _).bind fun _ _ _ ↦ ?_
    exact Parameter.assemble_logs_alike hnames path false

end Store

namespace Tree

/-- What a placeholder leaf does with two such stores differs in values alone. -/
theorem fill_mark_logs_alike (environment : Environment) {first second : Store}
    (h : first.SameNames second) (mark : Mark) :
    LogsAlike (fun _ _ ↦ True) (fillMark environment first mark)
      (fillMark environment second mark) := by
  unfold fillMark fillString
  split
  · rename_i placeholder _
    refine (LogsAlike.log _).bind fun _ _ _ ↦ LogsAlike.map_failure ?_
    refine (LogsAlike.refl (environment.expand placeholder.path)).bind fun path _ hpath ↦ ?_
    subst hpath
    refine (h.lookup_logs_alike path).bind fun value value' _ ↦ ?_
    exact .quiet (fun _ ↦ rfl) fun _ ↦ rfl
  · exact .pure trivial

/-- Filling a tree logs alike with stores that list the same names. -/
theorem fill_logs_alike (environment : Environment) {first second : Store}
    (h : first.SameNames second) (tree : Tree) :
    LogsAlike (fun _ _ ↦ True) (tree.fill environment first) (tree.fill environment second) := by
  rw [fill_eq_refilled, fill_eq_refilled, ← bind_pure_comp, ← bind_pure_comp]
  refine (LogsAlike.map_m tree.marks fun mark ↦ fill_mark_logs_alike environment h mark).bind ?_
  exact fun _ _ _ ↦ .pure trivial

end Tree

/-- No value of a parameter reaches the log. With two stores that differ in values alone, filling a
tree, and looking up a path, write the same records up to where one of the runs fails. -/
theorem log_value_free (environment : Environment) {first second : Store}
    (h : first.SameNames second) :
    (∀ tree : Tree,
        SameLog (tree.fill environment first).start (tree.fill environment second).start) ∧
      ∀ path, SameLog (first.lookup path).start (second.lookup path).start :=
  ⟨fun tree ↦ (tree.fill_logs_alike environment h []).same_log,
    fun path ↦ (h.lookup_logs_alike path []).same_log⟩

/-- A store that lists one parameter, with the value given, under its parent alone. -/
def Store.withValue (value : String) : Store :=
  .ofFunction "sample" fun path ↦ .ok (if path = "/app" then [⟨"/app/name", value⟩] else [])

/-- An empty value ends a run that another value does not end; the logs are alike up to there. -/
theorem log_value_free_empty :
    (Store.withValue "n").SameNames (Store.withValue "") ∧
      ((Store.withValue "n").lookup "/app/name").start.2 = .ok (.string "n") ∧
      ((Store.withValue "").lookup "/app/name").start.2 = .error (.of (.unresolvedPath "/app/name")) ∧
      SameLog ((Store.withValue "n").lookup "/app/name").start
        ((Store.withValue "").lookup "/app/name").start ∧
      SameLog ((Tree.string "aws-ssm://app/name").fill .empty (Store.withValue "n")).start
        ((Tree.string "aws-ssm://app/name").fill .empty (Store.withValue "")).start := by
  have h : (Store.withValue "n").SameNames (Store.withValue "") := by
    refine ⟨rfl, fun _ _ ↦ rfl, fun _ path ↦ .ok ?_⟩
    split <;> rfl
  obtain ⟨hfill, hlookup⟩ := log_value_free .empty h
  exact ⟨h, rfl, rfl, hlookup "/app/name", hfill (.string "aws-ssm://app/name")⟩

end ConfigFill
