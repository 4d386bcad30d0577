import ConfigFill.Proofs.Resolution.Related

/-!
# Filling against the list of placeholders

The list of placeholders of a tree says all about filling it: finding out what each of them stands
for, in the order of the list and up to the first failure, gives either the failure of filling or
the values that stand in the filled tree. This is `fill_follows_placeholders`; it is about stores
whose answers do not depend on what they were asked before.
-/

namespace ConfigFill

open Effect (Related)

/-- What the store answers to a path does not depend on the paths asked before. -/
def Store.IsFunction (store : Store) : Prop :=
  ∀ earlier path, (store.answer earlier path).result = (store.answer [] path).result

/-- The outcome of an operation over a list, if that of each step is known: the outcomes in order, up
to the first failure. -/
theorem Effect.map_m_outcome {ε α ι κ : Type} {P : ι → κ → Prop} {step : ι → Effect ε α}
    {outcome : κ → Except ε α} {items : List ι} {others : List κ}
    (hitems : List.Forall₂ P items others)
    (hstep : ∀ item other, P item other → ∀ earlier, (step item earlier).2 = outcome other)
    (earlier : List String) : (items.mapM step earlier).2 = others.mapM outcome := by
  -- The induction is over all queries before, which the first step adds to.
  induction hitems generalizing earlier with
  | nil => rfl
  | @cons item other rest rest' hitem _ ih =>
      rw [List.mapM_cons, List.mapM_cons, ← hstep _ _ hitem earlier]
      rcases hfirst : step item earlier with ⟨events, failure | value⟩
      · rw [bind_apply_error hfirst]
        rfl
      · rw [bind_apply_ok hfirst]
        have hrest := ih (earlier ++ events.queries)
        rcases hlater : rest.mapM step (earlier ++ events.queries) with ⟨later, failure | values⟩
        · rw [hlater] at hrest
          rw [bind_apply_error hlater, ← hrest]
          rfl
        · rw [hlater] at hrest
          rw [bind_apply_ok hlater, ← hrest]
          rfl

namespace Placeholder

/-- What comes of a placeholder when no path was asked before. -/
def outcome (environment : Environment) (store : Store) (placeholder : Placeholder) :
    Except Failure Tree :=
  (placeholder.replacement environment store).start.2

variable {environment : Environment} {store : Store}

/-- With a store that is a function of the path, what went before a placeholder does not matter. -/
theorem replacement_outcome (hstore : store.IsFunction) (placeholder : Placeholder)
    (earlier : List String) :
    (placeholder.replacement environment store earlier).2 = placeholder.outcome environment store := by
  have hquery (path : String) :
      Related (fun _ _ ↦ True) Eq Eq (store.query path) (store.query path) := by
    intro past past' _
    refine ⟨trivial, ?_⟩
    show EndAlike Eq Eq (store.answer past.queries path).result
      (store.answer past'.queries path).result
    rw [hstore past.queries, hstore past'.queries]
    exact .refl _
  have hlookup (path : String) :
      Related (fun _ _ ↦ True) Eq Eq (store.lookup path) (store.lookup path) :=
    Store.lookup_related_of_equal Trace.ignores_log_of_true (fun _ ↦ rfl) (hquery path)
      fun parent _ ↦ hquery parent
  have hrun := replacement_related (R := Eq) Trace.ignores_log_of_true (fun _ ↦ rfl) environment
    placeholder hlookup fun path value other hvalue ↦ hvalue ▸ .refl _
  have hend := (hrun (earlier.map .query) [] trivial).2
  rw [Trace.queries_map_query] at hend
  exact hend.eq

end Placeholder

namespace Tree

/-- The values that the placeholders of a tree stand for, one after the other. The first failure
ends the list, with the place of its placeholder. -/
def replacements (environment : Environment) (store : Store) (tree : Tree) :
    Except Failure (List Tree) :=
  tree.placeholders.mapM fun entry ↦
    (entry.2.outcome environment store).mapError (·.located entry.1.shown)

variable {environment : Environment} {store : Store}

/-- A placeholder leaf does what its entry in the list of placeholders stands for, and a failure of
it gets the place of the entry. -/
theorem fill_mark_outcome (hstore : store.IsFunction) {mark : Mark} {entry : Path × Placeholder}
    (h : mark.Shows entry) (earlier : List String) :
    (fillMark environment store mark earlier).2 =
      (entry.2.outcome environment store).mapError (·.located entry.1.shown) := by
  obtain ⟨hpath, hparse⟩ := h
  rw [← Placeholder.replacement_outcome hstore, ← hpath]
  simp only [fillMark, fillString, hparse]
  rfl

/-- Filling ends as the list of placeholders does. -/
theorem fill_end_alike (hstore : store.IsFunction) (tree : Tree) :
    EndAlike Eq tree.Filled (tree.replacements environment store)
      (tree.fill environment store).start.2 := by
  have hmarks : (tree.marks.mapM (fillMark environment store) []).2 =
      tree.replacements environment store :=
    Effect.map_m_outcome (marks_at_show [] tree) (fun _ _ ↦ fill_mark_outcome hstore) []
  rw [← hmarks]
  exact (fill_at_related [] tree [] [] rfl).2

/-- The values that placeholders stand for are the outcomes of them, in order. -/
theorem outcomes_of_replacements {tree : Tree} {values : List Tree}
    (h : tree.replacements environment store = .ok values) :
    List.Forall₂ (fun entry value ↦ entry.2.outcome environment store = .ok value)
      tree.placeholders values := by
  refine (Except.map_m_eq_ok_iff.1 h).imp fun entry value hvalue ↦ ?_
  cases houtcome : entry.2.outcome environment store with
  | ok other => simpa [houtcome, Except.mapError] using hvalue
  | error failure => simp [houtcome, Except.mapError] at hvalue

/-- A store that knows one parameter and one subtree. -/
def sampleStore : Store :=
  .ofFunction "sample" fun path ↦ .ok
    (if path = "/app/name" then [⟨"/app/name", "n"⟩]
    else if path = "/app/db" then [⟨"/app/db/host", "h"⟩, ⟨"/app/db/port", "1"⟩]
    else [])

/-- A document with two placeholders at different depths, one of them with a suffix. -/
def sample : Tree :=
  mapping
    [("list", sequence [string "aws-ssm://app/name|-x", bool true]),
      ("db", string "aws-ssm://app/db")]

end Tree

end ConfigFill
