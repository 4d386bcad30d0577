import ConfigFill.Proofs.Trace.Related

/-!
# Runs with one log

Two operations log alike if they write the same records and ask the same queries while both go on,
and the log of one that stops begins the log of the other. As with related operations, there is a
rule for each way of making one (`LogsAlike.bind`, `LogsAlike.map_m`).
-/

namespace ConfigFill

namespace Effect

/-- Two runs that end well have the same records and queries and related values; of two runs of
which one has failed, the records of the failed one begin those of the other. -/
inductive LogsMeet {ε δ α β : Type} (R : α → β → Prop) :
    Trace × Except ε α → Trace × Except δ β → Prop where
  | both {events events' : Trace} {value : α} {other : β} (records : events.records = events'.records)
      (queries : events.queries = events'.queries) (h : R value other) :
      LogsMeet R (events, .ok value) (events', .ok other)
  | first {events events' : Trace} (failure : ε) (outcome : Except δ β)
      (h : events.records <+: events'.records) :
      LogsMeet R (events, .error failure) (events', outcome)
  | second {events events' : Trace} (outcome : Except ε α) (failure : δ)
      (h : events'.records <+: events.records) :
      LogsMeet R (events, outcome) (events', .error failure)

/-- Two operations log alike, whatever was asked before both. -/
def LogsAlike {ε δ α β : Type} (R : α → β → Prop) (run : Effect ε α) (other : Effect δ β) : Prop :=
  ∀ earlier, LogsMeet R (run earlier) (other earlier)

/-- A sequence writes at least what its first operation writes. -/
theorem records_prefix_bind {ε α β : Type} (first : Effect ε α) (next : α → Effect ε β)
    (earlier : List String) :
    (first earlier).1.records <+: ((first >>= next) earlier).1.records := by
  rcases hfirst : first earlier with ⟨events, failure | value⟩
  · have hstopped : (first >>= next) earlier = (events, .error failure) := bind_apply_error hfirst
    exact hstopped ▸ List.prefix_rfl
  · rw [bind_apply_ok hfirst, Trace.records_append]
    exact List.prefix_append _ _

namespace LogsAlike

variable {ε δ α β γ κ : Type} {R : α → β → Prop} {Q : γ → κ → Prop}

/-- Values given at once log alike. -/
theorem pure {value : α} {other : β} (h : R value other) :
    LogsAlike (ε := ε) (δ := δ) R (Pure.pure value) (Pure.pure other) :=
  fun _ ↦ .both rfl rfl h

/-- An operation logs like itself. -/
theorem refl (run : Effect ε α) : LogsAlike Eq run run := by
  intro earlier
  match run earlier with
  | (events, .ok value) => exact .both rfl rfl rfl
  | (events, .error failure) => exact .first failure _ List.prefix_rfl

/-- Operations that do nothing log alike, however they end. -/
theorem quiet {run : Effect ε α} {other : Effect δ β} (hrun : ∀ earlier, (run earlier).1 = [])
    (hother : ∀ earlier, (other earlier).1 = []) : LogsAlike (fun _ _ ↦ True) run other := by
  intro earlier
  have hrun := hrun earlier
  have hother := hother earlier
  generalize run earlier = ended at hrun ⊢
  generalize other earlier = ended' at hother ⊢
  obtain ⟨events, outcome⟩ := ended
  obtain ⟨events', outcome'⟩ := ended'
  obtain rfl : events = [] := hrun
  obtain rfl : events' = [] := hother
  cases outcome with
  | error failure => exact .first failure outcome' List.nil_prefix
  | ok value =>
      cases outcome' with
      | error failure => exact .second (.ok value) failure List.nil_prefix
      | ok value' => exact .both rfl rfl trivial

/-- Writing the same records. -/
theorem log_all (records : List LogRecord) :
    LogsAlike (ε := ε) (δ := δ) (fun _ _ ↦ True) (Effect.logAll records) (Effect.logAll records) :=
  fun _ ↦ .both rfl rfl trivial

/-- Writing the same record. -/
theorem log (record : LogRecord) :
    LogsAlike (ε := ε) (δ := δ) (fun _ _ ↦ True) (Effect.log record) (Effect.log record) :=
  log_all [record]

/-- Sequences log alike if their first operations do and, from related values on, the others. -/
theorem bind {run : Effect ε α} {other : Effect δ β} {next : α → Effect ε γ}
    {next' : β → Effect δ κ} (h : LogsAlike R run other)
    (hnext : ∀ value value', R value value' → LogsAlike Q (next value) (next' value')) :
    LogsAlike Q (run >>= next) (other >>= next') := by
  intro earlier
  have hrun := records_prefix_bind run next earlier
  have hother := records_prefix_bind other next' earlier
  have hmeet := h earlier
  match hended : run earlier, hended' : other earlier with
  | (events, outcome), (events', outcome') =>
      rw [hended, hended'] at hmeet
      rw [hended] at hrun
      rw [hended'] at hother
      cases hmeet with
      | both records queries hvalue =>
          rw [bind_apply_ok hended, bind_apply_ok hended', ← queries]
          have hlater := hnext _ _ hvalue (earlier ++ events.queries)
          match hfinal : next _ (earlier ++ events.queries),
            hfinal' : next' _ (earlier ++ events.queries) with
          | (later, final), (later', final') =>
              rw [hfinal, hfinal'] at hlater
              cases hlater with
              | both records' queries' h =>
                  exact .both (by simp [records, records']) (by simp [queries, queries']) h
              | first failure outcome h =>
                  exact .first failure _ (by simpa [records] using h)
              | second outcome failure h =>
                  exact .second _ failure (by simpa [records] using h)
      -- A run that has failed keeps its log, and the other only adds to its own.
      | first failure _ h =>
          rw [bind_apply_error hended]
          exact .first failure _ (h.trans hother)
      | second _ failure h =>
          rw [bind_apply_error hended']
          exact .second _ failure (h.trans hrun)

/-- Changing failures changes nothing in the log. -/
theorem map_failure {ε' δ' : Type} {change : ε → ε'} {change' : δ → δ'} {run : Effect ε α}
    {other : Effect δ β} (h : LogsAlike R run other) :
    LogsAlike R (run.mapFailure change) (other.mapFailure change') := by
  intro earlier
  have hmeet := h earlier
  show LogsMeet R ((run earlier).1, (run earlier).2.mapError change)
    ((other earlier).1, (other earlier).2.mapError change')
  generalize run earlier = ended at hmeet ⊢
  generalize other earlier = ended' at hmeet ⊢
  cases hmeet with
  | both records queries h => exact .both records queries h
  | first failure outcome h => exact .first _ _ h
  | second outcome failure h => exact .second _ _ h

/-- Operations over one list log alike if those on each element do. -/
theorem map_m {ι : Type} {step : ι → Effect ε α} {step' : ι → Effect δ β} (items : List ι)
    (hstep : ∀ item, LogsAlike R (step item) (step' item)) :
    LogsAlike (List.Forall₂ R) (items.mapM step) (items.mapM step') := by
  induction items with
  | nil => simpa using pure List.Forall₂.nil
  | cons item rest ih =>
      rw [List.mapM_cons, List.mapM_cons]
      refine bind (hstep item) fun value value' hvalue ↦ ?_
      exact bind ih fun values values' hvalues ↦ pure (.cons hvalue hvalues)

end LogsAlike

end Effect

end ConfigFill
