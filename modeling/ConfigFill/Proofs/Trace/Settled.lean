import ConfigFill.Proofs.Trace.Effect

/-!
# Settled operations

An operation is settled if it asks the store for nothing, so that how it ends does not depend on
what was asked before. What follows a settled operation goes on as if nothing had been before it
(`Settled.outcome_bind`).
-/

namespace ConfigFill.Effect

variable {ε δ α β : Type}

/-- The operation asks for no path, and there is one way in which it ends. -/
structure Settled (run : Effect ε α) : Prop where
  queries : ∀ earlier, (run earlier).1.queries = []
  outcome : ∀ earlier, (run earlier).2 = run.start.2

/-- An operation whose value is used without a trace ends as the use of the value does. -/
theorem outcome_bind_of_except (run : Effect ε α) (next : α → Except ε β) (earlier : List String) :
    ((run >>= fun value ↦ ofExcept (next value)) earlier).2 = (run earlier).2 >>= next := by
  rcases hrun : run earlier with ⟨events, failure | value⟩
  · rw [bind_apply_error hrun]
    rfl
  · rw [bind_apply_ok hrun]
    rfl

namespace Settled

/-- An outcome given at once is settled. -/
theorem of_except (outcome : Except ε α) : Settled (Effect.ofExcept outcome) :=
  ⟨fun _ ↦ rfl, fun _ ↦ rfl⟩

/-- A value given at once is settled. -/
theorem pure (value : α) : Settled (Pure.pure value : Effect ε α) :=
  of_except (.ok value)

/-- A failure is settled. -/
theorem fail (failure : ε) : Settled (Effect.fail failure : Effect ε α) :=
  of_except (.error failure)

/-- Writing a record is settled. -/
theorem log (record : LogRecord) : Settled (Effect.log record : Effect ε Unit) :=
  ⟨fun _ ↦ rfl, fun _ ↦ rfl⟩

/-- After a settled operation, the next one ends as if nothing had been before it. -/
theorem outcome_bind {run : Effect ε α} (h : Settled run) (next : α → Effect ε β)
    (earlier : List String) :
    ((run >>= next) earlier).2 = run.start.2 >>= fun value ↦ (next value earlier).2 := by
  have hqueries := h.queries earlier
  rw [← h.outcome earlier]
  rcases hrun : run earlier with ⟨events, failure | value⟩
  · rw [bind_apply_error hrun]
    rfl
  · rw [hrun] at hqueries
    rw [bind_apply_ok hrun, hqueries, List.append_nil]
    rfl

/-- A sequence of settled operations is settled. -/
theorem bind {run : Effect ε α} {next : α → Effect ε β} (h : Settled run)
    (hnext : ∀ value, Settled (next value)) : Settled (run >>= next) := by
  constructor
  · intro earlier
    have hqueries := h.queries earlier
    rcases hrun : run earlier with ⟨events, failure | value⟩
    · rw [hrun] at hqueries
      rw [bind_apply_error hrun]
      exact hqueries
    · rw [hrun] at hqueries
      rw [bind_apply_ok hrun, Trace.queries_append, hqueries, (hnext value).queries]
      rfl
  · intro earlier
    have hstart : (run >>= next).start.2 = run.start.2 >>= fun value ↦ (next value []).2 :=
      h.outcome_bind next []
    rw [h.outcome_bind, hstart]
    exact congrArg _ (funext fun value ↦ (hnext value).outcome earlier)

/-- Changing failures keeps an operation settled. -/
theorem map_failure {change : ε → δ} {run : Effect ε α} (h : Settled run) :
    Settled (run.mapFailure change) :=
  ⟨h.queries, fun earlier ↦ congrArg (Except.mapError change) (h.outcome earlier)⟩

end Settled

end ConfigFill.Effect
