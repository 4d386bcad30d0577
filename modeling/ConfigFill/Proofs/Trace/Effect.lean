import ConfigFill.Trace.Run
import Mathlib.Data.List.Forall2

/-!
# Laws of effects

When a result that comes of several steps is a value, what the views of a trace say of two traces in
a row, how a sequence of two operations ends, and that effects form a lawful monad. With the last,
operations over a list may be cut and joined as the list is (`List.mapM_append`).
-/

namespace ConfigFill

namespace Except

/-- Changing the failure of a result changes nothing of whether there is a value. -/
theorem map_error_eq_ok_iff {ε δ α : Type} {change : ε → δ} {outcome : Except ε α} {value : α} :
    outcome.mapError change = .ok value ↔ outcome = .ok value := by
  cases outcome <;> simp [Except.mapError]

/-- A sequence ends well exactly if its first part does and then its second part on the value. -/
theorem bind_eq_ok_iff {ε α β : Type} {outcome : Except ε α} {next : α → Except ε β} {value : β} :
    outcome >>= next = .ok value ↔ ∃ first, outcome = .ok first ∧ next first = .ok value := by
  cases outcome <;> simp [bind, Except.bind]

/-- Values gathered over a list are those of its elements, place by place, and there are none if one
of the elements has none. -/
theorem map_m_eq_ok_iff {ε α ι : Type} {outcome : ι → Except ε α} {items : List ι}
    {values : List α} :
    items.mapM outcome = .ok values ↔
      List.Forall₂ (fun item value ↦ outcome item = .ok value) items values := by
  induction items generalizing values with
  | nil => simp [pure, Except.pure, eq_comm]
  | cons item rest ih =>
      simp only [List.mapM_cons, bind_eq_ok_iff, ih, List.forall₂_cons_left_iff]
      constructor
      · intro h
        obtain ⟨first, hfirst, others, hothers, heq⟩ := h
        cases heq
        exact ⟨first, others, hfirst, hothers, rfl⟩
      · intro h
        obtain ⟨first, others, hfirst, hothers, rfl⟩ := h
        exact ⟨first, hfirst, others, hothers, rfl⟩

end Except

namespace Trace

/-- The queries of two traces in a row are those of both. -/
@[simp]
theorem queries_append (first second : Trace) :
    queries (first ++ second) = queries first ++ queries second :=
  List.filterMap_append

/-- The log records of two traces in a row are those of both. -/
@[simp]
theorem records_append (first second : Trace) :
    records (first ++ second) = records first ++ records second :=
  List.filterMap_append

/-- Every list of paths is what some trace asks for. -/
@[simp]
theorem queries_map_query (paths : List String) : queries (paths.map .query) = paths := by
  induction paths with
  | nil => rfl
  | cons path rest ih => simp [queries]

end Trace

namespace Effect

variable {ε δ α β : Type}

/-- A value that is given at once leaves no trace. -/
theorem pure_apply (value : α) (earlier : List String) :
    (Pure.pure value : Effect ε α) earlier = ([], .ok value) :=
  rfl

/-- A sequence whose first operation ends well goes on with the second after it. -/
theorem bind_apply_ok {first : Effect ε α} {next : α → Effect ε β} {earlier : List String}
    {events : Trace} {value : α} (h : first earlier = (events, .ok value)) :
    (first >>= next) earlier =
      (events ++ (next value (earlier ++ events.queries)).1,
        (next value (earlier ++ events.queries)).2) := by
  show Effect.bind first next earlier = _
  simp [Effect.bind, h]

/-- A sequence whose first operation fails has that failure and does nothing more. -/
theorem bind_apply_error {first : Effect ε α} {next : α → Effect ε β} {earlier : List String}
    {events : Trace} {failure : ε} (h : first earlier = (events, .error failure)) :
    (first >>= next) earlier = (events, .error failure) := by
  show Effect.bind first next earlier = _
  simp [Effect.bind, h]

/-- A sequence ends as its second operation does on the value of the first, if that end depends on
nothing asked before. -/
theorem bind_outcome {first : Effect ε α} {next : α → Effect ε β} {earlier : List String}
    {value : α} {outcome : Except ε β} (h : (first earlier).2 = .ok value)
    (hnext : ∀ later, (next value later).2 = outcome) : ((first >>= next) earlier).2 = outcome := by
  have hfirst : first earlier = ((first earlier).1, .ok value) := Prod.ext rfl h
  rw [bind_apply_ok hfirst]
  exact hnext _

/-- After a log record, an operation goes on as if nothing had been before it. -/
theorem log_bind_apply (record : LogRecord) (next : Unit → Effect ε α) (earlier : List String) :
    (log record >>= next) earlier = (.log record :: (next () earlier).1, (next () earlier).2) := by
  have hlog : (log record : Effect ε Unit) earlier = ([.log record], .ok ()) := rfl
  rw [bind_apply_ok hlog]
  simp [Trace.queries]

instance : LawfulMonad (Effect ε) :=
  LawfulMonad.mk' (Effect ε)
    (by
      intro α run
      funext earlier
      show (run >>= fun value ↦ Pure.pure (id value)) earlier = run earlier
      match h : run earlier with
      | (events, .ok value) => simp [bind_apply_ok h, pure_apply]
      | (events, .error failure) => rw [bind_apply_error h])
    (by
      intro α β value next
      funext earlier
      rw [bind_apply_ok (pure_apply value earlier)]
      simp [Trace.queries])
    (by
      intro α β γ run next last
      funext earlier
      match h : run earlier with
      | (events, .ok value) =>
          rw [bind_apply_ok h]
          match h' : next value (earlier ++ events.queries) with
          | (later, .ok middle) =>
              have hboth : (run >>= next) earlier = (events ++ later, .ok middle) := by
                rw [bind_apply_ok h, h']
              rw [bind_apply_ok hboth, bind_apply_ok h']
              simp
          | (later, .error failure) =>
              have hboth : (run >>= next) earlier = (events ++ later, .error failure) := by
                rw [bind_apply_ok h, h']
              rw [bind_apply_error hboth, bind_apply_error h']
      | (events, .error failure) =>
          rw [bind_apply_error h, bind_apply_error (bind_apply_error h)])

/-- Changing the value of an operation changes nothing of what it does. -/
theorem map_apply (change : α → β) (run : Effect ε α) (earlier : List String) :
    (change <$> run) earlier = ((run earlier).1, (run earlier).2.map change) := by
  rw [← bind_pure_comp]
  rcases hrun : run earlier with ⟨events, failure | value⟩
  · rw [bind_apply_error hrun]
    rfl
  · rw [bind_apply_ok hrun, pure_apply, List.append_nil]
    rfl

/-- Whether a result is a failure, and which, does not depend on its value. -/
theorem map_forget (change : α → β) (result : Except ε α) :
    (result.map change).map (fun _ ↦ ()) = result.map fun _ ↦ () := by
  cases result <;> rfl

end Effect

end ConfigFill
