import ConfigFill.Proofs.Trace.Effect
import Mathlib.Data.List.Forall2

/-!
# Two runs side by side

Two operations are `Related` if they keep two traces related and end alike, whatever related traces
went before them. There is one rule for each way of making an operation, so that two programs of
the same shape are related as soon as their parts are (`Related.bind`, `Related.map_m`). Operations
related by equality throughout are equal (`Related.eq_map`).
-/

namespace ConfigFill

/-- Two outcomes of one kind: related values, or related failures. -/
inductive EndAlike {ε δ α β : Type} (S : ε → δ → Prop) (R : α → β → Prop) :
    Except ε α → Except δ β → Prop where
  | ok {value : α} {other : β} (h : R value other) : EndAlike S R (.ok value) (.ok other)
  | error {failure : ε} {other : δ} (h : S failure other) :
      EndAlike S R (.error failure) (.error other)

/-- An outcome is alike to itself. -/
theorem EndAlike.refl {ε α : Type} (outcome : Except ε α) : EndAlike Eq Eq outcome outcome := by
  cases outcome with
  | ok value => exact .ok rfl
  | error failure => exact .error rfl

/-- Outcomes alike with equal values and failures are equal. -/
theorem EndAlike.eq {ε α : Type} {outcome other : Except ε α} (h : EndAlike Eq Eq outcome other) :
    outcome = other := by
  cases h with
  | ok h => rw [h]
  | error h => rw [h]

/-- Outcomes that are alike stay so under wider relations. -/
theorem EndAlike.mono {ε δ α β : Type} {S S' : ε → δ → Prop} {R R' : α → β → Prop}
    {outcome : Except ε α} {other : Except δ β} (h : EndAlike S R outcome other)
    (hS : ∀ failure failure', S failure failure' → S' failure failure')
    (hR : ∀ value value', R value value' → R' value value') : EndAlike S' R' outcome other := by
  cases h with
  | ok h => exact .ok (hR _ _ h)
  | error h => exact .error (hS _ _ h)

/-- Outcomes that are alike stay so when their failures are changed into related ones. -/
theorem EndAlike.map_error {ε δ ε' δ' α β : Type} {S : ε → δ → Prop} {S' : ε' → δ' → Prop}
    {R : α → β → Prop} {change : ε → ε'} {change' : δ → δ'} {outcome : Except ε α}
    {other : Except δ β} (h : EndAlike S R outcome other)
    (hchange : ∀ failure failure', S failure failure' →
      S' (change failure) (change' failure')) :
    EndAlike S' R (outcome.mapError change) (other.mapError change') := by
  cases h with
  | ok h => exact .ok h
  | error h => exact .error (hchange _ _ h)

namespace Effect

variable {ε δ α β γ κ : Type}

/-- Begun after traces that `T` relates, the two operations leave traces that `T` relates, and they
end alike. -/
def Related (T : Trace → Trace → Prop) (S : ε → δ → Prop) (R : α → β → Prop)
    (run : Effect ε α) (other : Effect δ β) : Prop :=
  ∀ past past' : Trace, T past past' →
    T (past ++ (run past.queries).1) (past' ++ (other past'.queries).1) ∧
      EndAlike S R (run past.queries).2 (other past'.queries).2

namespace Related

variable {T : Trace → Trace → Prop} {S : ε → δ → Prop} {R : α → β → Prop} {Q : γ → κ → Prop}

/-- An operation is related to itself by equality. -/
theorem refl (run : Effect ε α) : Related Eq Eq Eq run run := by
  rintro past _ rfl
  exact ⟨rfl, .refl _⟩

/-- Related values given at once. -/
theorem pure {value : α} {other : β} (h : R value other) :
    Related T S R (Pure.pure value) (Pure.pure other) := by
  intro past past' hpast
  exact ⟨by simpa [pure_apply] using hpast, .ok h⟩

/-- Outcomes that are alike, given at once. -/
theorem of_except {outcome : Except ε α} {other : Except δ β} (h : EndAlike S R outcome other) :
    Related T S R (Effect.ofExcept outcome) (Effect.ofExcept other) := by
  intro past past' hpast
  exact ⟨by simpa [Effect.ofExcept] using hpast, h⟩

/-- Related failures. -/
theorem fail {failure : ε} {other : δ} (h : S failure other) :
    Related T S R (Effect.fail failure) (Effect.fail other) :=
  of_except (.error h)

/-- Doing things that keep the traces related. -/
theorem emit {events events' : Trace}
    (h : ∀ past past', T past past' → T (past ++ events) (past' ++ events')) :
    Related T S (fun _ _ ↦ True) (Effect.emit events) (Effect.emit events') :=
  fun past past' hpast ↦ ⟨h past past' hpast, .ok trivial⟩

/-- Sequences are related if their first operations are and, from related values on, the others. -/
theorem bind {run : Effect ε α} {other : Effect δ β} {next : α → Effect ε γ}
    {next' : β → Effect δ κ} (h : Related T S R run other)
    (hnext : ∀ value value', R value value' → Related T S Q (next value) (next' value')) :
    Related T S Q (run >>= next) (other >>= next') := by
  intro past past' hpast
  obtain ⟨htrace, hend⟩ := h past past' hpast
  match hrun : run past.queries, hother : other past'.queries with
  | (events, outcome), (events', outcome') =>
      rw [hrun, hother] at htrace hend
      cases hend with
      | ok hvalue =>
          have hlater := hnext _ _ hvalue _ _ htrace
          rw [Trace.queries_append, Trace.queries_append] at hlater
          rw [bind_apply_ok hrun, bind_apply_ok hother]
          simpa only [List.append_assoc] using hlater
      | error hfailure =>
          rw [bind_apply_error hrun, bind_apply_error hother]
          exact ⟨htrace, .error hfailure⟩

/-- Related failures may be changed into related failures. -/
theorem map_failure {ε' δ' : Type} {S' : ε' → δ' → Prop} {change : ε → ε'} {change' : δ → δ'}
    {run : Effect ε α} {other : Effect δ β} (h : Related T S R run other)
    (hchange : ∀ failure failure', S failure failure' →
      S' (change failure) (change' failure')) :
    Related T S' R (run.mapFailure change) (other.mapFailure change') := by
  intro past past' hpast
  obtain ⟨htrace, hend⟩ := h past past' hpast
  exact ⟨htrace, hend.map_error hchange⟩

/-- Operations over two lists are related if those on every two elements in the same place are. -/
theorem map_m {ι ι' : Type} {P : ι → ι' → Prop} {step : ι → Effect ε α} {step' : ι' → Effect δ β}
    {items : List ι} {items' : List ι'} (hitems : List.Forall₂ P items items')
    (hstep : ∀ item item', P item item' → Related T S R (step item) (step' item')) :
    Related T S (List.Forall₂ R) (items.mapM step) (items'.mapM step') := by
  induction hitems with
  | nil => simpa using pure List.Forall₂.nil
  | cons hitem _ ih =>
      rw [List.mapM_cons, List.mapM_cons]
      refine bind (hstep _ _ hitem) fun value value' hvalue ↦ ?_
      exact bind ih fun values values' hvalues ↦ pure (.cons hvalue hvalues)

/-- Operations related in one way are related in every weaker way. -/
theorem mono {S' : ε → δ → Prop} {R' : α → β → Prop} {run : Effect ε α} {other : Effect δ β}
    (h : Related T S R run other)
    (hS : ∀ failure failure', S failure failure' → S' failure failure')
    (hR : ∀ value value', R value value' → R' value value') : Related T S' R' run other :=
  fun past past' hpast ↦
    have ⟨htrace, hend⟩ := h past past' hpast
    ⟨htrace, hend.mono hS hR⟩

/-- An operation that does the same as another, with values that a function makes of the other's,
is the other with that function applied. -/
theorem eq_map {change : α → β} {run : Effect ε α} {other : Effect ε β}
    (h : Related Eq Eq (fun value value' ↦ change value = value') run other) :
    other = change <$> run := by
  funext earlier
  obtain ⟨htrace, hend⟩ := h (earlier.map .query) _ rfl
  rw [Trace.queries_map_query] at htrace hend
  rw [← bind_pure_comp]
  match hrun : run earlier, hother : other earlier with
  | (events, outcome), (events', outcome') =>
      rw [hrun, hother] at htrace hend
      cases List.append_cancel_left htrace
      cases hend with
      | ok hvalue => simp [bind_apply_ok hrun, pure_apply, hvalue]
      | error hfailure => rw [bind_apply_error hrun, hfailure]

end Related

end Effect

end ConfigFill
