import ConfigFill.Proofs.Trace.Effect

/-!
# Runs that depend on what they ask

Two operations are the same on some paths if the second does just what the first does wherever the
first asks for these paths alone. There is one rule for each way of making an operation
(`SameOn.bind`, `SameOn.map_m`), so that nothing matters to a program but the answers to the paths
that it asks for.
-/

namespace ConfigFill.Effect

variable {ε δ α β : Type}

/-- Where the first operation asks for agreed paths alone, the second does the same and ends in the
same way. -/
def SameOn (Agreed : String → Prop) (run other : Effect ε α) : Prop :=
  ∀ earlier, (∀ path ∈ (run earlier).1.queries, Agreed path) → other earlier = run earlier

namespace SameOn

variable {Agreed : String → Prop}

/-- An operation is the same as itself. -/
theorem refl (run : Effect ε α) : SameOn Agreed run run :=
  fun _ _ ↦ rfl

/-- Sequences are the same if their first operations are and, from every value on, the others. -/
theorem bind {run other : Effect ε α} {next next' : α → Effect ε β} (h : SameOn Agreed run other)
    (hnext : ∀ value, SameOn Agreed (next value) (next' value)) :
    SameOn Agreed (run >>= next) (other >>= next') := by
  intro earlier hagreed
  rcases hrun : run earlier with ⟨events, failure | value⟩
  · rw [bind_apply_error hrun] at hagreed ⊢
    have hother : other earlier = (events, .error failure) :=
      (h earlier (by simpa [hrun] using hagreed)).trans hrun
    rw [bind_apply_error hother]
  · -- What both operations ask for is agreed, so what each of them asks for is.
    rw [bind_apply_ok hrun, Trace.queries_append] at hagreed
    have hfirst : ∀ path ∈ events.queries, Agreed path := fun path hmem ↦
      hagreed path (List.mem_append_left _ hmem)
    have hother : other earlier = (events, .ok value) :=
      (h earlier (by simpa [hrun] using hfirst)).trans hrun
    have hlater : next' value (earlier ++ events.queries) = next value (earlier ++ events.queries) :=
      hnext value _ fun path hmem ↦ hagreed path (List.mem_append_right _ hmem)
    rw [bind_apply_ok hrun, bind_apply_ok hother, hlater]

/-- Changing failures keeps operations the same. -/
theorem map_failure {change : ε → δ} {run other : Effect ε α} (h : SameOn Agreed run other) :
    SameOn Agreed (run.mapFailure change) (other.mapFailure change) := by
  intro earlier hagreed
  show ((other earlier).1, (other earlier).2.mapError change) =
    ((run earlier).1, (run earlier).2.mapError change)
  rw [h earlier hagreed]

/-- Operations over one list are the same if those on each element are. -/
theorem map_m {ι : Type} {step step' : ι → Effect ε α} (items : List ι)
    (hstep : ∀ item, SameOn Agreed (step item) (step' item)) :
    SameOn Agreed (items.mapM step) (items.mapM step') := by
  induction items with
  | nil => exact refl _
  | cons item rest ih =>
      rw [List.mapM_cons, List.mapM_cons]
      exact (hstep item).bind fun value ↦ ih.bind fun values ↦ refl _

end SameOn

end ConfigFill.Effect
