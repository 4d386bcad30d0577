import ConfigFill.Proofs.Parameter.Assembly
import ConfigFill.Proofs.Resolution.Related
import ConfigFill.Proofs.Tree.Order

/-!
# The order of answers

A store may list its answer in any order. If no two of the parameters that it lists for a path have
the same keys below that path, the order is not seen in a filled tree but for the order of keys, nor
in a failure but for the text of a subtree that was to be read as JSON. The main statement is
`fill_order_irrelevant`; the fold that depends on the order is dealt with in
`assemble_alike_of_perm`, through the description of its result that does not.
-/

namespace ConfigFill

open Effect (Related)

namespace Parameter

variable {path : String} {parameters others : List Parameter}

/-- Two permutations of one list, of which at most one element counts, agree on it. -/
theorem filter_eq_of_perm (hperm : parameters.Perm others)
    (hnodup : (parameters.map (segmentPath path)).Nodup) {counts : Parameter → Bool}
    {keys : List String}
    (hkeys : ∀ parameter, counts parameter = true → segmentPath path parameter = keys) :
    parameters.filter counts = others.filter counts := by
  have hfilter := hperm.filter counts
  have hsame : (parameters.filter counts).map (segmentPath path) =
      List.replicate (parameters.filter counts).length keys := by
    rw [List.eq_replicate_iff]
    refine ⟨by simp, fun found hfound ↦ ?_⟩
    obtain ⟨parameter, hparameter, rfl⟩ := List.mem_map.1 hfound
    exact hkeys parameter (List.mem_filter.1 hparameter).2
  -- All that count have the same keys, and no two parameters have.
  have hlength : (parameters.filter counts).length ≤ 1 := by
    rw [← List.nodup_replicate (a := keys), ← hsame]
    exact hnodup.sublist (List.filter_sublist.map _)
  match hlist : parameters.filter counts with
  | [] => rw [hlist] at hfilter; exact hfilter.nil_eq
  | [parameter] => rw [hlist] at hfilter; exact (List.perm_singleton.1 hfilter.symm).symm
  | _ :: _ :: _ => simp [hlist] at hlength

/-- Permutations of one list of parameters, none with the keys of another, amount to the same up to
order. -/
theorem assemble_alike_of_perm (hperm : parameters.Perm others)
    (hnodup : (parameters.map (segmentPath path)).Nodup) (exactOnly : Bool) :
    AssembleAlike Tree.SameUpToOrder path exactOnly parameters others := by
  have h := assembly_amounts path parameters exactOnly
  have hother := assembly_amounts path others exactOnly
  have hexact : exactOnes path parameters = exactOnes path others := by
    have hkeys (parameter : Parameter)
        (hempty : (Path.remainder path parameter.name).isEmpty = true) :
        segmentPath path parameter = leafKeys "" := by
      rw [segmentPath, String.isEmpty_iff.1 hempty]
    exact filter_eq_of_perm hperm hnodup hkeys
  have hlast (keys : List String) : lastValue? path keys parameters = lastValue? path keys others := by
    rw [lastValue?, lastValue?, filter_eq_of_perm hperm hnodup fun parameter ↦ of_decide_eq_true]
  have hshadowed (keys : List String) :
      Shadowed path keys parameters ↔ Shadowed path keys others := by
    simp only [Shadowed, hperm.mem_iff]
  unfold Amounts at h hother
  rw [← hexact] at hother
  unfold AssembleAlike
  cases hone : (exactOnes path parameters).getLast? with
  | some exact =>
      simp only [hone] at h hother
      rw [h, hother]
      exact .refl _
  | none =>
      cases exactOnly with
      | true =>
          simp only [hone] at h hother
          rw [h, hother]
          exact .refl _
      | false =>
          simp only [hone] at h hother
          refine Tree.same_up_to_order_of_leaf h.leafy hother.leafy fun keys ↦ ?_
          refine Option.ext fun value ↦ ?_
          rw [h.leaf_iff, hother.leaf_iff, hlast, hshadowed]

end Parameter

namespace Failure

/-- The failures are the same but, where a subtree was to be read as JSON, for the order of keys in
its text. -/
inductive SameUpToOrder : Failure → Failure → Prop where
  | refl (failure : Failure) : SameUpToOrder failure failure
  | subtree (path reason : String) (location advice : Option String) {value other : Tree}
      (same : value.SameUpToOrder other) (noText : value.string? = none) :
      SameUpToOrder ⟨.malformedJson path value.text reason, location, advice⟩
        ⟨.malformedJson path other.text reason, location, advice⟩

/-- Failures that are the same up to order stay so with a place. -/
theorem SameUpToOrder.located {failure other : Failure} (h : SameUpToOrder failure other)
    (location : String) : SameUpToOrder (failure.located location) (other.located location) := by
  cases h with
  | refl => exact .refl _
  | subtree path reason _ advice same noText =>
      exact .subtree path reason (some location) advice same noText

end Failure

/-- Outcomes that are the same up to the order of keys. -/
abbrev SameOutcome : Except Failure Tree → Except Failure Tree → Prop :=
  EndAlike Failure.SameUpToOrder Tree.SameUpToOrder

/-- An outcome is the same as itself. -/
theorem SameOutcome.refl (outcome : Except Failure Tree) : SameOutcome outcome outcome :=
  (EndAlike.refl outcome).mono (fun _ _ h ↦ h ▸ .refl _) fun _ _ h ↦ h ▸ .refl _

/-- A suffix after anything but a text is a failure that tells its kind. -/
theorem Placeholder.appended_of_no_text {value : Tree} (h : value.string? = none)
    (path suffix : String) :
    appended path suffix value = .error
      ((Failure.of (.typeCoercion path "string" value.kind)).advised
        (s!"'{path}' resolved to a {value.kind}; " ++
          "a |suffix can only be appended to a single parameter")) := by
  cases value with
  | string text => cases h
  | null | bool _ | int _ | float _ | sequence _ | mapping _ => rfl

/-- Anything but a text cannot be read as JSON, and the failure tells its kind and its text. -/
theorem Resolution.decoded_of_no_text {value : Tree} (h : value.string? = none) (path : String) :
    decoded path value = .error
      (.of (.malformedJson path value.text s!"Expected a JSON string, got {value.kind}")) := by
  cases value with
  | string text => cases h
  | null | bool _ | int _ | float _ | sequence _ | mapping _ => rfl

/-- What a placeholder makes of two values that are the same up to order is so as well. -/
theorem Placeholder.applied_same (placeholder : Placeholder) (path : String) {value other : Tree}
    (h : value.SameUpToOrder other) :
    SameOutcome (placeholder.applied path value) (placeholder.applied path other) := by
  cases hvalue : value.string? with
  | some text =>
      have hother := h.string?_eq ▸ hvalue
      rw [Tree.string?_eq_some_iff.1 hvalue, Tree.string?_eq_some_iff.1 hother]
      exact .refl _
  | none =>
      have hother := h.string?_eq ▸ hvalue
      unfold applied
      split
      · rw [appended_of_no_text hvalue, appended_of_no_text hother, h.kind_eq]
        exact .refl _
      · split
        · rw [Resolution.decoded_of_no_text hvalue, Resolution.decoded_of_no_text hother, h.kind_eq]
          exact .error (.subtree _ _ _ _ h hvalue)
        · exact .ok h

namespace Store

/-- Looking up one path can lead to asking the store for another: the path itself, and its parent
where the store has nothing for the path. -/
def MayAsk (store : Store) (resolved asked : String) : Prop :=
  asked = resolved ∨ parentOf? resolved = some asked ∧
    ∃ earlier, (store.answer earlier resolved).result = .ok []

/-- The stores fail alike, and list the same parameters in whatever order. Below no path whose
look-up asks for a list do two parameters of that list have the same keys. -/
def AnswersUpToOrder (first second : Store) : Prop :=
  ∀ earlier other asked,
    EndAlike Eq
      (fun listed listed' ↦ listed.Perm listed' ∧ ∀ resolved, first.MayAsk resolved asked →
        (listed.map (Parameter.segmentPath resolved)).Nodup)
      (first.answer earlier asked).result (second.answer other asked).result

variable {first second : Store}

/-- With such stores, a query gives two permutations of one list. -/
theorem AnswersUpToOrder.query_related (h : first.AnswersUpToOrder second) (asked : String) :
    Related (fun _ _ ↦ True) Failure.SameUpToOrder
      (fun listed listed' ↦ listed.Perm listed' ∧
        (∀ resolved, first.MayAsk resolved asked →
          (listed.map (Parameter.segmentPath resolved)).Nodup) ∧
        ∃ earlier, (first.answer earlier asked).result = .ok listed)
      (first.query asked) (second.query asked) := by
  intro past past' _
  refine ⟨trivial, ?_⟩
  have hend := h past.queries past'.queries asked
  show EndAlike _ _ (first.answer past.queries asked).result (second.answer past'.queries asked).result
  have hlisted : ∀ listed, (first.answer past.queries asked).result = .ok listed →
      ∃ earlier, (first.answer earlier asked).result = .ok listed := fun _ heq ↦ ⟨_, heq⟩
  generalize (first.answer past.queries asked).result = outcome at hend hlisted ⊢
  generalize (second.answer past'.queries asked).result = outcome' at hend ⊢
  cases hend with
  | ok hlist => exact .ok ⟨hlist.1, hlist.2, hlisted _ rfl⟩
  | error heq => exact .error (heq ▸ .refl _)

/-- Stores whose answers are the same up to order look a path up with the same outcome. -/
theorem AnswersUpToOrder.lookup_related (h : first.AnswersUpToOrder second) (path : String) :
    Related (fun _ _ ↦ True) Failure.SameUpToOrder Tree.SameUpToOrder (first.lookup path)
      (second.lookup path) := by
  refine Store.lookup_related Trace.ignores_log_of_true .refl
    (fun _ _ hvalue ↦ hvalue.is_vacant_eq) ?_
  refine (h.query_related path).mono (fun _ _ hfailure ↦ hfailure) ?_
  rintro listed listed' ⟨hperm, hnodup, earlier, hlisted⟩
  refine ⟨?_, fun _ ↦ ?_, fun hempty parent hparent ↦ ?_⟩
  · rw [Bool.eq_iff_iff]
    simp [← List.length_eq_zero_iff, hperm.length_eq]
  · exact Parameter.assemble_alike_of_perm hperm (hnodup path (.inl rfl)) false
  · rw [List.isEmpty_iff.1 hempty] at hlisted
    refine (h.query_related parent).mono (fun _ _ hfailure ↦ hfailure) ?_
    rintro siblings siblings' ⟨hperm', hnodup', _⟩
    have hasked : first.MayAsk path parent := .inr ⟨hparent, earlier, hlisted⟩
    exact Parameter.assemble_alike_of_perm hperm' (hnodup' path hasked) true

end Store

/-- The order in which a store lists its answers does not matter: filling from two stores that differ
in it alone gives trees that are the same up to the order of keys, or the same failure at the same
place but for the text of a subtree that was to be read as JSON. -/
theorem Tree.fill_order_irrelevant (environment : Environment) {first second : Store}
    (h : first.AnswersUpToOrder second) (tree : Tree) :
    SameOutcome (tree.fill environment first).start.2 (tree.fill environment second).start.2 := by
  have hT : Trace.IgnoresLog fun _ _ ↦ True := fun _ _ _ _ _ ↦ trivial
  have hreplacement (placeholder : Placeholder) :
      Related (fun _ _ ↦ True) Failure.SameUpToOrder Tree.SameUpToOrder
        (placeholder.replacement environment first) (placeholder.replacement environment second) :=
    placeholder.replacement_related hT .refl environment h.lookup_related
      fun path _ _ hvalue ↦ placeholder.applied_same path hvalue
  have hfill := fill_related hT (fun _ _ location hfailure ↦ hfailure.located location) environment
    hreplacement tree (fun _ _ ↦ tree.refilled_same_up_to_order) fun text ↦ .refl _
  exact (hfill [] [] trivial).2

/-- A store that lists some parameters below one path and fails at all others. -/
def Store.below (path : String) (parameters : List Parameter) : Store :=
  .ofFunction "below" fun asked ↦
    if asked = path then .ok parameters else .error (.of (.unresolvedPath asked))

/-- Two parameters below a path, in either order, are the same document up to the order of keys. -/
theorem Tree.fill_order_irrelevant_swapped :
    let parameters : List Parameter := [⟨"/app/db/host", "h"⟩, ⟨"/app/name", "n"⟩]
    (Store.below "/app" parameters).AnswersUpToOrder (Store.below "/app" parameters.reverse) ∧
      SameOutcome ((string "aws-ssm://app").fill .empty (Store.below "/app" parameters)).start.2
        ((string "aws-ssm://app").fill .empty (Store.below "/app" parameters.reverse)).start.2 := by
  intro parameters
  have hnodup : (parameters.map (Parameter.segmentPath "/app")).Nodup := by decide
  have h : (Store.below "/app" parameters).AnswersUpToOrder
      (Store.below "/app" parameters.reverse) := by
    intro earlier other asked
    by_cases hasked : asked = "/app"
    · subst hasked
      refine .ok ⟨(List.reverse_perm _).symm, fun resolved hmay ↦ ?_⟩
      -- The store fails at any other path, so none is resolved through this one.
      have hresolved : resolved = "/app" := by
        rcases hmay with rfl | ⟨_, _, hanswer⟩
        · rfl
        · by_contra hne
          simp [Store.below, Store.ofFunction, hne] at hanswer
      exact hresolved ▸ hnodup
    · simp only [Store.below, Store.ofFunction, if_neg hasked]
      exact .error rfl
  exact ⟨h, fill_order_irrelevant .empty h (string "aws-ssm://app")⟩

end ConfigFill
