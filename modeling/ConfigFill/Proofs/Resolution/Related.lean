import ConfigFill.Proofs.Filling.Leaves

/-!
# Two stores side by side

When do two stores lead to related outcomes? Each stage of filling a tree has a rule here that asks
for as much of the stage before it: a look-up for the answers to the path and, where nothing was
found, to its parent (`lookup_related`); a placeholder for the look-up of its expanded path
(`replacement_related_of_expand`); and a tree for its placeholders
(`fill_related_of_placeholders`). Log records do not count.
-/

namespace ConfigFill

open Effect (Related)

/-- The relation looks past log records. -/
def Trace.IgnoresLog (T : Trace → Trace → Prop) : Prop :=
  ∀ past past' (records records' : List LogRecord), T past past' →
    T (past ++ records.map .log) (past' ++ records'.map .log)

/-- Where traces may differ at will, so may log records. -/
theorem Trace.ignores_log_of_true : Trace.IgnoresLog fun _ _ ↦ True :=
  fun _ _ _ _ _ ↦ trivial

variable {T : Trace → Trace → Prop} {S : Failure → Failure → Prop} {R : Tree → Tree → Prop}
  {first second : Store}

/-- Log records are related where the relation of traces does not look at them. -/
theorem Effect.Related.log {ε δ : Type} {S : ε → δ → Prop} (hT : Trace.IgnoresLog T)
    (record record' : LogRecord) :
    Related T S (fun _ _ ↦ True) (Effect.log record) (Effect.log record') :=
  .emit fun past past' ↦ hT past past' [record] [record']

/-- Expanding one path in one environment gives one outcome, whatever went before. -/
theorem Environment.expand_related (hT : Trace.IgnoresLog T) (hS : ∀ failure, S failure failure)
    (environment : Environment) (path : String) :
    Related T S
      (fun expanded other ↦ expanded = other ∧ (environment.expand path).start.2 = .ok expanded)
      (environment.expand path) (environment.expand path) := by
  unfold Environment.expand
  split
  · exact .pure ⟨rfl, rfl⟩
  · split
    · split
      · exact .fail (hS _)
      · exact (Related.log hT _ _).bind fun _ _ _ ↦ .pure ⟨rfl, rfl⟩
    · exact .fail (hS _)

namespace Parameter

/-- What two lists of parameters amount to for a path is related. -/
def AssembleAlike (R : Tree → Tree → Prop) (path : String) (exactOnly : Bool)
    (parameters others : List Parameter) : Prop :=
  R (Assembly.of path parameters exactOnly).tree (Assembly.of path others exactOnly).tree

/-- Parameters that make alike trees are assembled alike. -/
theorem assemble_related (hT : Trace.IgnoresLog T) {path : String} {exactOnly : Bool}
    {parameters others : List Parameter} (h : AssembleAlike R path exactOnly parameters others) :
    Related T S R (assemble path parameters exactOnly) (assemble path others exactOnly) := by
  have hlog : Related T S (fun _ _ ↦ True)
      (Effect.logAll ((Assembly.of path parameters exactOnly).dropped.map (.parameterDropped · path)))
      (Effect.logAll ((Assembly.of path others exactOnly).dropped.map (.parameterDropped · path))) :=
    .emit fun past past' ↦ hT past past' _ _
  exact hlog.bind fun _ _ _ ↦ .pure h

end Parameter

namespace Store

open Parameter (AssembleAlike assemble_related)

/-- The answers to a path lead to related values, and where there is no answer, so do the answers
to the parent. -/
structure AnswersAlike (T : Trace → Trace → Prop) (S : Failure → Failure → Prop)
    (R : Tree → Tree → Prop) (first second : Store) (path : String)
    (found other : List Parameter) : Prop where
  isEmpty_eq : found.isEmpty = other.isEmpty
  direct : found.isEmpty = false → AssembleAlike R path false found other
  parent : found.isEmpty = true → ∀ parent, parentOf? path = some parent →
    Related T S (AssembleAlike R path true) (first.query parent) (second.query parent)

/-- Stores whose queries are related look paths up alike. -/
theorem lookup_related (hT : Trace.IgnoresLog T) (hS : ∀ failure, S failure failure)
    (hR : ∀ value other, R value other → value.isVacant = other.isVacant) {path : String}
    (h : Related T S (AnswersAlike T S R first second path) (first.query path)
      (second.query path)) :
    Related T S R (first.lookup path) (second.lookup path) := by
  refine (Related.log hT _ _).bind fun _ _ _ ↦ ?_
  refine h.bind fun found other hfound ↦ ?_
  rw [← hfound.isEmpty_eq]
  cases hempty : found.isEmpty with
  | true =>
      simp only [if_true]
      cases hparent : parentOf? path with
      | none => exact .fail (hS _)
      | some parent =>
          refine (Related.log hT _ _).bind fun _ _ _ ↦ ?_
          refine (hfound.parent hempty parent hparent).bind fun siblings siblings' hsiblings ↦ ?_
          refine (assemble_related hT hsiblings).bind fun value value' hvalue ↦ ?_
          rw [← hR _ _ hvalue]
          split
          · exact .fail (hS _)
          · exact .pure hvalue
  | false =>
      simp only [Bool.false_eq_true, if_false]
      refine (Related.log hT _ _).bind fun _ _ _ ↦ ?_
      exact assemble_related hT (hfound.direct hempty)

/-- Equal answers to a path and to its parent lead to one value. -/
theorem lookup_related_of_equal (hT : Trace.IgnoresLog T) (hS : ∀ failure, S failure failure)
    {path : String} (hpath : Related T S Eq (first.query path) (second.query path))
    (hparent : ∀ parent, parentOf? path = some parent →
      Related T S Eq (first.query parent) (second.query parent)) :
    Related T S Eq (first.lookup path) (second.lookup path) := by
  refine lookup_related hT hS (fun _ _ heq ↦ congrArg Tree.isVacant heq) ?_
  refine hpath.mono (fun _ _ h ↦ h) ?_
  rintro found _ rfl
  refine ⟨rfl, fun _ ↦ rfl, fun _ parent hcut ↦ ?_⟩
  exact (hparent parent hcut).mono (fun _ _ h ↦ h) fun siblings other h ↦ h ▸ rfl

end Store

namespace Placeholder

/-- What a placeholder stands for is related if the look-ups of its expanded path are. -/
theorem replacement_related_of_expand (hT : Trace.IgnoresLog T) (hS : ∀ failure, S failure failure)
    (environment : Environment) (placeholder : Placeholder)
    (hlookup : ∀ path, (environment.expand placeholder.path).start.2 = .ok path →
      Related T S R (first.lookup path) (second.lookup path))
    (happlied : ∀ path value other, R value other →
      EndAlike S R (placeholder.applied path value) (placeholder.applied path other)) :
    Related T S R (placeholder.replacement environment first)
      (placeholder.replacement environment second) := by
  refine (environment.expand_related hT hS placeholder.path).bind fun path _ hpath ↦ ?_
  obtain ⟨rfl, hexpand⟩ := hpath
  refine (hlookup path hexpand).bind fun value other hvalue ↦ ?_
  exact .of_except (happlied path value other hvalue)

/-- Placeholders are replaced alike where look-ups are and the same is made of their values. -/
theorem replacement_related (hT : Trace.IgnoresLog T) (hS : ∀ failure, S failure failure)
    (environment : Environment) (placeholder : Placeholder)
    (hlookup : ∀ path, Related T S R (first.lookup path) (second.lookup path))
    (happlied : ∀ path value other, R value other →
      EndAlike S R (placeholder.applied path value) (placeholder.applied path other)) :
    Related T S R (placeholder.replacement environment first)
      (placeholder.replacement environment second) :=
  replacement_related_of_expand hT hS environment placeholder (fun path _ ↦ hlookup path) happlied

end Placeholder

namespace Tree

/-- Every placeholder leaf is shown in the list of placeholders. -/
theorem exists_shown {tree : Tree} {mark : Mark} (hmark : mark ∈ tree.marks) :
    ∃ entry ∈ tree.placeholders, mark.Shows entry := by
  have hshow : List.Forall₂ Mark.Shows tree.marks tree.placeholders := marks_at_show [] tree
  obtain ⟨place, hplace, rfl⟩ := List.getElem_of_mem hmark
  have hentry : place < tree.placeholders.length := hshow.length_eq ▸ hplace
  exact ⟨tree.placeholders[place], List.getElem_mem hentry, hshow.get hplace hentry⟩

/-- Filling a tree from two stores is related if each of its placeholders is, and if related values
in the same places of a tree make related trees. -/
theorem fill_related_of_placeholders (hT : Trace.IgnoresLog T)
    (hlocated : ∀ failure other location, S failure other →
      S (failure.located location) (other.located location))
    (environment : Environment) (tree : Tree)
    (hreplacement : ∀ entry ∈ tree.placeholders,
      Related T S R (entry.2.replacement environment first)
        (entry.2.replacement environment second))
    (hrefilled : ∀ values others, List.Forall₂ R values others →
      R (tree.refilled values) (tree.refilled others))
    (hstring : ∀ text, R (.string text) (.string text)) :
    Related T S R (tree.fill environment first) (tree.fill environment second) := by
  have hmark : ∀ mark ∈ tree.marks,
      Related T S R (fillMark environment first mark) (fillMark environment second mark) := by
    intro mark hmem
    obtain ⟨entry, hentry, _, hshown⟩ := exists_shown hmem
    unfold fillMark fillString
    split
    · rename_i placeholder hparse
      obtain rfl : entry.2 = placeholder := Option.some.inj (hshown.symm.trans hparse)
      refine (Related.log hT _ _).bind fun _ _ _ ↦ ?_
      exact (hreplacement entry hentry).map_failure fun failure other ↦ hlocated failure other _
    · exact .pure (hstring _)
  rw [fill_eq_refilled, fill_eq_refilled, ← bind_pure_comp, ← bind_pure_comp]
  have hmarks : List.Forall₂ (fun mark other ↦ mark = other ∧ mark ∈ tree.marks) tree.marks
      tree.marks := List.forall₂_same.2 fun mark hmem ↦ ⟨rfl, hmem⟩
  refine (Related.map_m hmarks ?_).bind fun values others hvalues ↦
    .pure (hrefilled values others hvalues)
  rintro mark _ ⟨rfl, hmem⟩
  exact hmark mark hmem

/-- Trees are filled alike where placeholders are replaced alike. -/
theorem fill_related (hT : Trace.IgnoresLog T)
    (hlocated : ∀ failure other location, S failure other →
      S (failure.located location) (other.located location))
    (environment : Environment)
    (hreplacement : ∀ placeholder : Placeholder,
      Related T S R (placeholder.replacement environment first)
        (placeholder.replacement environment second))
    (tree : Tree)
    (hrefilled : ∀ values others, List.Forall₂ R values others →
      R (tree.refilled values) (tree.refilled others))
    (hstring : ∀ text, R (.string text) (.string text)) :
    Related T S R (tree.fill environment first) (tree.fill environment second) :=
  fill_related_of_placeholders hT hlocated environment tree (fun entry _ ↦ hreplacement entry.2)
    hrefilled hstring

end Tree

end ConfigFill
