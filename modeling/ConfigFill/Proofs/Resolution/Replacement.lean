import ConfigFill.Proofs.Filling.Course
import ConfigFill.Proofs.Placeholder.Variable
import ConfigFill.Proofs.Resolution.Table

/-!
# How a replacement ends

A placeholder is replaced in three stages: its path is expanded, the value of the path is pulled
from the store, and something is made of the value. `Placeholder.Ends` says by rules for each stage
which of seven outcomes there is. The main statement is `replacement_has_one_outcome`: the rules
allow exactly one outcome, and the replacement ends as it says. A store may fail in any way, also as
if a variable were missing; all other outcomes can be told by how the replacement ends. A null from
a look-up would need an empty text in its place, but there is none (`replacement_eq_defaulted`).
-/

namespace ConfigFill

open Parameter (Assembly exactOnes)

/-! ## Outcomes -/

namespace Placeholder

/-- The ways in which replacing a placeholder can end. -/
inductive Outcome where
  | variableMissing (name : String)
  | storeFailed (failure : Failure)
  /-- The store has nothing at or below the path, and the path has no parent to ask. -/
  | orphaned (path : String)
  /-- Neither the path nor its parent led to a value. -/
  | unresolved (path : String)
  /-- A mapping was found where a suffix is to be put after a text. -/
  | unappendable (path : String)
  | malformed (path raw reason : String)
  | replaced (value : Tree)

namespace Outcome

/-- How a replacement with this outcome ends. -/
def ending : Outcome → Except Failure Tree
  | variableMissing name => .error (.of (.variableNotFound name))
  | storeFailed failure => .error failure
  | orphaned path => .error (.of (.internal s!"Parameter path has no parent segment: {path}"))
  | unresolved path => .error (.of (.unresolvedPath path))
  | unappendable path =>
      .error ((Failure.of (.typeCoercion path "string" "mapping")).advised
        (s!"'{path}' resolved to a mapping; " ++
          "a |suffix can only be appended to a single parameter"))
  | malformed path raw reason => .error (.of (.malformedJson path raw reason))
  | replaced value => .ok value

/-- The outcome is a failure of the store. -/
def IsStoreFailure (outcome : Outcome) : Prop :=
  ∃ failure, outcome = .storeFailed failure

/-- The end tells the outcome, unless the store fails. -/
theorem ending_injective {outcome other : Outcome} (houtcome : ¬ outcome.IsStoreFailure)
    (hother : ¬ other.IsStoreFailure) (h : outcome.ending = other.ending) : outcome = other := by
  cases outcome <;> cases other <;>
    simp_all [ending, IsStoreFailure, Failure.of, Failure.advised, toString]

end Outcome

end Placeholder

open Placeholder (Outcome)

/-! ## Pulling a value -/

/-- The parent of a path is what stands before its last slash, or the root if nothing does. It is
there if something stands after that slash. -/
def Parameter.Path.IsParent (path parent : String) : Prop :=
  ∃ before segment, path.toList = before ++ '/' :: segment ∧ '/' ∉ segment ∧ segment ≠ [] ∧
    parent = if before = [] then "/" else String.ofList before

/-- The parent of a path is the one that is asked. -/
theorem Parameter.Path.is_parent_iff {path parent : String} :
    IsParent path parent ↔ Store.parentOf? path = some parent :=
  Store.parent_of_eq_some_iff.symm

/-- A path with a slash has a parent exactly if it does not end in one. -/
theorem Parameter.Path.exists_parent_iff {path : String} (hslash : '/' ∈ path.toList) :
    (∃ parent, IsParent path parent) ↔ path.toList.getLast? ≠ some '/' := by
  simp only [is_parent_iff]
  rw [← Option.ne_none_iff_exists', ne_eq, Store.parent_of_eq_none_iff]
  simp [hslash]

namespace Store

open Parameter.Path (IsParent is_parent_iff exists_parent_iff)

variable {store : Store} {earlier : List String} {path : String} {failure : Failure}

/-- The store has nothing at or below the path, and this is its answer for the parent. -/
def Probed (store : Store) (earlier : List String) (path : String)
    (result : Except Failure (List Parameter)) : Prop :=
  (store.answer earlier path).result = .ok [] ∧
    ∃ parent, IsParent path parent ∧
      (store.answer (earlier ++ (store.asking earlier path).queries) parent).result = result

/-- The store fails on being asked for the path or for its parent. -/
def Fails (store : Store) (earlier : List String) (path : String) (failure : Failure) : Prop :=
  (store.answer earlier path).result = .error failure ∨ store.Probed earlier path (.error failure)

/-- What pulling the value of a path from a store comes to: an outcome or a value. -/
inductive Pulls (store : Store) (earlier : List String) (path : String) :
    Except Outcome Tree → Prop where
  | failed {failure : Failure} (h : store.Fails earlier path failure) :
      Pulls store earlier path (.error (.storeFailed failure))
  | orphaned (h : (store.answer earlier path).result = .ok [])
      (hlast : path.toList.getLast? = some '/') : Pulls store earlier path (.error (.orphaned path))
  | unresolved {siblings : List Parameter} (h : store.Probed earlier path (.ok siblings))
      (hexact : ∀ exact, (exactOnes path siblings).getLast? = some exact → exact.value = "") :
      Pulls store earlier path (.error (.unresolved path))
  | found {found : List Parameter} (h : (store.answer earlier path).result = .ok found)
      (hfound : found ≠ []) : Pulls store earlier path (.ok (Assembly.of path found false).tree)
  | sibling {siblings : List Parameter} {exact : Parameter}
      (h : store.Probed earlier path (.ok siblings))
      (hexact : (exactOnes path siblings).getLast? = some exact) (hvalue : exact.value ≠ "") :
      Pulls store earlier path (.ok (.string exact.value))

/-- Where the parent is asked, the look-up ends as its answer says. -/
theorem lookup_of_probed {result : Except Failure (List Parameter)}
    (h : store.Probed earlier path result) :
    (store.lookup path earlier).2 = result >>= fun siblings ↦
      if (Assembly.of path siblings true).tree.isVacant then .error (.of (.unresolvedPath path))
      else .ok (Assembly.of path siblings true).tree := by
  obtain ⟨hanswer, parent, hparent, hresult⟩ := h
  rw [lookup_probed hanswer (is_parent_iff.1 hparent)]
  cases result with
  | error failure => rw [lookup_through_failed hresult]; rfl
  | ok siblings => rw [lookup_through_found hresult]; rfl

/-- A look-up ends with the failure of the store. -/
theorem lookup_of_fails (h : store.Fails earlier path failure) :
    (store.lookup path earlier).2 = .error failure := by
  rcases h with h | h
  · rw [lookup_failed h]
  · rw [lookup_of_probed h]
    rfl

/-- A look-up ends with the failure of an outcome that is pulled. -/
theorem lookup_of_pulls_error {outcome : Outcome} (h : store.Pulls earlier path (.error outcome)) :
    ∃ failure, outcome.ending = .error failure ∧
      (store.lookup path earlier).2 = .error failure := by
  cases h with
  | failed h => exact ⟨_, rfl, lookup_of_fails h⟩
  | orphaned h hlast =>
      refine ⟨_, rfl, ?_⟩
      rw [lookup_orphan h (parent_of_eq_none_iff.2 (.inr hlast))]
  | @unresolved siblings h hexact =>
      refine ⟨_, rfl, ?_⟩
      have hvacant : (Assembly.of path siblings true).tree.isVacant = true := by
        cases hlast : (exactOnes path siblings).getLast? with
        | none =>
            rw [Assembly.tree_of_no_exact (List.getLast?_eq_none_iff.1 hlast)]
            rfl
        | some exact =>
            rw [Assembly.tree_of_exact hlast, hexact exact hlast]
            rfl
      rw [lookup_of_probed h]
      exact if_pos hvacant

/-- A look-up ends with the value that is pulled. -/
theorem lookup_of_pulls_ok {value : Tree} (h : store.Pulls earlier path (.ok value)) :
    (store.lookup path earlier).2 = .ok value := by
  cases h with
  | found h hfound => rw [lookup_found h hfound]
  | @sibling siblings exact h hexact hvalue =>
      have htree := Assembly.tree_of_exact hexact true
      have hvacant : ¬ (Assembly.of path siblings true).tree.isVacant = true := by
        simpa [htree, Tree.isVacant] using hvalue
      rw [lookup_of_probed h, ← htree]
      exact if_neg hvacant

/-- What is pulled is a text or a mapping of texts that is not empty. -/
theorem leafy_of_pulls {value : Tree} (h : store.Pulls earlier path (.ok value)) : value.Leafy :=
  leafy_of_lookup (lookup_of_pulls_ok h)

/-- The answer for the parent settles what the path comes to. -/
theorem Probed.exists_pulls {result : Except Failure (List Parameter)}
    (h : store.Probed earlier path result) : ∃ pulled, store.Pulls earlier path pulled := by
  cases result with
  | error failure => exact ⟨_, .failed (.inr h)⟩
  | ok siblings =>
      by_cases hexact : ∀ exact, (exactOnes path siblings).getLast? = some exact → exact.value = ""
      · exact ⟨_, .unresolved h hexact⟩
      · obtain ⟨exact, hexact⟩ := not_forall.1 hexact
        obtain ⟨hexact, hvalue⟩ := Classical.not_imp.1 hexact
        exact ⟨_, .sibling h hexact hvalue⟩

/-- Pulling the value of a path with a slash comes to something. -/
theorem exists_pulls (store : Store) (earlier : List String) (hslash : '/' ∈ path.toList) :
    ∃ pulled, store.Pulls earlier path pulled := by
  cases hanswer : (store.answer earlier path).result with
  | error failure => exact ⟨_, .failed (.inl hanswer)⟩
  | ok found =>
      by_cases hfound : found = []
      · subst hfound
        by_cases hlast : path.toList.getLast? = some '/'
        · exact ⟨_, .orphaned hanswer hlast⟩
        · obtain ⟨parent, hparent⟩ := (exists_parent_iff hslash).2 hlast
          exact Probed.exists_pulls ⟨hanswer, parent, hparent, rfl⟩
      · exact ⟨_, .found hanswer hfound⟩

/-- There is one answer for the parent. -/
theorem Probed.unique {result other : Except Failure (List Parameter)}
    (h : store.Probed earlier path result) (hother : store.Probed earlier path other) :
    result = other := by
  obtain ⟨_, parent, hparent, rfl⟩ := h
  obtain ⟨_, second, hsecond, rfl⟩ := hother
  rw [is_parent_iff] at hparent hsecond
  rw [Option.some.inj (hparent.symm.trans hsecond)]

/-- A store that fails has no siblings for the path. -/
theorem Fails.not_probed (h : store.Fails earlier path failure) (siblings : List Parameter) :
    ¬ store.Probed earlier path (.ok siblings) := by
  intro hprobed
  rcases h with h | h
  · cases h.symm.trans hprobed.1
  · cases h.unique hprobed

/-- Where the store fails, there is no other outcome and no value. -/
theorem Fails.pulls_eq (h : store.Fails earlier path failure) {result : Except Outcome Tree}
    (hresult : store.Pulls earlier path result) : result = .error (.storeFailed failure) := by
  cases hresult with
  | failed hother =>
      rw [Except.error.inj ((lookup_of_fails hother).symm.trans (lookup_of_fails h))]
  | orphaned hanswer hlast =>
      rcases h with h | ⟨_, parent, hparent, _⟩
      · cases h.symm.trans hanswer
      · have hnone : parentOf? path = none := parent_of_eq_none_iff.2 (.inr hlast)
        cases hnone.symm.trans (is_parent_iff.1 hparent)
  | unresolved hprobed => exact absurd hprobed (h.not_probed _)
  | sibling hprobed => exact absurd hprobed (h.not_probed _)
  | found hanswer hfound =>
      rcases h with h | ⟨hnothing, _⟩
      · cases h.symm.trans hanswer
      · cases hnothing.symm.trans hanswer
        exact absurd rfl hfound

/-- A look-up asks the store for something. -/
theorem Probes.queries_ne_nil {events : Trace} (h : store.Probes earlier path events) :
    events.queries ≠ [] := by
  have hasked : (store.asked earlier path).queries ≠ [] := by
    rw [asked, Trace.queries_milestones]
    exact List.cons_ne_nil _ _
  cases h with
  | direct => exact hasked
  | parent => simp [hasked]

end Store

/-! ## Making something of the value -/

namespace Resolution

/-- A tree is a switch exactly if its entry for the key is the word for a state. -/
theorem switch?_eq_some_iff {tree : Tree} {state : Bool} :
    switch? tree = some state ↔ tree.child? "key" = some (.string (toString state)) := by
  unfold switch?
  cases state <;> split <;> simp_all [toString]

/-- What the text of a parameter is decoded to, once it is read. -/
theorem decoded_text_of_parse {raw : String} {tree : Tree} (h : Json.parse raw = .ok tree)
    (hnull : tree ≠ .null) (path : String) : decodedText path raw = .ok (normalized tree) := by
  cases tree with
  | null => exact absurd rfl hnull
  | bool _ | int _ | float _ | string _ | sequence _ | mapping _ => simp [decodedText, h]

/-- The value that a document stands for: the document, but for a switch its truth value. -/
inductive StandsFor (tree : Tree) : Tree → Prop where
  | switch {state : Bool} (h : tree.child? "key" = some (.string (toString state))) :
      StandsFor tree (.mapping [("key", .bool state)])
  | plain (h : ∀ state : Bool, tree.child? "key" ≠ some (.string (toString state))) :
      StandsFor tree tree

/-- What a document stands for is what it is normalized to. -/
theorem stands_for_iff {tree value : Tree} : StandsFor tree value ↔ value = normalized tree := by
  unfold normalized
  constructor
  · intro h
    cases h with
    | switch h => rw [switch?_eq_some_iff.2 h]
    | plain h =>
        have hswitch : switch? tree = none :=
          Option.eq_none_iff_forall_ne_some.2 fun state ↦ mt switch?_eq_some_iff.1 (h state)
        rw [hswitch]
  · rintro rfl
    cases hswitch : switch? tree with
    | some state => exact .switch (switch?_eq_some_iff.1 hswitch)
    | none =>
        refine .plain fun state h ↦ ?_
        rw [switch?_eq_some_iff.2 h] at hswitch
        cases hswitch

end Resolution

/-- Expanding a path asks the store for nothing. -/
theorem Environment.expand_settled (environment : Environment) (path : String) :
    Effect.Settled (environment.expand path) := by
  refine ⟨fun earlier ↦ ?_, fun earlier ↦ (environment.expand_apply path earlier).2⟩
  rw [← Trace.queries_milestones, (environment.expand_apply path earlier).1]
  rfl

namespace Placeholder

open Parameter.Path (IsParent exists_parent_iff)
open Resolution (StandsFor decoded decodedText decoded_text_of_parse stands_for_iff)

variable {environment : Environment} {store : Store} {placeholder : Placeholder}
  {earlier : List String} {path : String} {value : Tree} {outcome : Outcome}

/-- What comes of the value of the expanded path. A suffix wins over the mark for JSON. -/
inductive Makes (placeholder : Placeholder) (path : String) : Tree → Outcome → Prop where
  | appended {text suffix : String} (hsuffix : placeholder.suffix = some suffix) :
      Makes placeholder path (.string text) (.replaced (.string (text ++ suffix)))
  | unappendable {entries : Entries Tree} {suffix : String}
      (hsuffix : placeholder.suffix = some suffix) :
      Makes placeholder path (.mapping entries) (.unappendable path)
  | plain {value : Tree} (hsuffix : placeholder.suffix = none) (hjson : placeholder.json = false) :
      Makes placeholder path value (.replaced value)
  | noText {entries : Entries Tree} (hsuffix : placeholder.suffix = none)
      (hjson : placeholder.json = true) :
      Makes placeholder path (.mapping entries)
        (.malformed path (Tree.mapping entries).text "Expected a JSON string, got mapping")
  | unreadable {raw reason : String} (hsuffix : placeholder.suffix = none)
      (hjson : placeholder.json = true) (h : Json.parse raw = .error reason) :
      Makes placeholder path (.string raw) (.malformed path raw reason)
  | nothing {raw : String} (hsuffix : placeholder.suffix = none)
      (hjson : placeholder.json = true) (h : Json.parse raw = .ok .null) :
      Makes placeholder path (.string raw) (.malformed path raw "Decoded to null")
  | decoded {raw : String} {tree value : Tree} (hsuffix : placeholder.suffix = none)
      (hjson : placeholder.json = true) (h : Json.parse raw = .ok tree) (hnull : tree ≠ .null)
      (hvalue : StandsFor tree value) :
      Makes placeholder path (.string raw) (.replaced value)

/-- The rules for the outcome of a placeholder, after other queries. -/
inductive Ends (environment : Environment) (store : Store) (earlier : List String)
    (placeholder : Placeholder) : Outcome → Prop where
  | lacking {split : VariableSplit} (hsplit : split.IsFirst placeholder.path)
      (h : environment.Lacks split.name) :
      Ends environment store earlier placeholder (.variableMissing split.name)
  | unpulled {path : String} {outcome : Outcome}
      (hpath : environment.Expands placeholder.path (.ok path))
      (h : store.Pulls earlier path (.error outcome)) :
      Ends environment store earlier placeholder outcome
  | pulled {path : String} {value : Tree} {outcome : Outcome}
      (hpath : environment.Expands placeholder.path (.ok path))
      (h : store.Pulls earlier path (.ok value)) (hmakes : placeholder.Makes path value outcome) :
      Ends environment store earlier placeholder outcome

/-- What is made of a value is the ending of the outcome. -/
theorem applied_of_makes (h : placeholder.Makes path value outcome) :
    placeholder.applied path value = outcome.ending := by
  unfold applied
  cases h with
  | appended hsuffix => rw [hsuffix]; rfl
  | unappendable hsuffix =>
      simp [hsuffix, appended, Outcome.ending, Tree.kind, toString, String.append_assoc]
  | plain hsuffix hjson => rw [hsuffix, hjson]; rfl
  | noText hsuffix hjson => rw [hsuffix, hjson]; rfl
  | unreadable hsuffix hjson h | nothing hsuffix hjson h =>
      simp [hsuffix, hjson, decoded, decodedText, h, Outcome.ending]
  | decoded hsuffix hjson h hnull hvalue =>
      obtain rfl := stands_for_iff.1 hvalue
      simp [hsuffix, hjson, decoded, decoded_text_of_parse h hnull, Outcome.ending]

/-- Something comes of a text and of a mapping. -/
theorem exists_makes (placeholder : Placeholder) (path : String) (h : value.Leafy) :
    ∃ outcome, placeholder.Makes path value outcome := by
  cases hsuffix : placeholder.suffix with
  | some suffix =>
      cases h with
      | string text => exact ⟨_, .appended hsuffix⟩
      | mapping => exact ⟨_, .unappendable hsuffix⟩
  | none =>
      cases hjson : placeholder.json with
      | false => exact ⟨_, .plain hsuffix hjson⟩
      | true =>
          cases h with
          | mapping => exact ⟨_, .noText hsuffix hjson⟩
          | string raw =>
              cases hparse : Json.parse raw with
              | error reason => exact ⟨_, .unreadable hsuffix hjson hparse⟩
              | ok tree =>
                  by_cases hnull : tree = .null
                  · exact ⟨_, .nothing hsuffix hjson (hnull ▸ hparse)⟩
                  · exact ⟨_, .decoded hsuffix hjson hparse hnull (stands_for_iff.2 rfl)⟩

/-! ## The replacement -/

/-- A replacement ends as its three stages do, one after the other. -/
theorem replacement_ending (environment : Environment) (store : Store) (placeholder : Placeholder)
    (earlier : List String) :
    (placeholder.replacement environment store earlier).2 =
      (environment.expand placeholder.path).start.2 >>= fun path ↦
        (store.lookup path earlier).2 >>= placeholder.applied path := by
  rw [replacement, (environment.expand_settled placeholder.path).outcome_bind]
  exact congrArg _ (funext fun path ↦ Effect.outcome_bind_of_except _ _ earlier)

/-- The value that goes in place of a placeholder, with an empty text wherever a look-up gives a
null. -/
def defaulted (environment : Environment) (store : Store) (placeholder : Placeholder) :
    Run Tree := do
  let path ← environment.expand placeholder.path
  let value ← store.lookup path
  .ofExcept (placeholder.applied path (if value.isNull then .string "" else value))

/-- An empty text in place of a null makes no difference to what goes in place of a placeholder,
since a look-up never gives a null. -/
theorem replacement_eq_defaulted (environment : Environment) (store : Store)
    (placeholder : Placeholder) :
    placeholder.replacement environment store = placeholder.defaulted environment store := by
  unfold replacement defaulted
  refine congrArg _ (funext fun path ↦ funext fun earlier ↦ ?_)
  rcases hlookup : store.lookup path earlier with ⟨events, failure | value⟩
  · rw [Effect.bind_apply_error hlookup, Effect.bind_apply_error hlookup]
  · have hnull : value.isNull = false := by
      cases Store.leafy_of_lookup (congrArg Prod.snd hlookup) <;> rfl
    rw [Effect.bind_apply_ok hlookup, Effect.bind_apply_ok hlookup, hnull]
    rfl

/-- A replacement with an outcome by the rules ends as the outcome says. -/
theorem replacement_of_ends (h : placeholder.Ends environment store earlier outcome) :
    (placeholder.replacement environment store earlier).2 = outcome.ending := by
  rw [replacement_ending]
  cases h with
  | lacking hsplit h =>
      rw [Environment.expand_lacking hsplit h]
      rfl
  | unpulled hpath h =>
      obtain ⟨failure, hending, hlookup⟩ := Store.lookup_of_pulls_error h
      rw [Environment.expands_iff.1 hpath, hending]
      show (store.lookup _ earlier).2 >>= _ = _
      rw [hlookup]
      rfl
  | pulled hpath h hmakes =>
      rw [Environment.expands_iff.1 hpath, ← applied_of_makes hmakes]
      show (store.lookup _ earlier).2 >>= _ = _
      rw [Store.lookup_of_pulls_ok h]
      rfl

/-- A failure of the store is the only outcome where there is one. -/
theorem eq_of_ends_store_failed {failure : Failure}
    (hstore : placeholder.Ends environment store earlier (.storeFailed failure))
    (h : placeholder.Ends environment store earlier outcome) : outcome = .storeFailed failure := by
  obtain ⟨path, hpath, hfails⟩ : ∃ path, environment.Expands placeholder.path (.ok path) ∧
      store.Fails earlier path failure := by
    cases hstore with
    | unpulled hpath h =>
        cases h with
        | failed h => exact ⟨_, hpath, h⟩
    | pulled _ _ hmakes => cases hmakes
  rw [Environment.expands_iff] at hpath
  cases h with
  | lacking hsplit h => cases (Environment.expand_lacking hsplit h).symm.trans hpath
  | unpulled hexpands h =>
      rw [Environment.expands_iff, hpath] at hexpands
      cases hexpands
      exact Except.error.inj (hfails.pulls_eq h)
  | pulled hexpands h _ =>
      rw [Environment.expands_iff, hpath] at hexpands
      cases hexpands
      cases hfails.pulls_eq h

/-- The rules allow no two outcomes. -/
theorem ends_unique {other : Outcome} (h : placeholder.Ends environment store earlier outcome)
    (hother : placeholder.Ends environment store earlier other) : outcome = other := by
  by_cases houtcome : outcome.IsStoreFailure
  · obtain ⟨failure, rfl⟩ := houtcome
    exact (eq_of_ends_store_failed h hother).symm
  by_cases hstore : other.IsStoreFailure
  · obtain ⟨failure, rfl⟩ := hstore
    exact eq_of_ends_store_failed hother h
  exact Outcome.ending_injective houtcome hstore
    ((replacement_of_ends h).symm.trans (replacement_of_ends hother))

/-- The path of a placeholder begins with a slash. -/
theorem path_head_of_parse {text : String} (h : parse text = some placeholder) :
    placeholder.path.toList.head? = some '/' := by
  obtain ⟨json, body, hbody⟩ : ∃ json body, parseAfter json body = some placeholder := by
    rw [parse, Option.orElse_eq_orElse, Option.orElse_eq_or, Option.or_eq_some_iff] at h
    obtain h | ⟨_, h⟩ := h
    all_goals
      obtain ⟨body, _, hbody⟩ := Option.bind_eq_some_iff.1 h
      exact ⟨_, body, hbody⟩
  unfold parseAfter at hbody
  split at hbody
  · rename_i hstart
    obtain ⟨first, rest, rfl⟩ : ∃ first rest, body = '/' :: first :: rest := by
      unfold startsPath at hstart
      split at hstart
      · exact ⟨_, _, rfl⟩
      · cases hstart
    have hhead : (('/' :: first :: rest).takeWhile (· ≠ '|')).head? = some '/' := by simp
    simp only at hbody
    split at hbody
    all_goals
      cases hbody
      rw [String.toList_ofList]
      exact hhead
  · cases hbody

/-- The rules allow an outcome if the path begins with a slash. -/
theorem exists_ends (environment : Environment) (store : Store) (earlier : List String)
    (hpath : placeholder.path.toList.head? = some '/') :
    ∃ outcome, placeholder.Ends environment store earlier outcome := by
  cases hexpand : (environment.expand placeholder.path).start.2 with
  | error failure =>
      cases Environment.expands_iff.2 hexpand with
      | lacking hsplit h => exact ⟨_, .lacking hsplit h⟩
  | ok path =>
      have hend := Environment.expands_iff.2 hexpand
      have hslash : '/' ∈ path.toList := List.mem_of_head? (hend.head hpath)
      obtain ⟨result, hresult⟩ := store.exists_pulls earlier hslash
      cases result with
      | error outcome => exact ⟨_, .unpulled hend hresult⟩
      | ok value =>
          obtain ⟨outcome, hmakes⟩ := placeholder.exists_makes path (Store.leafy_of_pulls hresult)
          exact ⟨_, .pulled hend hresult hmakes⟩

/-- A replacement asks for nothing exactly if a variable is missing. -/
theorem queries_eq_nil_iff :
    (placeholder.replacement environment store earlier).1.queries = [] ↔
      ∃ name, placeholder.Ends environment store earlier (.variableMissing name) := by
  rw [← Trace.queries_milestones]
  constructor
  · intro h
    cases hexpand : (environment.expand placeholder.path).start.2 with
    | error failure =>
        cases Environment.expands_iff.2 hexpand with
        | lacking hsplit hlacks => exact ⟨_, .lacking hsplit hlacks⟩
    | ok path =>
        rw [replacement_milestones_expanded hexpand] at h
        exact absurd h (Store.probes_iff.2 rfl).queries_ne_nil
  · rintro ⟨name, h⟩
    cases h with
    | lacking hsplit h =>
        rw [replacement_milestones_nothing (Environment.expand_lacking hsplit h)]
        rfl
    | unpulled _ h => cases h
    | pulled _ _ hmakes => cases hmakes

/-- Replacing a placeholder that was read from a text has exactly one outcome by the rules, whatever
the environment holds and the store answers, and the replacement ends as it says. The other way
round, the end tells the outcome if the store does not fail. The store is asked for something unless
a variable is missing; an expanded path has a parent unless it ends in a slash; and what is pulled
is a text or a mapping of texts. -/
theorem replacement_has_one_outcome {text : String} {placeholder : Placeholder}
    (h : parse text = some placeholder) (environment : Environment) (store : Store)
    (earlier : List String) :
    (∃! outcome, placeholder.Ends environment store earlier outcome) ∧
      (∀ outcome, placeholder.Ends environment store earlier outcome →
        (placeholder.replacement environment store earlier).2 = outcome.ending) ∧
      (∀ outcome, ¬ outcome.IsStoreFailure →
        (placeholder.Ends environment store earlier outcome ↔
          (placeholder.replacement environment store earlier).2 = outcome.ending ∧
            ∀ failure, ¬ placeholder.Ends environment store earlier (.storeFailed failure))) ∧
      ((placeholder.replacement environment store earlier).1.queries = [] ↔
        ∃ name, placeholder.Ends environment store earlier (.variableMissing name)) ∧
      ∀ path, environment.Expands placeholder.path (.ok path) →
        ((∃ parent, IsParent path parent) ↔ path.toList.getLast? ≠ some '/') ∧
          ∀ value, store.Pulls earlier path (.ok value) → value.Leafy := by
  have hhead := path_head_of_parse h
  obtain ⟨outcome, hends⟩ := exists_ends environment store earlier hhead
  refine ⟨⟨outcome, hends, fun _ hother ↦ ends_unique hother hends⟩,
    fun _ ↦ replacement_of_ends, fun other hother ↦ ⟨fun h ↦ ⟨replacement_of_ends h, ?_⟩, ?_⟩,
    queries_eq_nil_iff, fun path hpath ↦ ⟨?_, fun _ ↦ Store.leafy_of_pulls⟩⟩
  · exact fun failure hstore ↦ hother ⟨failure, eq_of_ends_store_failed hstore h⟩
  · rintro ⟨hending, hstore⟩
    have houtcome : ¬ outcome.IsStoreFailure := by
      rintro ⟨failure, rfl⟩
      exact hstore failure hends
    have heq := Outcome.ending_injective houtcome hother
      ((replacement_of_ends hends).symm.trans hending)
    exact heq ▸ hends
  · exact exists_parent_iff (List.mem_of_head? (hpath.head hhead))

/-- A store with one parameter, which it lists under the parent of its path and nowhere else. -/
def listingStore : Store :=
  .ofFunction "listing" fun path ↦
    .ok (if path = "/app/prod" then [⟨"/app/prod/host", "db"⟩] else [])

/-- A placeholder with a variable and a suffix. -/
def hostPlaceholder : Placeholder :=
  ⟨"aws-ssm://app/$\x7bSTAGE\x7d/host|:80", false, "/app/$\x7bSTAGE\x7d/host", some ":80"⟩

/-- The placeholder stands for a text if the variable is set, and asks for nothing if it is not. -/
theorem host_has_one_outcome :
    parse "aws-ssm://app/$\x7bSTAGE\x7d/host|:80" = some hostPlaceholder ∧
      (hostPlaceholder.replacement (Environment.empty.set "STAGE" "prod".toUTF8) listingStore
        []).2 = .ok (.string "db:80") ∧
      (hostPlaceholder.replacement .empty listingStore []).2 =
        .error (.of (.variableNotFound "STAGE")) ∧
      (hostPlaceholder.replacement .empty listingStore []).1.queries = [] := by
  have hparse : parse "aws-ssm://app/$\x7bSTAGE\x7d/host|:80" = some hostPlaceholder := by decide
  have hsplit : VariableSplit.IsFirst ⟨"/app/", "STAGE", "/host"⟩ hostPlaceholder.path :=
    VariableSplit.of_eq_some_iff.1 (by decide)
  have hvalue : (Environment.empty.set "STAGE" "prod".toUTF8).text? "STAGE" = some "prod" := rfl
  have hprobed : listingStore.Probed [] "/app/prod/host" (.ok [⟨"/app/prod/host", "db"⟩]) :=
    ⟨rfl, "/app/prod", ⟨"/app/prod".toList, "host".toList, by decide⟩, rfl⟩
  have hexact : (exactOnes "/app/prod/host" [⟨"/app/prod/host", "db"⟩]).getLast? =
      some ⟨"/app/prod/host", "db"⟩ := by decide
  have hmissing := @Ends.lacking .empty listingStore [] hostPlaceholder _ hsplit
    (.unset fun _ ↦ rfl)
  obtain ⟨_, hset, _⟩ := replacement_has_one_outcome hparse
    (Environment.empty.set "STAGE" "prod".toUTF8) listingStore []
  obtain ⟨_, hunset, _, hqueries, _⟩ := replacement_has_one_outcome hparse .empty listingStore []
  have hmakes := @Makes.appended hostPlaceholder "/app/prod/host" "db" ":80" rfl
  exact ⟨hparse, hset _ (.pulled (.replaced hsplit hvalue (by decide))
    (.sibling hprobed hexact (by decide)) hmakes), hunset _ hmissing, hqueries.2 ⟨_, hmissing⟩⟩

end Placeholder

end ConfigFill
