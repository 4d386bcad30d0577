import ConfigFill.Proofs.Parameter.Assembly
import ConfigFill.Resolution.Lookup

/-!
# How a look-up runs

What a look-up does and how it ends, one equation for each way that the store's answers can take it:
the store fails (`lookup_failed`), it has something at or below the path (`lookup_found`), it has
nothing and the path has no parent (`lookup_orphan`), or the parent is asked (`lookup_probed`). They
hold for every store, whatever was asked of it before. It follows that a look-up gives a text or a
mapping of texts that is not empty (`leafy_of_lookup`), and so never a null (`lookup_ne_null`).
-/

namespace ConfigFill

namespace Store

open Parameter

/-- A query and all that the store does to answer it, after other queries. -/
def asking (store : Store) (earlier : List String) (path : String) : Trace :=
  .query path :: (store.answer earlier path).events

/-- The log records of assembling parameters. -/
def dropping (path : String) (parameters : List Parameter) (exactOnly : Bool) : Trace :=
  ((Assembly.of path parameters exactOnly).dropped.map (.parameterDropped · path)).map .log

variable {store : Store} {earlier : List String} {path : String}

/-- A query is what the store does for it and how the store answers. -/
theorem query_apply (store : Store) (earlier : List String) (path : String) :
    store.query path earlier = (store.asking earlier path, (store.answer earlier path).result) :=
  rfl

/-- Where the store fails for a path, so does the look-up. -/
theorem lookup_failed {failure : Failure}
    (h : (store.answer earlier path).result = .error failure) :
    store.lookup path earlier =
      (.log (.storeAsked store.name path) :: store.asking earlier path, .error failure) := by
  have hquery : store.query path earlier = (store.asking earlier path, .error failure) := by
    rw [query_apply, h]
  unfold lookup
  rw [Effect.log_bind_apply, Effect.bind_apply_error hquery]

/-- What the store has at or below a path is assembled. -/
theorem lookup_found {found : List Parameter} (h : (store.answer earlier path).result = .ok found)
    (hfound : found ≠ []) :
    store.lookup path earlier =
      (.log (.storeAsked store.name path) :: store.asking earlier path ++
          .log (.parametersFound found.length path) :: dropping path found false,
        .ok (Assembly.of path found false).tree) := by
  have hquery : store.query path earlier = (store.asking earlier path, .ok found) := by
    rw [query_apply, h]
  have hempty : found.isEmpty = false := by simpa using hfound
  unfold lookup
  rw [Effect.log_bind_apply, Effect.bind_apply_ok hquery]
  simp only [hempty, Bool.false_eq_true, if_false]
  rw [Effect.log_bind_apply, assemble_apply]
  rfl

/-- Where the store has nothing at a path without a parent, the look-up fails. -/
theorem lookup_orphan (h : (store.answer earlier path).result = .ok [])
    (hparent : parentOf? path = none) :
    store.lookup path earlier =
      (.log (.storeAsked store.name path) :: store.asking earlier path,
        .error (.of (.internal s!"Parameter path has no parent segment: {path}"))) := by
  have hquery : store.query path earlier = (store.asking earlier path, .ok []) := by
    rw [query_apply, h]
  unfold lookup
  rw [Effect.log_bind_apply, Effect.bind_apply_ok hquery]
  simp [hparent, Effect.fail]

/-- Where the store has nothing at a path, the look-up goes on with its parent. -/
theorem lookup_probed {parent : String} (h : (store.answer earlier path).result = .ok [])
    (hparent : parentOf? path = some parent) :
    store.lookup path earlier =
      (.log (.storeAsked store.name path) :: store.asking earlier path ++
          (store.lookupThrough path parent (earlier ++ (store.asking earlier path).queries)).1,
        (store.lookupThrough path parent (earlier ++ (store.asking earlier path).queries)).2) := by
  have hquery : store.query path earlier = (store.asking earlier path, .ok []) := by
    rw [query_apply, h]
  unfold lookup
  rw [Effect.log_bind_apply, Effect.bind_apply_ok hquery]
  simp [hparent]

/-- Where the store fails for the parent, so does the look-up. -/
theorem lookup_through_failed {parent : String} {failure : Failure}
    (h : (store.answer earlier parent).result = .error failure) :
    store.lookupThrough path parent earlier =
      (.log (.parentProbed path parent) :: store.asking earlier parent, .error failure) := by
  have hquery : store.query parent earlier = (store.asking earlier parent, .error failure) := by
    rw [query_apply, h]
  unfold lookupThrough
  rw [Effect.log_bind_apply, Effect.bind_apply_error hquery]

/-- What the parent's answer makes of a path: its value, unless that is empty or missing. -/
theorem lookup_through_found {parent : String} {siblings : List Parameter}
    (h : (store.answer earlier parent).result = .ok siblings) :
    store.lookupThrough path parent earlier =
      (.log (.parentProbed path parent) :: store.asking earlier parent ++
          dropping path siblings true,
        if (Assembly.of path siblings true).tree.isVacant then .error (.of (.unresolvedPath path))
        else .ok (Assembly.of path siblings true).tree) := by
  have hquery : store.query parent earlier = (store.asking earlier parent, .ok siblings) := by
    rw [query_apply, h]
  unfold lookupThrough
  rw [Effect.log_bind_apply, Effect.bind_apply_ok hquery,
    Effect.bind_apply_ok (assemble_apply path siblings true _)]
  split <;> simp [Effect.fail, Effect.pure_apply, dropping]

/-- What the parent of a path leads to is a text or a mapping of texts that is not empty. -/
theorem leafy_of_lookup_through {parent : String} {value : Tree}
    (h : (store.lookupThrough path parent earlier).2 = .ok value) : value.Leafy := by
  cases hanswer : (store.answer earlier parent).result with
  | error failure =>
      rw [lookup_through_failed hanswer] at h
      cases h
  | ok siblings =>
      rw [lookup_through_found hanswer] at h
      dsimp only at h
      split at h
      · cases h
      · rename_i hvacant
        cases h
        refine (assembly_amounts path siblings true).leafy.resolve_left fun hempty ↦ hvacant ?_
        rw [hempty]
        rfl

/-- What a look-up gives is a text or a mapping of texts that is not empty. -/
theorem leafy_of_lookup {value : Tree} (h : (store.lookup path earlier).2 = .ok value) :
    value.Leafy := by
  cases hanswer : (store.answer earlier path).result with
  | error failure =>
      rw [lookup_failed hanswer] at h
      cases h
  | ok found =>
      by_cases hfound : found = []
      · subst hfound
        cases hparent : parentOf? path with
        | none =>
            rw [lookup_orphan hanswer hparent] at h
            cases h
        | some parent =>
            rw [lookup_probed hanswer hparent] at h
            exact leafy_of_lookup_through h
      · rw [lookup_found hanswer hfound] at h
        cases h
        exact (assembly_amounts path found false).leafy_of_ne_nil hfound

/-- A look-up never gives a null. -/
theorem lookup_ne_null : (store.lookup path earlier).2 ≠ .ok .null := by
  intro h
  cases leafy_of_lookup h

end Store

end ConfigFill
