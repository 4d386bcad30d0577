import ConfigFill.Proofs.Filling.Leaves
import ConfigFill.Proofs.Parameter.Path
import ConfigFill.Proofs.Placeholder.Variable
import ConfigFill.Proofs.Resolution.Lookup

/-!
# The course of filling

What filling a tree does, in order: one placeholder after the other is met, its path is asked for
and, where the store has nothing, the parent of the path, up to the first placeholder that fails.
`Tree.Course` says this by rules that do not mention the walk over the tree, and `fill_course` that
they describe filling exactly, whatever the store answers and however its answers depend on what it
was asked before.
-/

namespace ConfigFill

/-- The event is more than a comment: a query, a request, or a placeholder that is met. -/
def Event.isMilestone : Event → Bool
  | .query _ | .request _ | .log (.placeholderMet ..) => true
  | .log _ => false

namespace Trace

/-- The trace without the log records that only comment on it. -/
def milestones (trace : Trace) : Trace :=
  trace.filter Event.isMilestone

/-- The milestones of two traces in a row are those of both. -/
@[simp]
theorem milestones_append (first second : Trace) :
    milestones (first ++ second) = milestones first ++ milestones second :=
  List.filter_append ..

/-- The first event of a trace is a milestone or left out. -/
theorem milestones_cons (event : Event) (trace : Trace) :
    milestones (event :: trace) =
      if event.isMilestone then event :: trace.milestones else trace.milestones :=
  List.filter_cons

/-- The milestones say all that was asked. -/
@[simp]
theorem queries_milestones (trace : Trace) : trace.milestones.queries = trace.queries := by
  rw [milestones, queries, List.filterMap_filter]
  refine congrArg (List.filterMap · trace) (funext fun event ↦ ?_)
  cases event with
  | query path => rfl
  | request request => rfl
  | log record => cases record <;> rfl

end Trace

/-- Expanding a path asks for nothing and meets no placeholder, and what went before it does not
matter. -/
theorem Environment.expand_apply (environment : Environment) (path : String)
    (earlier : List String) :
    (environment.expand path earlier).1.milestones = [] ∧
      (environment.expand path earlier).2 = (environment.expand path).start.2 := by
  cases hsplit : VariableSplit.of? path with
  | none =>
      simp only [expand, hsplit]
      exact ⟨rfl, rfl⟩
  | some split =>
      cases htext : environment.text? split.name with
      | none =>
          simp only [expand, hsplit, htext]
          exact ⟨rfl, rfl⟩
      | some value =>
          simp only [expand, hsplit, htext]
          cases value.isEmpty <;> exact ⟨rfl, rfl⟩

namespace Store

open Parameter

/-- A query of a store, with all that it does to answer but its comments. -/
def asked (store : Store) (earlier : List String) (path : String) : Trace :=
  (store.asking earlier path).milestones

/-- What a look-up asks a store for: the path and, exactly if the answer is the empty list and
something stands after the last slash of the path, what stands before that slash, or the root if
nothing does. -/
inductive Probes (store : Store) (earlier : List String) (path : String) : Trace → Prop where
  | direct (h : (store.answer earlier path).result = .ok [] →
      '/' ∉ path.toList ∨ path.toList.getLast? = some '/') :
      Probes store earlier path (store.asked earlier path)
  | parent {before segment : List Char} (h : (store.answer earlier path).result = .ok [])
      (hpath : path.toList = before ++ '/' :: segment) (hsegment : '/' ∉ segment)
      (hne : segment ≠ []) :
      Probes store earlier path (store.asked earlier path ++
        store.asked (earlier ++ (store.asked earlier path).queries)
          (if before = [] then "/" else String.ofList before))

variable {store : Store} {earlier : List String} {path : String}

/-- Noting what is dropped is no milestone. -/
theorem dropping_milestones (path : String) (parameters : List Parameter) (exactOnly : Bool) :
    (dropping path parameters exactOnly).milestones = [] := by
  simp [dropping, Trace.milestones, Event.isMilestone]

/-- A look-up through a parent asks for the parent and nothing else. -/
theorem lookup_through_milestones (store : Store) (earlier : List String) (path parent : String) :
    (store.lookupThrough path parent earlier).1.milestones = store.asked earlier parent := by
  cases hanswer : (store.answer earlier parent).result with
  | error failure =>
      rw [lookup_through_failed hanswer]
      simp [Trace.milestones_cons, Event.isMilestone, asked]
  | ok siblings =>
      rw [lookup_through_found hanswer]
      simp [Trace.milestones_cons, Event.isMilestone, asked, dropping_milestones]

/-- A look-up that does not go on to a parent asks for the path and nothing else. -/
theorem lookup_milestones_direct
    (h : (store.answer earlier path).result = .ok [] → parentOf? path = none) :
    (store.lookup path earlier).1.milestones = store.asked earlier path := by
  cases hanswer : (store.answer earlier path).result with
  | error failure =>
      rw [lookup_failed hanswer]
      simp [Trace.milestones_cons, Event.isMilestone, asked]
  | ok found =>
      by_cases hfound : found = []
      · subst hfound
        rw [lookup_orphan hanswer (h hanswer)]
        simp [Trace.milestones_cons, Event.isMilestone, asked]
      · rw [lookup_found hanswer hfound]
        simp [Trace.milestones_cons, Event.isMilestone, asked, dropping_milestones]

/-- A look-up that goes on to a parent asks for the path first and then for the parent. -/
theorem lookup_milestones_probed {parent : String}
    (h : (store.answer earlier path).result = .ok []) (hparent : parentOf? path = some parent) :
    (store.lookup path earlier).1.milestones = store.asked earlier path ++
      store.asked (earlier ++ (store.asked earlier path).queries) parent := by
  rw [lookup_probed h hparent]
  simp [Trace.milestones_cons, Event.isMilestone, lookup_through_milestones, asked]

/-- A look-up asks just what it should. -/
theorem probes_iff {events : Trace} :
    store.Probes earlier path events ↔ events = (store.lookup path earlier).1.milestones := by
  constructor
  · intro h
    cases h with
    | direct h => rw [lookup_milestones_direct fun hanswer ↦ parent_of_eq_none_iff.2 (h hanswer)]
    | parent h hpath hsegment hne =>
        rw [lookup_milestones_probed h (parent_of_eq_some_iff.2 ⟨_, _, hpath, hsegment, hne, rfl⟩)]
  · rintro rfl
    by_cases h : (store.answer earlier path).result = .ok [] → parentOf? path = none
    · rw [lookup_milestones_direct h]
      exact .direct fun hanswer ↦ parent_of_eq_none_iff.1 (h hanswer)
    · obtain ⟨hanswer, hparent⟩ := Classical.not_imp.1 h
      obtain ⟨parent, hparent⟩ := Option.ne_none_iff_exists'.1 hparent
      rw [lookup_milestones_probed hanswer hparent]
      obtain ⟨before, segment, hpath, hsegment, hne, rfl⟩ := parent_of_eq_some_iff.1 hparent
      exact .parent hanswer hpath hsegment hne

end Store

namespace Placeholder

/-- What a placeholder asks a store for: nothing if its path cannot be expanded, and otherwise what
the look-up of the expanded path asks for. -/
inductive Asks (environment : Environment) (store : Store) (earlier : List String)
    (placeholder : Placeholder) : Trace → Prop where
  | nothing {failure : Failure} (h : environment.Expands placeholder.path (.error failure)) :
      Asks environment store earlier placeholder []
  | expanded {path : String} {events : Trace}
      (h : environment.Expands placeholder.path (.ok path))
      (hevents : store.Probes earlier path events) :
      Asks environment store earlier placeholder events

variable {environment : Environment} {store : Store} {placeholder : Placeholder}
  {earlier : List String}

/-- A placeholder whose path cannot be expanded asks for nothing. -/
theorem replacement_milestones_nothing {failure : Failure}
    (h : (environment.expand placeholder.path).start.2 = .error failure) :
    (placeholder.replacement environment store earlier).1.milestones = [] := by
  obtain ⟨hevents, houtcome⟩ := environment.expand_apply placeholder.path earlier
  have hexpand : environment.expand placeholder.path earlier =
      ((environment.expand placeholder.path earlier).1, .error failure) :=
    Prod.ext rfl (houtcome.trans h)
  rw [replacement, Effect.bind_apply_error hexpand]
  exact hevents

/-- A placeholder asks for what the look-up of its expanded path does. -/
theorem replacement_milestones_expanded {path : String}
    (h : (environment.expand placeholder.path).start.2 = .ok path) :
    (placeholder.replacement environment store earlier).1.milestones =
      (store.lookup path earlier).1.milestones := by
  obtain ⟨hevents, houtcome⟩ := environment.expand_apply placeholder.path earlier
  have hexpand : environment.expand placeholder.path earlier =
      ((environment.expand placeholder.path earlier).1, .ok path) :=
    Prod.ext rfl (houtcome.trans h)
  have hqueries : (environment.expand placeholder.path earlier).1.queries = [] := by
    rw [← Trace.queries_milestones, hevents]
    rfl
  rw [replacement, Effect.bind_apply_ok hexpand, hqueries, List.append_nil,
    Trace.milestones_append, hevents, List.nil_append]
  -- Making something of the value leaves no trace.
  rcases hlookup : store.lookup path earlier with ⟨events, failure | value⟩
  · rw [Effect.bind_apply_error hlookup]
  · rw [Effect.bind_apply_ok hlookup]
    simp [Effect.ofExcept]

/-- A placeholder asks just what it should. -/
theorem asks_iff {events : Trace} :
    placeholder.Asks environment store earlier events ↔
      events = (placeholder.replacement environment store earlier).1.milestones := by
  constructor
  · intro h
    cases h with
    | nothing h => rw [replacement_milestones_nothing (Environment.expands_iff.1 h)]
    | expanded h hevents =>
        rw [replacement_milestones_expanded (Environment.expands_iff.1 h),
          Store.probes_iff.1 hevents]
  · rintro rfl
    cases h : (environment.expand placeholder.path).start.2 with
    | error failure =>
        rw [replacement_milestones_nothing h]
        exact .nothing (Environment.expands_iff.2 h)
    | ok path =>
        rw [replacement_milestones_expanded h]
        exact .expanded (Environment.expands_iff.2 h) (Store.probes_iff.2 rfl)

end Placeholder

namespace Tree

/-- The record that a placeholder leaf is met. -/
def Mark.met (mark : Mark) : Event :=
  .log (.placeholderMet mark.path.shown mark.text)

/-- The course of filling placeholder leaves in order, after other queries: its milestones, and the
failure that ends it early, if any. A leaf is met and asks the store for all that it must; only if it
does not fail does the course go on, with a store that has been asked for that too. -/
inductive Course (environment : Environment) (store : Store) :
    List String → List Mark → Trace → Except Failure Unit → Prop where
  | done {earlier : List String} : Course environment store earlier [] [] (.ok ())
  | failed {earlier : List String} {mark : Mark} {rest : List Mark} {placeholder : Placeholder}
      {events : Trace} {failure : Failure}
      (hparse : Placeholder.parse mark.text = some placeholder)
      (hevents : placeholder.Asks environment store earlier events)
      (h : (placeholder.replacement environment store earlier).2 = .error failure) :
      Course environment store earlier (mark :: rest) (mark.met :: events)
        (.error (failure.located mark.path.shown))
  | passed {earlier : List String} {mark : Mark} {rest : List Mark} {placeholder : Placeholder}
      {events later : Trace} {value : Tree} {ending : Except Failure Unit}
      (hparse : Placeholder.parse mark.text = some placeholder)
      (hevents : placeholder.Asks environment store earlier events)
      (h : (placeholder.replacement environment store earlier).2 = .ok value)
      (hrest : Course environment store (earlier ++ events.queries) rest later ending) :
      Course environment store earlier (mark :: rest) (mark.met :: events ++ later) ending

variable {environment : Environment} {store : Store}

/-- A placeholder leaf is met and then replaced, and a failure gets its place. -/
theorem fill_mark_apply (environment : Environment) (store : Store) {mark : Mark}
    {placeholder : Placeholder} (hparse : Placeholder.parse mark.text = some placeholder)
    (earlier : List String) :
    fillMark environment store mark earlier =
      (mark.met :: (placeholder.replacement environment store earlier).1,
        (placeholder.replacement environment store earlier).2.mapError
          (·.located mark.path.shown)) := by
  simp only [fillMark, fillString, hparse]
  rw [Effect.log_bind_apply]
  rfl

/-- The course ends with the first leaf that fails. -/
theorem course_cons_failed {mark : Mark} {rest : List Mark} {placeholder : Placeholder}
    {earlier : List String} {failure : Failure} {events : Trace} {ending : Except Failure Unit}
    (hparse : Placeholder.parse mark.text = some placeholder)
    (hfails : (placeholder.replacement environment store earlier).2 = .error failure) :
    Course environment store earlier (mark :: rest) events ending ↔
      events = mark.met :: (placeholder.replacement environment store earlier).1.milestones ∧
        ending = .error (failure.located mark.path.shown) := by
  constructor
  · intro h
    cases h with
    | failed hparse' hevents h =>
        obtain rfl := Option.some.inj (hparse.symm.trans hparse')
        obtain rfl := Except.error.inj (hfails.symm.trans h)
        exact ⟨congrArg _ (Placeholder.asks_iff.1 hevents), rfl⟩
    | passed hparse' _ h _ =>
        obtain rfl := Option.some.inj (hparse.symm.trans hparse')
        cases hfails.symm.trans h
  · rintro ⟨rfl, rfl⟩
    exact .failed hparse (Placeholder.asks_iff.2 rfl) hfails

/-- The course goes on after a leaf that does not fail, with a store that has been asked for more.
-/
theorem course_cons_passed {mark : Mark} {rest : List Mark} {placeholder : Placeholder}
    {earlier : List String} {value : Tree} {events : Trace} {ending : Except Failure Unit}
    (hparse : Placeholder.parse mark.text = some placeholder)
    (hpasses : (placeholder.replacement environment store earlier).2 = .ok value) :
    Course environment store earlier (mark :: rest) events ending ↔
      ∃ later, Course environment store
          (earlier ++ (placeholder.replacement environment store earlier).1.queries) rest later
          ending ∧
        events = mark.met :: (placeholder.replacement environment store earlier).1.milestones ++
          later := by
  constructor
  · intro h
    cases h with
    | failed hparse' _ h =>
        obtain rfl := Option.some.inj (hparse.symm.trans hparse')
        cases hpasses.symm.trans h
    | passed hparse' hevents h hrest =>
        obtain rfl := Option.some.inj (hparse.symm.trans hparse')
        obtain rfl := Placeholder.asks_iff.1 hevents
        rw [Trace.queries_milestones] at hrest
        exact ⟨_, hrest, rfl⟩
  · rintro ⟨later, hrest, rfl⟩
    rw [← Trace.queries_milestones] at hrest
    exact .passed hparse (Placeholder.asks_iff.2 rfl) hpasses hrest

/-- Filling placeholder leaves in order takes just the course that it should. -/
theorem course_iff {marks : List Mark} {entries : List (Path × Placeholder)}
    (hshown : List.Forall₂ Mark.Shows marks entries) {earlier : List String} {events : Trace}
    {ending : Except Failure Unit} :
    Course environment store earlier marks events ending ↔
      events = (marks.mapM (fillMark environment store) earlier).1.milestones ∧
        ending = (marks.mapM (fillMark environment store) earlier).2.map fun _ ↦ () := by
  -- The induction is over all queries before, which the first leaf adds to.
  induction hshown generalizing earlier events with
  | nil =>
      constructor
      · intro h
        cases h
        exact ⟨rfl, rfl⟩
      · rintro ⟨rfl, rfl⟩
        exact .done
  | @cons mark entry rest entries hmark _ ih =>
      obtain ⟨_, hparse⟩ := hmark
      have hfill := fill_mark_apply environment store hparse earlier
      rw [List.mapM_cons]
      rcases hreplacement : entry.2.replacement environment store earlier with
        ⟨asked, failure | value⟩
      · rw [course_cons_failed hparse (congrArg Prod.snd hreplacement), hreplacement]
        rw [hreplacement] at hfill
        rw [Effect.bind_apply_error hfill]
        rfl
      · rw [course_cons_passed hparse (congrArg Prod.snd hreplacement), hreplacement]
        rw [hreplacement] at hfill
        rw [Effect.bind_apply_ok hfill, bind_pure_comp, Effect.map_apply]
        have hqueries : Trace.queries (mark.met :: asked) = asked.queries := rfl
        have hmilestones :
            Trace.milestones (mark.met :: asked) = mark.met :: asked.milestones := rfl
        simp only [ih, hqueries, Effect.map_forget, Trace.milestones_append, hmilestones]
        constructor
        · rintro ⟨later, ⟨rfl, rfl⟩, rfl⟩
          exact ⟨rfl, rfl⟩
        · rintro ⟨rfl, rfl⟩
          exact ⟨_, ⟨rfl, rfl⟩, rfl⟩

end Tree

end ConfigFill
