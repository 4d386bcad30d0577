import ConfigFill.Proofs.Filling.Leaves
import ConfigFill.Proofs.Parameter.Table
import ConfigFill.Proofs.Trace.Local

/-!
# Parameters that do not matter

Filling a tree depends on a store only through its answers to the paths that are asked for: a store
that answers these in the same way leads to the same run (`fill_local`). So a parameter of a table
that lies within none of them may be set to any value, added or taken out. The main statement is
`fill_ignores_irrelevant`.
-/

namespace ConfigFill

open Effect (SameOn)

namespace Store

/-- The stores do and answer the same on being asked for the path, whatever was asked before. -/
def SameAt (first second : Store) (path : String) : Prop :=
  ∀ earlier, first.answer earlier path = second.answer earlier path

variable {first second : Store}

/-- Stores that agree on a path are queried alike for it. -/
theorem query_same_on (path : String) :
    SameOn (SameAt first second) (first.query path) (second.query path) := by
  intro earlier hagreed
  have hpath : first.SameAt second path := hagreed path (by simp [query, Trace.queries])
  simp only [query, hpath earlier]

/-- A look-up goes alike with stores that agree on the paths it asks for. -/
theorem lookup_same_on (hname : first.name = second.name) (path : String) :
    SameOn (SameAt first second) (first.lookup path) (second.lookup path) := by
  unfold lookup
  rw [hname]
  refine (SameOn.refl _).bind fun _ ↦ (query_same_on path).bind fun found ↦ ?_
  split
  · split
    · exact (SameOn.refl _).bind fun _ ↦ (query_same_on _).bind fun _ ↦ SameOn.refl _
    · exact SameOn.refl _
  · exact SameOn.refl _

end Store

namespace Tree

variable {environment : Environment} {first second : Store}

/-- A placeholder leaf is filled alike with stores that agree on the paths it asks for. -/
theorem fill_mark_same_on (hname : first.name = second.name) (mark : Mark) :
    SameOn (first.SameAt second) (fillMark environment first mark)
      (fillMark environment second mark) := by
  unfold fillMark fillString
  split
  · refine (SameOn.refl _).bind fun _ ↦ SameOn.map_failure ?_
    refine (SameOn.refl _).bind fun path ↦ ?_
    exact (Store.lookup_same_on hname path).bind fun _ ↦ SameOn.refl _
  · exact SameOn.refl _

/-- A tree is filled alike with stores that agree on the paths it asks for. -/
theorem fill_same_on (hname : first.name = second.name) (tree : Tree) :
    SameOn (first.SameAt second) (tree.fill environment first) (tree.fill environment second) := by
  rw [fill_eq_refilled, fill_eq_refilled, ← bind_pure_comp, ← bind_pure_comp]
  refine (SameOn.map_m tree.marks fun mark ↦ fill_mark_same_on hname mark).bind ?_
  exact fun _ ↦ SameOn.refl _

/-- Two stores of one name that answer the paths in the same way that filling a tree from the first
asks for lead to the same run: the same events in the same order, and the same end. -/
theorem fill_local (hname : first.name = second.name) {tree : Tree}
    (h : ∀ path ∈ (tree.fill environment first).start.1.queries, first.SameAt second path) :
    (tree.fill environment second).start = (tree.fill environment first).start :=
  fill_same_on hname tree [] h

end Tree

namespace Parameter

open Parameter.Path

variable {name : String}

/-- A parameter within no path that is looked for is filtered out, so that placing it among others
leaves what is found there. -/
theorem filter_place {path : String} (h : isWithin name path = false) (value : String)
    (parameters : List Parameter) :
    (place name value parameters).filter (fun parameter ↦ isWithin parameter.name path) =
      parameters.filter fun parameter ↦ isWithin parameter.name path := by
  induction parameters with
  | nil => simp [place, h]
  | cons first rest ih =>
      simp only [place]
      split
      · simp [h]
      · split
        · rename_i heq
          simp [h, ← heq]
        · simp only [List.filter_cons, ih]

namespace Table

/-- The table without the parameter of a name. -/
def remove (table : Table) (name : String) : Table where
  parameters := table.parameters.filter (·.name ≠ name)
  ascending := table.ascending.sublist List.filter_sublist

variable {path : String}

/-- A new value for a name outside a path changes nothing within the path. -/
theorem below_insert (table : Table) (h : isWithin name path = false) (value : String) :
    (table.insert name value).below path = table.below path :=
  filter_place h value table.parameters

/-- Taking out a name outside a path changes nothing within the path. -/
theorem below_remove (table : Table) (h : isWithin name path = false) :
    (table.remove name).below path = table.below path := by
  simp only [below, remove, List.filter_filter]
  refine List.filter_congr fun parameter _ ↦ ?_
  by_cases hname : parameter.name = name
  · simp [hname, h]
  · simp [hname]

/-- Tables with the same parameters within every path that is asked for lead to the same run. -/
theorem fill_eq_of_below {table other : Table} {environment : Environment} {tree : Tree}
    (h : ∀ path ∈ (tree.fill environment table.store).start.1.queries,
      other.below path = table.below path) :
    (tree.fill environment other.store).start = (tree.fill environment table.store).start := by
  have hname : table.store.name = other.store.name := rfl
  refine Tree.fill_local hname fun path hpath earlier ↦ ?_
  simp only [store, Store.ofFunction, h path hpath]

/-- A parameter that lies within none of the paths that filling a tree from a table asks for does not
matter: after it is set to any value, whether it was there before or not, and after it is taken out,
filling the tree does the same things in the same order, so asks for the same paths, and ends with
the same tree or the same failure. -/
theorem fill_ignores_irrelevant {table : Table} {environment : Environment} {tree : Tree}
    (h : ∀ path ∈ (tree.fill environment table.store).start.1.queries,
      isWithin name path = false) :
    (∀ value, (tree.fill environment (table.insert name value).store).start =
        (tree.fill environment table.store).start) ∧
      (tree.fill environment (table.remove name).store).start =
        (tree.fill environment table.store).start := by
  constructor
  · intro value
    exact fill_eq_of_below fun path hpath ↦ table.below_insert (h path hpath) value
  · exact fill_eq_of_below fun path hpath ↦ table.below_remove (h path hpath)

/-- A document whose second placeholder asks for its parent in vain. -/
def sampleDocument : Tree :=
  .mapping [("stage", .string "aws-ssm://stage|-x"), ("port", .string "aws-ssm://apps/port")]

/-- The sample asks for paths beside `/app`, so that the parameter of this name may change or go. -/
theorem fill_ignores_irrelevant_sample :
    (sampleDocument.fill .empty sample.store).start.1.queries = ["/stage", "/apps/port", "/apps"] ∧
      (∀ path ∈ (sampleDocument.fill .empty sample.store).start.1.queries,
        isWithin "/app" path = false) ∧
      (sampleDocument.fill .empty (sample.insert "/app" "b").store).start =
        (sampleDocument.fill .empty sample.store).start ∧
      (sampleDocument.fill .empty (sample.remove "/app").store).start =
        (sampleDocument.fill .empty sample.store).start := by
  have hqueries : (sampleDocument.fill .empty sample.store).start.1.queries =
      ["/stage", "/apps/port", "/apps"] := by
    decide +kernel
  have hout : ∀ path ∈ (sampleDocument.fill .empty sample.store).start.1.queries,
      isWithin "/app" path = false := by
    rw [hqueries]
    decide
  obtain ⟨hinsert, hremove⟩ := fill_ignores_irrelevant hout
  exact ⟨hqueries, hout, hinsert "b", hremove⟩

end Table

end Parameter

end ConfigFill
