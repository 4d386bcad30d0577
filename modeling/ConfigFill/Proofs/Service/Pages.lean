import ConfigFill.Proofs.Parameter.Table
import ConfigFill.Proofs.Service.Fetch

/-!
# A service that serves a table

The service hands out what is below a path in pages, each but the last with a token for the next.
`Pages` says which pages there are from a token on, however many and however full they are; asking
for them one after the other gathers them all (`fetch_pages_outcome`). A service that `Serves` a
table answers from its parameters, and then a query answers as the table does (`fetch_outcome`).
-/

namespace ConfigFill.Service

open Parameter (Table)
open Parameter.Path

/-- A parameter as the service hands it out. -/
def Entry.of (parameter : Parameter) : Entry :=
  ⟨some parameter.name, some parameter.value⟩

/-- The pages that the service has for a path from a token on. The last of them comes without a
token or with an empty one. -/
inductive Pages (service : Service) (path : String) : Option String → List (List Entry) → Prop where
  | last {token next : Option String} {entries : List Entry}
      (page : service.page path token = .page entries next) (ends : next = none ∨ next = some "") :
      Pages service path token [entries]
  | more {token : Option String} {next : String} {entries : List Entry} {rest : List (List Entry)}
      (page : service.page path token = .page entries (some next)) (goesOn : next ≠ "")
      (tail : Pages service path (some next) rest) : Pages service path token (entries :: rest)

/-- The service answers from the table: with the parameter of a name, if there is one, and with what
is strictly below a path, in ascending order and cut into pages at will. -/
structure Serves (service : Service) (table : Table) : Prop where
  parameter : ∀ name, service.parameter name =
    match table.find? name with
    | some parameter => .found (.of parameter)
    | none => .unknown
  pages : ∀ path, IsRooted path → ∃ pages, Pages service path none pages ∧
    pages.flatten = (table.children path).map .of

variable {service : Service} {table : Table} {path : String}

/-- There are no more pages than the service has in all. -/
theorem Pages.length_le {token : Option String} {pages : List (List Entry)}
    (h : Pages service path token pages) {bound : Nat}
    (hbound : PagesEnd (service.page path) bound token) : pages.length ≤ bound := by
  induction h generalizing bound with
  | last page ends =>
      cases bound with
      | zero => exact hbound.elim
      | succ bound => simp
  | more page goesOn _ ih =>
      cases bound with
      | zero => exact hbound.elim
      | succ bound =>
          simp only [PagesEnd, page] at hbound
          exact Nat.succ_le_succ (ih (hbound.resolve_left goesOn))

/-- Asking for pages gathers what is complete in all of them. -/
theorem fetch_pages_outcome {token : Option String} {pages : List (List Entry)}
    (h : Pages service path token pages) {fuel : Nat} (hfuel : pages.length ≤ fuel)
    (earlier : List String) :
    (fetchPages service path fuel token earlier).2 =
      .ok (pages.flatten.filterMap Entry.complete?) := by
  -- There is fuel for every page that is left, so that it never runs out.
  induction h generalizing fuel with
  | last page ends =>
      obtain ⟨fuel, rfl⟩ := Nat.exists_eq_add_of_le' hfuel
      rw [List.length_singleton, fetch_pages_last page ends]
      simp
  | more page goesOn _ ih =>
      obtain ⟨fuel, rfl⟩ := Nat.exists_eq_add_of_le' hfuel
      rw [List.length_cons, ← Nat.add_assoc, fetch_pages_more page goesOn,
        ih (Nat.le_add_left _ fuel)]
      simp [Except.map]

/-- A service that serves a table finds the parameter that the table has under a name. -/
theorem fetch_exact_outcome (h : service.Serves table) (name : String) (earlier : List String) :
    (fetchExact service name earlier).2 = .ok (table.find? name) := by
  unfold fetchExact
  simp only [h.parameter]
  cases table.find? name with
  | some parameter => exact Effect.bind_outcome rfl fun _ ↦ rfl
  | none => exact Effect.bind_outcome rfl fun _ ↦ rfl

/-- The root has no parameter of its own, and all that lies within it is strictly below it. -/
theorem below_root (table : Table) : table.below "/" = table.children "/" := by
  refine List.filter_congr fun parameter _ ↦ ?_
  have htrimmed : trimmed "/".toList = [] := rfl
  rw [Bool.eq_iff_iff, is_within_iff, htrimmed]
  simp

/-- A service that serves a table lists the children that the table has below a path. -/
theorem fetch_pages_children (h : service.Serves table) (hpath : IsRooted path)
    (earlier : List String) :
    (fetchPages service path (service.pageBound path) none earlier).2 =
      .ok (table.children path) := by
  obtain ⟨pages, hpages, hflatten⟩ := h.pages path hpath
  have hbound := hpages.length_le (service.pagesEnd path)
  rw [fetch_pages_outcome hpages hbound, hflatten, List.filterMap_map]
  exact congrArg Except.ok (List.filterMap_some ..)

/-- A query of a service that serves a table answers as the table does. -/
theorem fetch_outcome (h : service.Serves table) (hpath : IsRooted path) (earlier : List String) :
    (fetch service path earlier).2 = .ok (table.below path) := by
  unfold fetch
  split
  · rename_i hroot
    subst hroot
    refine Effect.bind_outcome rfl fun later ↦ ?_
    refine Effect.bind_outcome (fetch_pages_children h hpath later) fun last ↦ ?_
    rw [below_root]
    exact Effect.bind_outcome rfl fun _ ↦ rfl
  · rename_i hroot
    have habsolute : IsAbsolute path := hpath.resolve_left hroot
    refine Effect.bind_outcome (fetch_exact_outcome h path earlier) fun later ↦ ?_
    refine Effect.bind_outcome (fetch_pages_children h hpath later) fun last ↦ ?_
    rw [table.below_eq habsolute]
    exact Effect.bind_outcome rfl fun _ ↦ rfl

end ConfigFill.Service
