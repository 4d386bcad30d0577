import ConfigFill.Proofs.Resolution.Related
import ConfigFill.Proofs.Service.Pages

/-!
# The service and the table agree

A service that serves a table is as good as the table: queries answer the same list, and so look-ups
and filled trees have the same values and failures, as long as only the root and absolute paths are
asked for. The main statement is `serves_agrees`.
-/

namespace ConfigFill.Service

open Effect (Related)
open Parameter (Table)
open Parameter.Path

variable {service : Service} {table : Table}

/-- The service as a store and the table as a store have related queries for such paths. -/
theorem Serves.query_related (h : service.Serves table) {path : String} (hpath : IsRooted path) :
    Related (fun _ _ ↦ True) Eq Eq (service.store.query path) (table.store.query path) := by
  intro past past' _
  refine ⟨trivial, ?_⟩
  show EndAlike Eq Eq (fetch service path past.queries).2 (.ok (table.below path))
  rw [fetch_outcome h hpath]
  exact .refl _

/-- A service that serves a table looks paths up as the table does. -/
theorem Serves.lookup_related (h : service.Serves table) {path : String} (hpath : IsRooted path) :
    Related (fun _ _ ↦ True) Eq Eq (service.store.lookup path) (table.store.lookup path) :=
  Store.lookup_related_of_equal Trace.ignores_log_of_true (fun _ ↦ rfl) (h.query_related hpath)
    fun _ hparent ↦ h.query_related (hpath.parent hparent)

/-- A service that serves a table and the table itself give the same answer to every query of the
root or an absolute path, the same value or failure to every look-up of one, and the same tree or
failure for every tree whose placeholders stand for such paths. -/
theorem serves_agrees (h : service.Serves table) :
    (∀ path, IsRooted path →
        (service.store.query path).start.2 = .ok (table.below path) ∧
        (service.store.query path).start.2 = (table.store.query path).start.2 ∧
        (service.store.lookup path).start.2 = (table.store.lookup path).start.2) ∧
      ∀ (environment : Environment) (tree : Tree),
        (∀ entry ∈ tree.placeholders, ∀ path,
          (environment.expand entry.2.path).start.2 = .ok path → IsRooted path) →
        (tree.fill environment service.store).start.2 =
          (tree.fill environment table.store).start.2 := by
  refine ⟨fun path hpath ↦ ⟨fetch_outcome h hpath [], ?_, ?_⟩, fun environment tree hpaths ↦ ?_⟩
  · exact (h.query_related hpath [] [] trivial).2.eq
  · exact (h.lookup_related hpath [] [] trivial).2.eq
  · have hreplacement : ∀ entry ∈ tree.placeholders,
        Related (fun _ _ ↦ True) Eq Eq (entry.2.replacement environment service.store)
          (entry.2.replacement environment table.store) := by
      intro entry hentry
      refine entry.2.replacement_related_of_expand Trace.ignores_log_of_true (fun _ ↦ rfl)
        environment ?_ ?_
      · exact fun path hexpand ↦ h.lookup_related (hpaths entry hentry path hexpand)
      · rintro path value _ rfl
        exact .refl _
    have hequal (values others : List Tree) (hvalues : List.Forall₂ Eq values others) :
        values = others := by rwa [List.forall₂_eq_eq_eq] at hvalues
    have hfill := Tree.fill_related_of_placeholders Trace.ignores_log_of_true
      (fun _ _ _ hfailure ↦ hfailure ▸ rfl) environment tree hreplacement
      (fun values others hvalues ↦ congrArg tree.refilled (hequal values others hvalues))
      fun _ ↦ rfl
    exact (hfill [] [] trivial).2.eq

/-- A service that serves a table on three pages, of which the second is empty. -/
def ofTable (table : Table) : Service where
  parameter name :=
    match table.find? name with
    | some parameter => .found (.of parameter)
    | none => .unknown
  page path token :=
    let entries := (table.children path).map .of
    match token with
    | none => .page (entries.take 1) (some "second")
    | some "second" => .page [] (some "third")
    | some _ => .page (entries.drop 1) (some "")
  pageBound _ := 3
  pagesEnd _ := .inr (.inr (.inl rfl))

/-- The service made of a table serves it. -/
theorem serves_of_table (table : Table) : (ofTable table).Serves table where
  parameter _ := rfl
  pages path _ := by
    let entries := (table.children path).map Entry.of
    have hlast : Pages (ofTable table) path (some "third") [entries.drop 1] := .last rfl (.inr rfl)
    have hmore : Pages (ofTable table) path (some "second") [[], entries.drop 1] :=
      .more rfl (by decide) hlast
    have hall : [entries.take 1, [], entries.drop 1].flatten = entries := by
      simp only [List.flatten_cons, List.flatten_nil, List.nil_append, List.append_nil,
        List.take_append_drop]
    exact ⟨_, .more rfl (by decide) hmore, hall⟩

/-- Queries, look-ups and placeholders over several pages. -/
theorem serves_agrees_sample :
    (ofTable .sample).Serves .sample ∧ IsRooted "/app" ∧
      ((ofTable .sample).store.query "/app").start.2 = .ok [⟨"/app", "a"⟩, ⟨"/app/name", ""⟩] ∧
      ((ofTable .sample).store.lookup "/app").start.2 = .ok (.string "a") ∧
      ((Tree.string "aws-ssm://stage|-x").fill .empty (ofTable .sample).store).start.2 =
        .ok (.string "s-x") := by
  have hserves := serves_of_table .sample
  have happ : IsRooted "/app" := .inr ⟨_, rfl, by decide⟩
  obtain ⟨hpaths, htrees⟩ := serves_agrees hserves
  obtain ⟨hquery, _, hlookup⟩ := hpaths "/app" happ
  refine ⟨hserves, happ, hquery.trans rfl, hlookup.trans rfl, ?_⟩
  refine (htrees .empty (.string "aws-ssm://stage|-x") ?_).trans rfl
  intro entry hentry path hexpand
  have hplaceholders : (Tree.string "aws-ssm://stage|-x").placeholders =
      [([], ⟨"aws-ssm://stage|-x", false, "/stage", some "-x"⟩)] := by decide
  rw [hplaceholders, List.mem_singleton] at hentry
  subst hentry
  obtain rfl : "/stage" = path := Except.ok.inj hexpand
  exact .inr ⟨_, rfl, by decide⟩

end ConfigFill.Service
