import ConfigFill.Proofs.Resolution.Table

/-!
# A store that never lists the path itself

Some stores list what is strictly below a path, but never the parameter of the path itself. Looking
up a path in such a store gives what a table with the same parameters gives, because the parent is
asked where nothing is below the path. It does so but in two cases: a path that is a parameter and
has others below it stands for those alone, and an empty value counts as missing. The main statement
is `lookup_children`.
-/

namespace ConfigFill.Parameter

open Parameter.Path

namespace Path

variable {name path parent : String}

/-- An absolute name leaves no remainder below itself alone. -/
theorem IsAbsolute.remainder_eq_empty_iff (h : IsAbsolute name) :
    remainder path name = "" ↔ name = path := by
  rw [Path.remainder_eq_empty_iff]
  refine ⟨?_, .inl⟩
  rintro (heq | rfl | rfl)
  · exact heq
  · exact absurd (by simp) h.get_last?_ne
  · exact absurd rfl h.ne_empty

/-- An absolute path has a parent. -/
theorem IsAbsolute.exists_parent (h : IsAbsolute path) :
    ∃ parent, Store.parentOf? path = some parent := by
  rw [← Option.ne_none_iff_exists', ne_eq, Store.parent_of_eq_none_iff]
  rintro (hslash | hlast)
  · obtain ⟨rest, hrest, _⟩ := h
    exact hslash (hrest ▸ List.mem_cons_self)
  · exact h.get_last?_ne hlast

/-- An absolute path lies strictly below its parent. -/
theorem IsAbsolute.is_below_parent (h : IsAbsolute path)
    (hparent : Store.parentOf? path = some parent) : isBelow path parent = true := by
  obtain ⟨before, segment, hpath, _, _, rfl⟩ := Store.parent_of_eq_some_iff.1 hparent
  refine is_below_iff.2 ⟨segment, ?_⟩
  rcases (h.cut hpath).2 with rfl | hbefore
  · exact hpath
  · have hne : before ≠ [] := by
      rintro rfl
      exact hbefore.ne_empty rfl
    rw [if_neg hne, hbefore.trimmed_eq, String.toList_ofList, hpath]

end Path

namespace Table

/-- The store that lists the parameters strictly below a path. -/
def childrenStore (table : Table) : Store :=
  .ofFunction "children" fun path ↦ .ok (table.children path)

/-- Every name of the table is an absolute path. -/
def HasAbsoluteNames (table : Table) : Prop :=
  ∀ parameter ∈ table.parameters, IsAbsolute parameter.name

variable {table : Table} {path : String}

/-- Of some parameters of the table, that of the path among them if it has one, just this leaves no
remainder. -/
theorem get_last?_exact_ones (hnames : table.HasAbsoluteNames) {listed : List Parameter}
    (hlisted : ∀ parameter ∈ listed, parameter ∈ table.parameters)
    (hpath : ∀ parameter ∈ table.parameters, parameter.name = path → parameter ∈ listed) :
    (exactOnes path listed).getLast? = table.find? path := by
  have hexact (parameter : Parameter) :
      parameter ∈ exactOnes path listed ↔ table.find? path = some parameter := by
    rw [find?_eq_some_iff, exactOnes, List.mem_filter, String.isEmpty_iff]
    constructor
    · rintro ⟨hmem, hempty⟩
      have hmem := hlisted parameter hmem
      exact ⟨hmem, (hnames parameter hmem).remainder_eq_empty_iff.1 hempty⟩
    · rintro ⟨hmem, hname⟩
      exact ⟨hpath parameter hmem hname, (hnames parameter hmem).remainder_eq_empty_iff.2 hname⟩
  cases hlast : (exactOnes path listed).getLast? with
  | some parameter => exact ((hexact parameter).1 (List.mem_of_getLast? hlast)).symm
  | none =>
      have hnil := List.getLast?_eq_none_iff.1 hlast
      rw [eq_comm, Option.eq_none_iff_forall_ne_some]
      intro parameter hfind
      exact List.not_mem_nil (hnil ▸ (hexact parameter).2 hfind)

/-- No child of an absolute path is without a remainder below it. -/
theorem exact_ones_children (hnames : table.HasAbsoluteNames) (hpath : IsAbsolute path) :
    exactOnes path (table.children path) = [] := by
  rw [exactOnes, List.filter_eq_nil_iff]
  intro parameter hmem hempty
  obtain ⟨hmem, hbelow⟩ := mem_children.1 hmem
  rw [String.isEmpty_iff, (hnames parameter hmem).remainder_eq_empty_iff] at hempty
  exact Std.ne_of_lt (lt_of_is_below hpath hbelow) hempty.symm

/-- What a table makes of an absolute path: the value of its parameter, else what is below it. -/
theorem lookup_store (hnames : table.HasAbsoluteNames) (hpath : IsAbsolute path)
    (earlier : List String) :
    (table.store.lookup path earlier).2 =
      match table.find? path, table.children path with
      | some parameter, _ => .ok (.string parameter.value)
      | none, [] => .error (.of (.unresolvedPath path))
      | none, found => .ok (Assembly.of path found false).tree := by
  have hbelow := table.below_eq hpath
  cases hfind : table.find? path with
  | some parameter =>
      have hexact : (exactOnes path (table.below path)).getLast? = some parameter := by
        rw [← hfind]
        refine get_last?_exact_ones hnames (fun other hmem ↦ (List.mem_filter.1 hmem).1) ?_
        intro other hmem hname
        rw [hbelow, find?_eq_some_iff.2 ⟨hmem, hname⟩]
        exact List.mem_cons_self
      rw [lookup_within (by simp [hbelow, hfind]), Assembly.tree_of_exact hexact]
  | none =>
      rw [hfind] at hbelow
      cases hchildren : table.children path with
      | nil =>
          rw [hchildren] at hbelow
          have hslash : '/' ∈ path.toList := by
            obtain ⟨rest, hrest, _⟩ := hpath
            exact hrest ▸ List.mem_cons_self
          exact lookup_absent hbelow hslash hpath.get_last?_ne earlier
      | cons first rest =>
          rw [hchildren] at hbelow
          rw [lookup_within (by simp [hbelow]), hbelow]
          rfl

/-- What the store of what is strictly below makes of an absolute path: what is below it, else the
value of its parameter, unless that is empty. -/
theorem lookup_children_store (hnames : table.HasAbsoluteNames) (hpath : IsAbsolute path)
    (earlier : List String) :
    (table.childrenStore.lookup path earlier).2 =
      match table.children path, table.find? path with
      | [], none => .error (.of (.unresolvedPath path))
      | [], some parameter =>
          if parameter.value = "" then .error (.of (.unresolvedPath path))
          else .ok (.string parameter.value)
      | found, _ => .ok (Assembly.of path found false).tree := by
  cases hchildren : table.children path with
  | nil =>
      have hanswer : (table.childrenStore.answer earlier path).result = .ok [] :=
        congrArg Except.ok hchildren
      obtain ⟨parent, hparent⟩ := hpath.exists_parent
      have hexact : (exactOnes path (table.children parent)).getLast? = table.find? path := by
        refine get_last?_exact_ones hnames (fun other hmem ↦ (mem_children.1 hmem).1) ?_
        rintro other hmem rfl
        exact mem_children.2 ⟨hmem, hpath.is_below_parent hparent⟩
      rw [Store.lookup_probed hanswer hparent, Store.lookup_through_found rfl]
      cases hfind : table.find? path with
      | some parameter =>
          rw [hfind] at hexact
          simp only [Assembly.tree_of_exact hexact, Tree.isVacant, String.isEmpty_iff]
      | none =>
          rw [hfind, List.getLast?_eq_none_iff] at hexact
          simp only [Assembly.tree_of_no_exact hexact]
          rfl
  | cons first rest =>
      have hanswer : (table.childrenStore.answer earlier path).result = .ok (first :: rest) :=
        congrArg Except.ok hchildren
      rw [Store.lookup_found hanswer (by simp)]

/-- A store that lists what is strictly below a path makes of an absolute path what the table makes
of it, but in two cases. A parameter with others below it stands for the mapping of those and not for
its own value, and an empty value is not found. -/
theorem lookup_children (hnames : table.HasAbsoluteNames) (hpath : IsAbsolute path) :
    (∀ value, ⟨path, value⟩ ∈ table.parameters → table.children path ≠ [] →
        (table.store.lookup path).start.2 = .ok (.string value) ∧
        (table.childrenStore.lookup path).start.2 =
          .ok (Assembly.of path (table.children path) false).tree ∧
        ∃ entries, (Assembly.of path (table.children path) false).tree = .mapping entries) ∧
      (⟨path, ""⟩ ∈ table.parameters → table.children path = [] →
        (table.store.lookup path).start.2 = .ok (.string "") ∧
        (table.childrenStore.lookup path).start.2 = .error (.of (.unresolvedPath path))) ∧
      ((table.childrenStore.lookup path).start.2 = (table.store.lookup path).start.2 ↔
        ¬ ((∃ value, ⟨path, value⟩ ∈ table.parameters) ∧ table.children path ≠ []) ∧
          ¬ (⟨path, ""⟩ ∈ table.parameters ∧ table.children path = [])) := by
  have hmem (value : String) :
      ⟨path, value⟩ ∈ table.parameters ↔ table.find? path = some ⟨path, value⟩ := by
    simp [find?_eq_some_iff]
  have hstore := lookup_store hnames hpath []
  have hchildrenStore := lookup_children_store hnames hpath []
  obtain ⟨entries, hentries⟩ :=
    Assembly.exists_mapping_of_no_exact (exact_ones_children hnames hpath)
  simp only [Effect.start, hstore, hchildrenStore, hmem, hentries]
  cases hfind : table.find? path with
  | none => cases table.children path <;> simp
  | some parameter =>
      obtain ⟨name, value⟩ := parameter
      obtain ⟨_, rfl⟩ := find?_eq_some_iff.1 hfind
      cases hchildren : table.children name with
      | nil => by_cases hvalue : value = "" <;> simp [hvalue]
      | cons first rest =>
          rw [hchildren] at hentries
          simp [hentries]

/-- Of the sample, the two stores agree on one path only. -/
theorem lookup_children_sample :
    sample.HasAbsoluteNames ∧
      ((sample.store.lookup "/app").start.2 = .ok (.string "a") ∧
        (sample.childrenStore.lookup "/app").start.2 = .ok (.mapping [("name", .string "")])) ∧
      ((sample.store.lookup "/app/name").start.2 = .ok (.string "") ∧
        (sample.childrenStore.lookup "/app/name").start.2 =
          .error (.of (.unresolvedPath "/app/name"))) ∧
      (sample.childrenStore.lookup "/stage").start.2 = (sample.store.lookup "/stage").start.2 := by
  have happ : IsAbsolute "/app" := ⟨_, rfl, by decide⟩
  have hname : IsAbsolute "/app/name" := ⟨_, rfl, by decide⟩
  have hstage : IsAbsolute "/stage" := ⟨_, rfl, by decide⟩
  have hnames : sample.HasAbsoluteNames := by
    intro parameter hmem
    simp only [sample, List.mem_cons, List.not_mem_nil, or_false] at hmem
    rcases hmem with rfl | rfl | rfl
    · exact happ
    · exact hname
    · exact hstage
  obtain ⟨hbranch, _, _⟩ := lookup_children hnames happ
  obtain ⟨_, hempty, _⟩ := lookup_children hnames hname
  obtain ⟨_, _, hagree⟩ := lookup_children hnames hstage
  obtain ⟨hstore, hchildren, _⟩ := hbranch "a" (by decide) (by decide)
  refine ⟨hnames, ⟨hstore, hchildren.trans rfl⟩, hempty (by decide) (by decide), hagree.2 ⟨?_, ?_⟩⟩
  · rintro ⟨_, hne⟩
    exact hne (by decide)
  · rintro ⟨hmem, _⟩
    revert hmem
    decide

end Table

end ConfigFill.Parameter
