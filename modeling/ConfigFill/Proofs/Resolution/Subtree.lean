import ConfigFill.Proofs.Resolution.Children

/-!
# A subtree and its leaves

Where a path stands for a mapping, the leaves of the mapping are the parameters below the path. If
no name has a dot, a leaf lies under one key or two: a key is the segment after the path, and all
that follows is the key below it. So a look-up of the subtree and one of each leaf agree. The main
statement is `lookup_subtree`.
-/

namespace ConfigFill.Parameter

open ConfigFill.Tree Parameter.Path

/-- A remainder without a slash or a dot is one key. -/
theorem leaf_keys_of_segment {key : String} (hslash : '/' ∉ key.toList) (hdot : '.' ∉ key.toList) :
    leafKeys key = [key] := by
  have hkept := Text.decide_ne_of_not_mem hslash
  have htake := List.takeWhile_eq_self_iff.2 hkept
  have hdrop := List.dropWhile_eq_nil_iff.2 hkept
  simp only [leafKeys, htake, hdrop, Text.segments_of_not_mem hdot]
  simp

/-- A remainder without a dot is cut at its first slash and nowhere else. -/
theorem leaf_keys_of_cut {key rest : String} (hslash : '/' ∉ key.toList)
    (hdot : '.' ∉ key.toList) (hrest : '.' ∉ rest.toList) :
    leafKeys (key ++ "/" ++ rest) = [key, rest] := by
  have htext : (key ++ "/" ++ rest).toList = key.toList ++ '/' :: rest.toList := by simp
  have htake := Text.take_while_ne_cut hslash rest.toList
  have hdrop := Text.drop_while_ne_cut hslash rest.toList
  simp only [leafKeys, htext, htake, hdrop, Text.segments_append, Text.segments_of_not_mem hdot,
    Text.segments_of_not_mem hrest]
  simp

namespace Path

/-- What follows a path and a slash is the remainder below the path. -/
theorem remainder_append (path rest : String) : remainder path (path ++ "/" ++ rest) = rest := by
  have htext : (path ++ "/" ++ rest).toList = path.toList ++ '/' :: rest.toList := by simp
  have hprefix : path.toList.isPrefixOf? (path.toList ++ '/' :: rest.toList) =
      some ('/' :: rest.toList) := List.isPrefixOf?_eq_some_iff_append_eq.2 rfl
  simp only [remainder, htext, hprefix, String.ofList_toList]

/-- A segment and a rest after a path are one remainder. -/
theorem append_cut (path key rest : String) :
    path ++ "/" ++ key ++ "/" ++ rest = path ++ "/" ++ (key ++ "/" ++ rest) := by
  simp [String.append_assoc]

/-- Strictly below an absolute path lies what follows it and a slash. -/
theorem IsAbsolute.is_below_append {path : String} (h : IsAbsolute path) (rest : String) :
    isBelow (path ++ "/" ++ rest) path = true :=
  is_below_iff.2 ⟨rest.toList, by simp [h.trimmed_eq]⟩

/-- A name below an absolute path goes on with one segment, or with a segment and a rest. -/
theorem IsAbsolute.exists_segment {name path : String} (h : IsAbsolute path)
    (hbelow : isBelow name path = true) :
    ∃ key, '/' ∉ key.toList ∧
      (name = path ++ "/" ++ key ∨ ∃ rest, name = path ++ "/" ++ key ++ "/" ++ rest) := by
  obtain ⟨after, hname⟩ := is_below_iff.1 hbelow
  rw [h.trimmed_eq] at hname
  by_cases hslash : '/' ∈ after
  · obtain ⟨key, rest, rfl, hkey⟩ := List.eq_append_cons_of_mem hslash
    refine ⟨String.ofList key, by simpa using hkey, .inr ⟨String.ofList rest, ?_⟩⟩
    simp [String.ext_iff, hname]
  · refine ⟨String.ofList after, by simpa using hslash, .inl ?_⟩
    simp [String.ext_iff, hname]

end Path

variable {path : String} {parameters : List Parameter} {parameter : Parameter}

/-- The path with keys after it, each behind a slash. -/
def extended (path : String) (keys : List String) : String :=
  keys.foldl (· ++ "/" ++ ·) path

/-- The keys of a parameter that is one segment below the path. -/
theorem segment_path_of_segment {key : String} (hname : parameter.name = path ++ "/" ++ key)
    (hslash : '/' ∉ key.toList) (hdot : '.' ∉ parameter.name.toList) :
    segmentPath path parameter = [key] := by
  rw [hname] at hdot
  rw [segmentPath, hname, remainder_append]
  exact leaf_keys_of_segment hslash (by simp_all)

/-- The keys of a parameter that is more than one segment below the path. -/
theorem segment_path_of_cut {key rest : String}
    (hname : parameter.name = path ++ "/" ++ key ++ "/" ++ rest) (hslash : '/' ∉ key.toList)
    (hdot : '.' ∉ parameter.name.toList) : segmentPath path parameter = [key, rest] := by
  rw [hname] at hdot
  rw [segmentPath, hname, append_cut, remainder_append]
  exact leaf_keys_of_cut hslash (by simp_all) (by simp_all)

/-- Nothing shadows a parameter of one key. -/
theorem not_shadowed_singleton {key : String} : ¬ Shadowed path [key] parameters := by
  rintro ⟨other, _, hbegins, hne⟩
  obtain ⟨name, rest, hkeys⟩ := List.exists_cons_of_ne_nil (leaf_keys_ne_nil _)
  rw [segmentPath, hkeys] at hbegins hne
  obtain ⟨rfl, hrest⟩ := List.cons_prefix_cons.1 hbegins
  exact hne (by rw [List.prefix_nil.1 hrest])

/-- What shadows a parameter of two keys has the first of them. -/
theorem exists_of_shadowed_pair {key rest : String} (h : Shadowed path [key, rest] parameters) :
    ∃ other ∈ parameters, segmentPath path other = [key] := by
  obtain ⟨other, hother, hbegins, hne⟩ := h
  obtain ⟨name, tail, hkeys⟩ := List.exists_cons_of_ne_nil (leaf_keys_ne_nil _)
  rw [segmentPath, hkeys] at hbegins hne
  obtain ⟨rfl, htail⟩ := List.cons_prefix_cons.1 hbegins
  refine ⟨other, hother, ?_⟩
  rw [segmentPath, hkeys]
  cases tail with
  | nil => rfl
  | cons second tail =>
      obtain ⟨rfl, hnil⟩ := List.cons_prefix_cons.1 htail
      exact absurd (by rw [List.prefix_nil.1 hnil]) hne

/-- A leaf of what is made of parameters is one of them. -/
theorem Assembled.exists_of_is_leaf {tree node : Tree} (h : Assembled path parameters tree)
    (hne : parameters ≠ []) {steps : Tree.Path} (hnode : tree.follow? steps = some node)
    (hleaf : node.IsLeaf) :
    ∃ parameter ∈ parameters, steps = (segmentPath path parameter).map .key ∧
      node = .string parameter.value := by
  obtain ⟨first, hfirst⟩ := List.exists_mem_of_ne_nil _ hne
  have hleafy := h.leafy_of_mem hfirst
  obtain ⟨keys, rfl⟩ := hleafy.exists_keys_of_follow hnode
  obtain ⟨value, rfl⟩ := (hleafy.follow hnode).eq_string hleaf
  have hvalue := (h.leaf_iff keys value).1 (leaf_eq_some_iff.2 hnode)
  obtain ⟨parameter, hmem, rfl, rfl⟩ := exists_of_last_value hvalue.1
  exact ⟨parameter, hmem, rfl, rfl⟩

namespace Table

variable {table : Table}

/-- No name of the table has a dot. -/
def HasDotlessNames (table : Table) : Prop :=
  ∀ parameter ∈ table.parameters, '.' ∉ parameter.name.toList

/-- A parameter below an absolute path has one key or two, and they give its name. -/
theorem segment_path_cases (hdots : table.HasDotlessNames) (hpath : IsAbsolute path)
    (hmem : parameter ∈ table.children path) :
    (∃ key, parameter.name = path ++ "/" ++ key ∧ segmentPath path parameter = [key]) ∨
      ∃ key rest, parameter.name = path ++ "/" ++ key ++ "/" ++ rest ∧
        segmentPath path parameter = [key, rest] := by
  obtain ⟨hmem, hbelow⟩ := mem_children.1 hmem
  have hdot := hdots parameter hmem
  obtain ⟨key, hslash, hname | ⟨rest, hname⟩⟩ := hpath.exists_segment hbelow
  · exact .inl ⟨key, hname, segment_path_of_segment hname hslash hdot⟩
  · exact .inr ⟨key, rest, hname, segment_path_of_cut hname hslash hdot⟩

/-- The name of a parameter below an absolute path is the path with the keys after it. -/
theorem name_eq_extended (hdots : table.HasDotlessNames) (hpath : IsAbsolute path)
    (hmem : parameter ∈ table.children path) :
    parameter.name = extended path (segmentPath path parameter) := by
  obtain ⟨key, hname, hkeys⟩ | ⟨key, rest, hname, hkeys⟩ := segment_path_cases hdots hpath hmem
  · rw [hkeys]
    exact hname
  · rw [hkeys]
    exact hname

/-- Of the parameters below an absolute path, no other has the keys of one. -/
theorem last_value_of_mem (hdots : table.HasDotlessNames) (hpath : IsAbsolute path)
    (hmem : parameter ∈ table.children path) :
    lastValue? path (segmentPath path parameter) (table.children path) = some parameter.value := by
  obtain ⟨value, hvalue⟩ := exists_last_value path hmem
  obtain ⟨other, hother, hkeys, rfl⟩ := exists_of_last_value hvalue
  -- The last parameter with these keys has the same name, so it is the same one.
  have hname : other.name = parameter.name := by
    rw [name_eq_extended hdots hpath hother, hkeys, ← name_eq_extended hdots hpath hmem]
  have hfind := find?_eq_some_iff.2 ⟨(mem_children.1 hmem).1, rfl⟩
  rw [find?_eq_some_iff.2 ⟨(mem_children.1 hother).1, hname⟩] at hfind
  rw [hvalue, Option.some.inj hfind]

/-- A parameter below an absolute path that nothing shadows is a leaf of what is made of them. -/
theorem at_keys_of_mem (hdots : table.HasDotlessNames) (hpath : IsAbsolute path) {tree : Tree}
    (h : Assembled path (table.children path) tree) (hmem : parameter ∈ table.children path)
    (hclear : ¬ Shadowed path (segmentPath path parameter) (table.children path)) :
    tree.atKeys? (segmentPath path parameter) = some (.string parameter.value) :=
  leaf_eq_some_iff.1 ((h.leaf_iff _ _).2 ⟨last_value_of_mem hdots hpath hmem, hclear⟩)

/-- The name of a parameter stands for its value. -/
theorem lookup_name (hnames : table.HasAbsoluteNames) (hmem : parameter ∈ table.parameters) :
    (table.store.lookup parameter.name).start.2 = .ok (.string parameter.value) := by
  have hlookup := lookup_store hnames (hnames parameter hmem) []
  rwa [find?_eq_some_iff.2 ⟨hmem, rfl⟩] at hlookup

/-- A path that stands for a mapping has parameters below it, and they amount to the mapping. -/
theorem assembled_of_lookup (hnames : table.HasAbsoluteNames) (hpath : IsAbsolute path)
    {entries : Entries Tree} (h : (table.store.lookup path).start.2 = .ok (.mapping entries)) :
    table.children path ≠ [] ∧ Assembled path (table.children path) (.mapping entries) := by
  rw [Effect.start, lookup_store hnames hpath []] at h
  cases hfind : table.find? path with
  | some parameter => simp [hfind] at h
  | none =>
      cases hchildren : table.children path with
      | nil => simp [hfind, hchildren] at h
      | cons first rest =>
          have hamounts := assembly_amounts path (table.children path) false
          simp only [Amounts, exact_ones_children hnames hpath, List.getLast?_nil] at hamounts
          rw [hchildren] at hamounts
          simp only [hfind, hchildren, Except.ok.injEq] at h
          exact ⟨List.cons_ne_nil first rest, h ▸ hamounts⟩

/-- A look-up of a subtree agrees with one of each leaf. If an absolute path stands for a mapping, a
leaf of it lies under one key or two, and is what the path with these after it stands for. A
parameter one segment below the path is a leaf under that segment, and any other is one under the
segment and what follows it, unless the segment alone is a parameter too. -/
theorem lookup_subtree (hnames : table.HasAbsoluteNames) (hdots : table.HasDotlessNames)
    (hpath : IsAbsolute path) {entries : Entries Tree}
    (hlookup : (table.store.lookup path).start.2 = .ok (.mapping entries)) :
    (∀ steps node, (Tree.mapping entries).follow? steps = some node → node.IsLeaf →
        (∃ key, steps = [.key key] ∧
          (table.store.lookup (path ++ "/" ++ key)).start.2 = .ok node) ∨
        ∃ key rest, steps = [.key key, .key rest] ∧
          (table.store.lookup (path ++ "/" ++ key ++ "/" ++ rest)).start.2 = .ok node) ∧
      (∀ key value, '/' ∉ key.toList → ⟨path ++ "/" ++ key, value⟩ ∈ table.parameters →
        (Tree.mapping entries).atKeys? [key] = some (.string value)) ∧
      ∀ key rest value, '/' ∉ key.toList →
        ⟨path ++ "/" ++ key ++ "/" ++ rest, value⟩ ∈ table.parameters →
        (∀ above, ⟨path ++ "/" ++ key, above⟩ ∉ table.parameters) →
        (Tree.mapping entries).atKeys? [key, rest] = some (.string value) := by
  obtain ⟨hne, hassembled⟩ := assembled_of_lookup hnames hpath hlookup
  refine ⟨fun steps node hnode hleaf ↦ ?_, fun key value hslash hmem ↦ ?_,
    fun key rest value hslash hmem hfree ↦ ?_⟩
  · obtain ⟨parameter, hmem, rfl, rfl⟩ := hassembled.exists_of_is_leaf hne hnode hleaf
    have hvalue := lookup_name hnames (mem_children.1 hmem).1
    obtain ⟨key, hname, hkeys⟩ | ⟨key, rest, hname, hkeys⟩ := segment_path_cases hdots hpath hmem
    · exact .inl ⟨key, by rw [hkeys]; rfl, hname ▸ hvalue⟩
    · exact .inr ⟨key, rest, by rw [hkeys]; rfl, hname ▸ hvalue⟩
  · have hkeys := segment_path_of_segment rfl hslash (hdots _ hmem)
    have hchild := mem_children.2 ⟨hmem, hpath.is_below_append key⟩
    have hclear : ¬ Shadowed path [key] (table.children path) := not_shadowed_singleton
    rw [← hkeys] at hclear ⊢
    exact at_keys_of_mem hdots hpath hassembled hchild hclear
  · have hkeys := segment_path_of_cut rfl hslash (hdots _ hmem)
    have hbelow := append_cut path key rest ▸ hpath.is_below_append (key ++ "/" ++ rest)
    have hchild := mem_children.2 ⟨hmem, hbelow⟩
    -- Only the segment alone could shadow the parameter, and it is none.
    have hclear : ¬ Shadowed path [key, rest] (table.children path) := by
      intro hshadowed
      obtain ⟨other, hother, hkey⟩ := exists_of_shadowed_pair hshadowed
      have hname : other.name = path ++ "/" ++ key := by
        rw [name_eq_extended hdots hpath hother, hkey]
        rfl
      exact hfree other.value (hname ▸ (mem_children.1 hother).1)
    rw [← hkeys] at hclear ⊢
    exact at_keys_of_mem hdots hpath hassembled hchild hclear

/-- A parameter one segment below a path, one that it shadows, and one behind two more segments. -/
def sampleSubtree : Table where
  parameters := [⟨"/app/cache/a/b", "c"⟩, ⟨"/app/db", "d"⟩, ⟨"/app/db/host", "h"⟩]
  ascending := by decide

/-- In the sample, the value of the longest name lies under two keys, and that of the shadowed one
has no place. -/
theorem lookup_subtree_sample :
    sampleSubtree.HasAbsoluteNames ∧ sampleSubtree.HasDotlessNames ∧ IsAbsolute "/app" ∧
      (sampleSubtree.store.lookup "/app").start.2 =
        .ok (.mapping [("cache", .mapping [("a/b", .string "c")]), ("db", .string "d")]) ∧
      (sampleSubtree.store.lookup ("/app" ++ "/" ++ "cache" ++ "/" ++ "a/b")).start.2 =
        .ok (.string "c") := by
  have happ : IsAbsolute "/app" := ⟨_, rfl, by decide⟩
  have hnames : sampleSubtree.HasAbsoluteNames := by
    intro parameter hmem
    simp only [sampleSubtree, List.mem_cons, List.not_mem_nil, or_false] at hmem
    rcases hmem with rfl | rfl | rfl
    · exact ⟨_, rfl, by decide⟩
    · exact ⟨_, rfl, by decide⟩
    · exact ⟨_, rfl, by decide⟩
  have hdots : sampleSubtree.HasDotlessNames := by
    intro parameter hmem
    simp only [sampleSubtree, List.mem_cons, List.not_mem_nil, or_false] at hmem
    rcases hmem with rfl | rfl | rfl <;> decide
  have hlookup : (sampleSubtree.store.lookup "/app").start.2 =
      .ok (.mapping [("cache", .mapping [("a/b", .string "c")]), ("db", .string "d")]) :=
    (lookup_store hnames happ []).trans rfl
  refine ⟨hnames, hdots, happ, hlookup, ?_⟩
  obtain ⟨hleaves, _, _⟩ := lookup_subtree hnames hdots happ hlookup
  obtain ⟨_, hsteps, _⟩ | ⟨key, rest, hsteps, hleaf⟩ :=
    hleaves [.key "cache", .key "a/b"] (.string "c") rfl (is_leaf_string "c")
  · cases hsteps
  · cases hsteps
    exact hleaf

end Table

end ConfigFill.Parameter
