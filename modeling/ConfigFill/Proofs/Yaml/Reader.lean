import ConfigFill.Proofs.Trace.Effect
import ConfigFill.Proofs.Tree.Shape
import ConfigFill.Yaml.Reader

/-!
# What is read from YAML

Whatever the text, the tree that is read from it has no key twice in a mapping, and its containers
nest no deeper than the reader allows, aliases followed (`fits_of_parse`). There are two steps to it:
the root node nests no deeper than that (`Document.nesting_of_read_node`), and a tree that is made of
a node nests no deeper than the node (`Node.fits_of_to_tree`). A node has a tree exactly if its keys
are texts (`Node.exists_to_tree_iff`).
-/

namespace ConfigFill.Yaml

namespace Node

mutual

/-- How deep containers nest in the node, in keys as in values. -/
def nesting : Node → Nat
  | sequence items => itemsNesting items + 1
  | mapping entries => entriesNesting entries + 1
  | _ => 0

/-- How deep containers nest in the items. -/
def itemsNesting : List Node → Nat
  | [] => 0
  | item :: rest => max (nesting item) (itemsNesting rest)

/-- How deep containers nest in the entries. -/
def entriesNesting : List (Node × Node) → Nat
  | [] => 0
  | (key, value) :: rest => max (max (nesting key) (nesting value)) (entriesNesting rest)

end

mutual

/-- Every key in the node is a text, at whatever depth its mapping is. -/
def KeysAreTexts : Node → Prop
  | sequence items => ItemKeysAreTexts items
  | mapping entries => EntryKeysAreTexts entries
  | _ => True

/-- Every key in the items is a text. -/
def ItemKeysAreTexts : List Node → Prop
  | [] => True
  | item :: rest => KeysAreTexts item ∧ ItemKeysAreTexts rest

/-- Every key of the entries and in their values is a text. -/
def EntryKeysAreTexts : List (Node × Node) → Prop
  | [] => True
  | (key, value) :: rest => key.text? ≠ none ∧ KeysAreTexts value ∧ EntryKeysAreTexts rest

end

/-! ## From nodes to trees -/

/-- The trees of items are those of the first and of the others. -/
theorem item_trees_cons_eq_some_iff {item : Node} {rest : List Node} {trees : List Tree} :
    itemTrees? (item :: rest) = some trees ↔
      ∃ tree others, item.toTree? = some tree ∧ itemTrees? rest = some others ∧
        trees = tree :: others := by
  rw [itemTrees?]
  cases item.toTree? <;> cases itemTrees? rest <;> simp [eq_comm]

/-- The trees of entries are those of the first, under its key, and of the others. -/
theorem entry_trees_cons_eq_some_iff {key value : Node} {rest : List (Node × Node)}
    {pairs : List (String × Tree)} :
    entryTrees? ((key, value) :: rest) = some pairs ↔
      ∃ name tree others, key.text? = some name ∧ value.toTree? = some tree ∧
        entryTrees? rest = some others ∧ pairs = (name, tree) :: others := by
  rw [entryTrees?]
  cases key.text? <;> cases value.toTree? <;> cases entryTrees? rest <;> simp [eq_comm]

mutual

/-- The tree of a node has no key twice in a mapping and nests no deeper than the node. -/
theorem fits_of_to_tree {node : Node} {tree : Tree} (h : node.toTree? = some tree) :
    tree.Fits node.nesting := by
  cases node with
  | sequence items =>
      rw [toTree?, Option.map_eq_some_iff] at h
      obtain ⟨trees, htrees, rfl⟩ := h
      exact Tree.fits_sequence (fits_of_item_trees htrees)
  | mapping entries =>
      rw [toTree?, Option.map_eq_some_iff] at h
      obtain ⟨pairs, hpairs, rfl⟩ := h
      exact Tree.fits_of_pairs (fits_of_entry_trees hpairs)
  | int value =>
      cases h
      refine Tree.IsScalar.fits ?_ 0
      split <;> exact ⟨rfl, rfl⟩
  | null | bool _ | float _ | text _ =>
      cases h
      exact Tree.IsScalar.fits ⟨rfl, rfl⟩ 0

/-- The trees of items nest no deeper than the items. -/
theorem fits_of_item_trees {items : List Node} {trees : List Tree}
    (h : itemTrees? items = some trees) : ∀ tree ∈ trees, tree.Fits (itemsNesting items) := by
  cases items with
  | nil =>
      cases h
      exact fun _ hmem ↦ absurd hmem List.not_mem_nil
  | cons item rest =>
      obtain ⟨tree, others, htree, hothers, rfl⟩ := item_trees_cons_eq_some_iff.1 h
      refine List.forall_mem_cons.2 ⟨(fits_of_to_tree htree).mono (Nat.le_max_left _ _), ?_⟩
      exact fun other hmem ↦ (fits_of_item_trees hothers other hmem).mono (Nat.le_max_right _ _)

/-- The trees of entries nest no deeper than the entries. -/
theorem fits_of_entry_trees {entries : List (Node × Node)} {pairs : List (String × Tree)}
    (h : entryTrees? entries = some pairs) :
    ∀ pair ∈ pairs, pair.2.Fits (entriesNesting entries) := by
  cases entries with
  | nil =>
      cases h
      exact fun _ hmem ↦ absurd hmem List.not_mem_nil
  | cons entry rest =>
      obtain ⟨key, value⟩ := entry
      obtain ⟨name, tree, others, hname, htree, hothers, rfl⟩ := entry_trees_cons_eq_some_iff.1 h
      have hvalue : value.nesting ≤ entriesNesting ((key, value) :: rest) :=
        Nat.le_trans (Nat.le_max_right _ _) (Nat.le_max_left _ _)
      refine List.forall_mem_cons.2 ⟨(fits_of_to_tree htree).mono hvalue, ?_⟩
      exact fun other hmem ↦ (fits_of_entry_trees hothers other hmem).mono (Nat.le_max_right _ _)

end

mutual

/-- A node has a tree exactly if its keys are texts. -/
theorem exists_to_tree_iff (node : Node) :
    (∃ tree, node.toTree? = some tree) ↔ node.KeysAreTexts := by
  cases node with
  | sequence items =>
      rw [KeysAreTexts, ← exists_item_trees_iff]
      simp [toTree?]
  | mapping entries =>
      rw [KeysAreTexts, ← exists_entry_trees_iff]
      simp [toTree?]
  | null | bool _ | int _ | float _ | text _ => exact ⟨fun _ ↦ trivial, fun _ ↦ ⟨_, rfl⟩⟩

/-- Items have trees exactly if their keys are texts. -/
theorem exists_item_trees_iff (items : List Node) :
    (∃ trees, itemTrees? items = some trees) ↔ ItemKeysAreTexts items := by
  cases items with
  | nil => exact ⟨fun _ ↦ trivial, fun _ ↦ ⟨[], rfl⟩⟩
  | cons item rest =>
      rw [ItemKeysAreTexts, ← exists_to_tree_iff, ← exists_item_trees_iff]
      simp only [item_trees_cons_eq_some_iff]
      grind

/-- Entries have trees exactly if their keys are texts. -/
theorem exists_entry_trees_iff (entries : List (Node × Node)) :
    (∃ pairs, entryTrees? entries = some pairs) ↔ EntryKeysAreTexts entries := by
  cases entries with
  | nil => exact ⟨fun _ ↦ trivial, fun _ ↦ ⟨[], rfl⟩⟩
  | cons entry rest =>
      obtain ⟨key, value⟩ := entry
      rw [EntryKeysAreTexts, ← exists_to_tree_iff, ← exists_entry_trees_iff,
        Option.ne_none_iff_exists']
      simp only [entry_trees_cons_eq_some_iff]
      grind

end

end Node

namespace Document

open Node (itemsNesting entriesNesting)

variable {document : Document} {fuel depth index : Nat} {location : Location} {place next : Place}

/-- A plain scalar is no container. -/
theorem nesting_of_plain_node {text : String} {mark : Mark} {node : Node}
    (h : plainNode text location mark = .ok node) : node.nesting = 0 := by
  unfold plainNode at h
  split at h <;> cases h <;> rfl

/-- A scalar is no container, whatever its tag says. -/
theorem nesting_of_scalar_node {tag : Option (List UInt8)} {text : String} {plain : Bool}
    {mark : Mark} {node : Node} (h : scalarNode tag text plain location mark = .ok node) :
    node.nesting = 0 := by
  have huntagged (h : (if plain then plainNode text location mark else .ok (.text text)) =
      .ok node) : node.nesting = 0 := by
    split at h
    · exact nesting_of_plain_node h
    · cases h
      rfl
  unfold scalarNode intNode at h
  dsimp only at h
  split at h
  · exact huntagged h
  · exact huntagged h
  · cases h
    rfl
  · cases h
  · split at h <;> cases h
    rfl
  · split at h
    · cases h
    · split at h <;> cases h
      rfl
  · split at h <;> cases h
    rfl
  · split at h <;> cases h
    rfl

/-- What a node that is read is: a scalar, a container of what is read one level below it, or what an
alias stands for, which is read at the same level. -/
theorem read_node_cases {node : Node}
    (h : readNode document (fuel + 1) depth location place = .ok (node, next)) :
    node.nesting = 0 ∨
      (∃ below, depth = below + 1 ∧
        ((∃ items inner, readItems document fuel below location 0 inner = .ok (items, next) ∧
            node = .sequence items) ∨
          ∃ entries inner, readEntries document fuel below location inner = .ok (entries, next) ∧
            node = .mapping entries)) ∨
      ∃ inner after, readNode document fuel depth (.aliased location) inner = .ok (node, after) := by
  unfold readNode at h
  obtain ⟨event, _, h⟩ := Except.bind_eq_ok_iff.1 h
  dsimp only at h
  split at h
  · obtain ⟨scalar, hscalar, h⟩ := Except.bind_eq_ok_iff.1 h
    cases h
    exact .inl (nesting_of_scalar_node hscalar)
  · split at h
    · cases h
    · split at h
      · cases h
      · obtain ⟨⟨items, after⟩, hitems, h⟩ := Except.bind_eq_ok_iff.1 h
        cases h
        exact .inr (.inl ⟨_, rfl, .inl ⟨items, _, hitems, rfl⟩⟩)
  · split at h
    · cases h
    · split at h
      · cases h
      · obtain ⟨⟨entries, after⟩, hentries, h⟩ := Except.bind_eq_ok_iff.1 h
        cases h
        exact .inr (.inl ⟨_, rfl, .inr ⟨entries, _, hentries, rfl⟩⟩)
  · split at h
    · cases h
    · obtain ⟨⟨target, after⟩, htarget, h⟩ := Except.bind_eq_ok_iff.1 h
      cases h
      exact .inr (.inr ⟨_, after, htarget⟩)
  · cases h

/-- Items that are read are none, or one and then others. -/
theorem read_items_cases {items : List Node}
    (h : readItems document (fuel + 1) depth location index place = .ok (items, next)) :
    items = [] ∨
      ∃ item others inner after, readNode document fuel depth (.item location index) inner =
          .ok (item, after) ∧
        readItems document fuel depth location (index + 1) after = .ok (others, next) ∧
        items = item :: others := by
  unfold readItems at h
  obtain ⟨event, _, h⟩ := Except.bind_eq_ok_iff.1 h
  dsimp only at h
  split at h
  · cases h
    exact .inl rfl
  · obtain ⟨⟨item, after⟩, hitem, h⟩ := Except.bind_eq_ok_iff.1 h
    obtain ⟨⟨others, last⟩, hothers, h⟩ := Except.bind_eq_ok_iff.1 h
    cases h
    exact .inr ⟨item, others, _, after, hitem, hothers, rfl⟩

/-- Entries that are read are none, or one and then others. -/
theorem read_entries_cases {entries : List (Node × Node)}
    (h : readEntries document (fuel + 1) depth location place = .ok (entries, next)) :
    entries = [] ∨
      ∃ key value others inner between within after,
        readNode document fuel depth location inner = .ok (key, between) ∧
        readNode document fuel depth within between = .ok (value, after) ∧
        readEntries document fuel depth location after = .ok (others, next) ∧
        entries = (key, value) :: others := by
  unfold readEntries at h
  obtain ⟨event, _, h⟩ := Except.bind_eq_ok_iff.1 h
  dsimp only at h
  split at h
  · cases h
    exact .inl rfl
  · obtain ⟨⟨key, between⟩, hkey, h⟩ := Except.bind_eq_ok_iff.1 h
    obtain ⟨⟨value, after⟩, hvalue, h⟩ := Except.bind_eq_ok_iff.1 h
    obtain ⟨⟨others, last⟩, hothers, h⟩ := Except.bind_eq_ok_iff.1 h
    cases h
    exact .inr ⟨key, value, others, _, between, _, after, hkey, hvalue, hothers, rfl⟩

mutual

/-- A node that is read nests no deeper than it is read with. -/
theorem nesting_of_read_node {fuel depth : Nat} {location : Location} {place next : Place}
    {node : Node} (h : readNode document fuel depth location place = .ok (node, next)) :
    node.nesting ≤ depth := by
  cases fuel with
  | zero =>
      rw [readNode] at h
      cases h
  | succ fuel =>
      obtain hscalar | ⟨below, rfl, hbelow⟩ | ⟨inner, after, htarget⟩ := read_node_cases h
      · exact hscalar ▸ Nat.zero_le depth
      · obtain ⟨items, inner, hitems, rfl⟩ | ⟨entries, inner, hentries, rfl⟩ := hbelow
        · exact Nat.succ_le_succ (nesting_of_read_items hitems)
        · exact Nat.succ_le_succ (nesting_of_read_entries hentries)
      · exact nesting_of_read_node htarget

/-- Items that are read nest no deeper than they are read with. -/
theorem nesting_of_read_items {fuel depth index : Nat} {location : Location} {place next : Place}
    {items : List Node}
    (h : readItems document fuel depth location index place = .ok (items, next)) :
    itemsNesting items ≤ depth := by
  cases fuel with
  | zero =>
      rw [readItems] at h
      cases h
  | succ fuel =>
      obtain rfl | ⟨item, others, inner, after, hitem, hothers, rfl⟩ := read_items_cases h
      · exact Nat.zero_le depth
      · exact Nat.max_le.2 ⟨nesting_of_read_node hitem, nesting_of_read_items hothers⟩

/-- Entries that are read nest no deeper than they are read with. -/
theorem nesting_of_read_entries {fuel depth : Nat} {location : Location} {place next : Place}
    {entries : List (Node × Node)}
    (h : readEntries document fuel depth location place = .ok (entries, next)) :
    entriesNesting entries ≤ depth := by
  cases fuel with
  | zero =>
      rw [readEntries] at h
      cases h
  | succ fuel =>
      obtain rfl | ⟨key, value, others, inner, between, within, after, hkey, hvalue, hothers, rfl⟩ :=
        read_entries_cases h
      · exact Nat.zero_le depth
      · exact Nat.max_le.2 ⟨Nat.max_le.2 ⟨nesting_of_read_node hkey, nesting_of_read_node hvalue⟩,
          nesting_of_read_entries hothers⟩

end

/-- The root node nests no deeper than the reader allows. -/
theorem nesting_of_root {node : Node} (h : document.root = .ok node) :
    node.nesting ≤ depthLimit := by
  rw [root] at h
  obtain ⟨⟨root, after⟩, hroot, h⟩ := Except.bind_eq_ok_iff.1 h
  dsimp only at h
  split at h
  · cases h
  · cases h
    exact nesting_of_read_node hroot

end Document

/-- The only node of a text nests no deeper than the reader allows. -/
theorem nesting_of_read_node {text : List Char} {node : Node} (h : readNode text = .ok node) :
    node.nesting ≤ Document.depthLimit := by
  unfold readNode at h
  dsimp only at h
  split at h
  · cases h
    exact Nat.zero_le _
  · obtain ⟨root, hroot, h⟩ := Except.bind_eq_ok_iff.1 h
    split at h
    · cases h
      exact Document.nesting_of_root hroot
    · cases h

/-- A tree that is read from YAML has no key twice in a mapping and nests at most 128 deep. -/
theorem fits_of_parse {text : String} {tree : Tree} (h : parse text = .ok tree) :
    tree.Fits Document.depthLimit := by
  rw [parse, Except.map_error_eq_ok_iff, readTree, Except.bind_eq_ok_iff] at h
  obtain ⟨node, hnode, h⟩ := h
  split at h
  · rename_i htree
    cases h
    exact (Node.fits_of_to_tree htree).mono (nesting_of_read_node hnode)
  · cases h

end ConfigFill.Yaml
