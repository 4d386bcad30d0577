import ConfigFill.Tree.Path

/-!
# Trees of texts

What a tree holds under a list of keys, and the trees that hold nothing but texts: a `Leafy` node is
a text or a mapping of leafy nodes that is not empty. Below a leafy node there is always a leaf
(`Leafy.exists_leaf`), so the leaves of such a tree say which keys its mappings have.
-/

namespace ConfigFill.Tree

/-- The node under keys. -/
def atKeys? (tree : Tree) (keys : List String) : Option Tree :=
  tree.follow? (keys.map .key)

/-- The text of the string leaf under keys. -/
def leaf? (tree : Tree) (keys : List String) : Option String :=
  (tree.atKeys? keys).bind string?

/-- Under no keys there is the tree itself. -/
@[simp]
theorem at_keys_nil (tree : Tree) : tree.atKeys? [] = some tree :=
  rfl

/-- Under a key and more keys there is what the value under the key has under those. -/
theorem at_keys_cons (tree : Tree) (key : String) (rest : List String) :
    tree.atKeys? (key :: rest) = (tree.child? key).bind (·.atKeys? rest) :=
  rfl

/-- The leaf under no keys is the text that the tree itself is. -/
@[simp]
theorem leaf_nil (tree : Tree) : tree.leaf? [] = tree.string? :=
  rfl

/-- The leaf under a key and more keys is the one that the value under the key has under those. -/
theorem leaf_cons (tree : Tree) (key : String) (rest : List String) :
    tree.leaf? (key :: rest) = (tree.child? key).bind (·.leaf? rest) := by
  rw [leaf?, at_keys_cons, Option.bind_assoc]
  rfl

/-- A mapping has under a key and more keys what the value under the key has under those. -/
theorem leaf_mapping_cons (entries : Entries Tree) (key : String) (rest : List String) :
    (mapping entries).leaf? (key :: rest) = (Entries.get? key entries).bind (·.leaf? rest) :=
  leaf_cons _ _ _

/-- A tree has a text exactly if it is that text. -/
theorem string?_eq_some_iff {tree : Tree} {value : String} :
    tree.string? = some value ↔ tree = string value := by
  cases tree <;> simp [string?]

/-- A tree has entries exactly if it is the mapping of them. -/
theorem entries?_eq_some_iff {tree : Tree} {entries : Entries Tree} :
    tree.entries? = some entries ↔ tree = mapping entries := by
  cases tree <;> simp [entries?]

/-- Only a mapping has values under keys. -/
theorem exists_entries_of_child {tree value : Tree} {key : String}
    (h : tree.child? key = some value) :
    ∃ entries, tree = mapping entries ∧ Entries.get? key entries = some value := by
  cases tree with
  | mapping entries => exact ⟨entries, rfl, h⟩
  | null | bool _ | int _ | float _ | string _ | sequence _ => cases h

/-- A leaf under keys is a text under them. -/
theorem leaf_eq_some_iff {tree : Tree} {keys : List String} {value : String} :
    tree.leaf? keys = some value ↔ tree.atKeys? keys = some (string value) := by
  simp only [leaf?, Option.bind_eq_some_iff, string?_eq_some_iff]
  exact ⟨fun ⟨_, hnode, heq⟩ ↦ heq ▸ hnode, fun h ↦ ⟨_, h, rfl⟩⟩

/-- An empty mapping has no leaves. -/
@[simp]
theorem leaf_mapping_empty (keys : List String) : (mapping []).leaf? keys = none := by
  cases keys with
  | nil => rfl
  | cons key rest => rfl

/-- A text, or a mapping of such nodes that is not empty and has no key twice. -/
inductive Leafy : Tree → Prop where
  | string (value : String) : Leafy (string value)
  | mapping {entries : Entries Tree} (nonempty : entries ≠ []) (distinct : Entries.Distinct entries)
      (values : ∀ entry ∈ entries, Leafy entry.2) : Leafy (mapping entries)

/-- At or below a leafy node there is a leaf. -/
theorem Leafy.exists_leaf {tree : Tree} (h : Leafy tree) :
    ∃ keys value, tree.leaf? keys = some value := by
  induction h with
  | string value => exact ⟨[], value, rfl⟩
  | @mapping entries nonempty distinct _ ih =>
      obtain ⟨⟨key, child⟩, rest, rfl⟩ := List.exists_cons_of_ne_nil nonempty
      obtain ⟨keys, value, hleaf⟩ := ih (key, child) List.mem_cons_self
      refine ⟨key :: keys, value, ?_⟩
      rw [leaf_mapping_cons, distinct.get?_of_mem List.mem_cons_self]
      exact hleaf

/-- The value under a key of a leafy mapping is leafy. -/
theorem Leafy.child {entries : Entries Tree} (h : Leafy (Tree.mapping entries)) {key : String}
    {value : Tree} (hvalue : Entries.get? key entries = some value) : Leafy value := by
  cases h with
  | mapping _ _ values => exact values _ (Entries.mem_of_get? hvalue)

/-- A step down a leafy tree is one by a key, and leads to a leafy tree. -/
theorem Leafy.step {tree child : Tree} (h : Leafy tree) {step : Step}
    (hchild : tree.step? step = some child) : (∃ name, step = .key name) ∧ Leafy child := by
  cases h with
  | string value => cases step <;> cases hchild
  | mapping nonempty distinct values =>
      cases step with
      | position index => cases hchild
      | key name => exact ⟨⟨name, rfl⟩, (mapping nonempty distinct values).child hchild⟩

/-- Every node of a leafy tree is leafy. -/
theorem Leafy.follow {tree node : Tree} (h : Leafy tree) {steps : Path}
    (hnode : tree.follow? steps = some node) : Leafy node := by
  induction steps generalizing tree with
  | nil =>
      cases hnode
      exact h
  | cons step rest ih =>
      obtain ⟨child, hchild, hnode⟩ := Option.bind_eq_some_iff.1 hnode
      exact ih (h.step hchild).2 hnode

/-- Only keys lead anywhere in a leafy tree. -/
theorem Leafy.exists_keys_of_follow {tree node : Tree} (h : Leafy tree) {steps : Path}
    (hnode : tree.follow? steps = some node) : ∃ keys : List String, steps = keys.map .key := by
  induction steps generalizing tree with
  | nil => exact ⟨[], rfl⟩
  | cons step rest ih =>
      obtain ⟨child, hchild, hrest⟩ := Option.bind_eq_some_iff.1 hnode
      obtain ⟨⟨name, rfl⟩, hleafy⟩ := h.step hchild
      obtain ⟨keys, rfl⟩ := ih hleafy hrest
      exact ⟨name :: keys, rfl⟩

/-- Nothing lies below the node. -/
def IsLeaf (tree : Tree) : Prop :=
  ∀ step, tree.step? step = none

/-- Nothing lies below a text. -/
theorem is_leaf_string (value : String) : (string value).IsLeaf := by
  intro step
  cases step <;> rfl

/-- The leaves of a leafy tree are texts. -/
theorem Leafy.eq_string {tree : Tree} (h : Leafy tree) (hleaf : tree.IsLeaf) :
    ∃ value, tree = Tree.string value := by
  cases h with
  | string value => exact ⟨value, rfl⟩
  | mapping nonempty =>
      obtain ⟨⟨key, child⟩, rest, rfl⟩ := List.exists_cons_of_ne_nil nonempty
      have hkey := hleaf (.key key)
      simp [step?, child?, Entries.get?] at hkey

/-- No mapping in entries has a key twice if none in each of their values has. -/
theorem entries_distinct_of_forall {entries : Entries Tree}
    (h : ∀ entry ∈ entries, KeysDistinct entry.2) : EntriesDistinct entries := by
  induction entries with
  | nil => trivial
  | cons entry rest ih =>
      exact ⟨h entry List.mem_cons_self, ih fun other hother ↦ h other (List.mem_cons_of_mem _ hother)⟩

/-- No mapping of a leafy tree has a key twice. -/
theorem Leafy.keys_distinct {tree : Tree} (h : Leafy tree) : tree.KeysDistinct := by
  induction h with
  | string value => trivial
  | mapping _ distinct _ ih => exact ⟨distinct, entries_distinct_of_forall ih⟩

end ConfigFill.Tree
