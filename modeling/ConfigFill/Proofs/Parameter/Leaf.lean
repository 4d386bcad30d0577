import ConfigFill.Parameter.Assembly
import ConfigFill.Proofs.Tree.Leafy

/-!
# Setting one leaf

What `putLeaf?` does to the leaves of a tree. It fails exactly if something other than a mapping
stands above the leaf (`put_leaf_eq_none_iff`); otherwise the leaf is there, what was below it is
gone, and all other leaves are as before (`leaf_put_leaf`).
-/

namespace ConfigFill.Parameter

open ConfigFill.Tree

/-- Nothing is set in a node that is no mapping. -/
theorem put_leaf_eq_none {value : String} {keys : List String} {tree : Tree}
    (h : tree.entries? = none) : putLeaf? value keys tree = none := by
  -- One key and more than one are told apart as `putLeaf?` does.
  match keys, tree with
  | [], _ => rfl
  | [_], .null | [_], .bool _ | [_], .int _ | [_], .float _ | [_], .string _
  | [_], .sequence _ => rfl
  | _ :: _ :: _, .null | _ :: _ :: _, .bool _ | _ :: _ :: _, .int _ | _ :: _ :: _, .float _
  | _ :: _ :: _, .string _ | _ :: _ :: _, .sequence _ => rfl
  | _ :: _, .mapping _ => cases h

/-- Under a single key, the leaf is set in the mapping itself. -/
theorem put_leaf_last (value key : String) (entries : Entries Tree) :
    putLeaf? value [key] (mapping entries) =
      some (mapping (Entries.put key (string value) entries)) :=
  rfl

/-- With keys left, the leaf is set in the value under the first, or in a new mapping there. -/
theorem put_leaf_cons (value key : String) {rest : List String} (h : rest ≠ [])
    (entries : Entries Tree) :
    putLeaf? value (key :: rest) (mapping entries) =
      (putLeaf? value rest ((Entries.get? key entries).getD (mapping []))).map
        fun child ↦ mapping (Entries.put key child entries) := by
  cases rest with
  | nil => exact absurd rfl h
  | cons next rest => rfl

/-- What `putLeaf?` makes of a tree: a mapping in which one value is new, the leaf itself or what
was made of the value that was there. -/
theorem put_leaf_cases {value : String} {keys : List String} {tree result : Tree}
    (h : putLeaf? value keys tree = some result) :
    ∃ key rest entries child, keys = key :: rest ∧ tree = mapping entries ∧
      result = mapping (Entries.put key child entries) ∧
      (rest = [] ∧ child = string value ∨ rest ≠ [] ∧
        putLeaf? value rest ((Entries.get? key entries).getD (mapping [])) = some child) := by
  cases keys with
  | nil => cases h
  | cons key rest =>
      cases htree : tree.entries? with
      | none =>
          rw [put_leaf_eq_none htree] at h
          cases h
      | some entries =>
          obtain rfl := entries?_eq_some_iff.1 htree
          by_cases hrest : rest = []
          · subst hrest
            cases h
            exact ⟨key, [], entries, _, rfl, rfl, rfl, .inl ⟨rfl, rfl⟩⟩
          · rw [put_leaf_cons value key hrest] at h
            obtain ⟨child, hchild, rfl⟩ := Option.map_eq_some_iff.1 h
            exact ⟨key, rest, entries, child, rfl, rfl, rfl, .inr ⟨hrest, hchild⟩⟩

/-- A missing value counts as an empty mapping: neither has leaves. -/
theorem leaf_or_mapping_empty (node : Option Tree) (keys : List String) :
    (node.getD (mapping [])).leaf? keys = node.bind (·.leaf? keys) := by
  cases node with
  | none => simp
  | some node => rfl

/-- After setting a leaf, it is there, there is none below it, and all others are as before. -/
theorem leaf_put_leaf {value : String} {keys : List String} {tree result : Tree}
    (h : putLeaf? value keys tree = some result) (other : List String) :
    result.leaf? other =
      if keys <+: other then if other = keys then some value else none else tree.leaf? other := by
  -- The induction is over all trees, since the rest of the keys is set in a child.
  induction keys generalizing tree result other with
  | nil => cases h
  | cons key rest ih =>
      obtain ⟨_, _, entries, child, heq, rfl, rfl, hchild⟩ := put_leaf_cases h
      cases heq
      cases other with
      | nil => simp [string?]
      | cons name names =>
          rw [leaf_mapping_cons, leaf_mapping_cons, Entries.get?_put]
          by_cases hname : key = name
          · subst hname
            simp only [if_true, Option.bind_some, List.cons_prefix_cons, true_and, List.cons.injEq]
            rcases hchild with ⟨rfl, rfl⟩ | ⟨_, hchild⟩
            · cases names <;> simp [string?, leaf_cons, child?]
            · rw [ih hchild, leaf_or_mapping_empty]
          · have hname' : ¬ name = key := fun heq ↦ hname heq.symm
            simp [hname]

/-- Something other than a mapping stands at a proper prefix of the keys. -/
def InTheWay (keys : List String) (tree : Tree) : Prop :=
  ∃ above, above <+: keys ∧ above ≠ keys ∧
    ∃ node, tree.atKeys? above = some node ∧ node.entries? = none

/-- Nothing is in the way in a new mapping. -/
theorem not_in_the_way_mapping_empty (keys : List String) : ¬ InTheWay keys (mapping []) := by
  intro h
  obtain ⟨above, _, _, node, hnode, hentries⟩ := h
  cases above with
  | nil =>
      cases hnode
      cases hentries
  | cons key rest => cases hnode

/-- What is in the way below the first key is in the way in the value under it. -/
theorem in_the_way_mapping_cons {key : String} {rest : List String} {entries : Entries Tree} :
    InTheWay (key :: rest) (mapping entries) ↔
      InTheWay rest ((Entries.get? key entries).getD (mapping [])) := by
  constructor
  · rintro ⟨above, hbegins, hne, node, hnode, hentries⟩
    cases above with
    | nil =>
        cases hnode
        cases hentries
    | cons name names =>
        obtain ⟨rfl, hrest⟩ := List.cons_prefix_cons.1 hbegins
        rw [at_keys_cons] at hnode
        obtain ⟨child, hchild, hnode⟩ := Option.bind_eq_some_iff.1 hnode
        refine ⟨names, hrest, fun heq ↦ hne (heq ▸ rfl), node, ?_, hentries⟩
        rw [show Entries.get? name entries = some child from hchild]
        exact hnode
  · rintro ⟨above, hbegins, hne, node, hnode, hentries⟩
    refine ⟨key :: above, List.cons_prefix_cons.2 ⟨rfl, hbegins⟩, ?_, node, ?_, hentries⟩
    · exact fun heq ↦ hne (List.cons.inj heq).2
    · rw [at_keys_cons]
      show (Entries.get? key entries).bind _ = _
      cases hchild : Entries.get? key entries with
      | some child =>
          rw [hchild] at hnode
          exact hnode
      | none =>
          rw [hchild] at hnode
          exact absurd ⟨above, hbegins, hne, node, hnode, hentries⟩ (not_in_the_way_mapping_empty rest)

/-- A leaf cannot be set exactly if there are no keys or something is in the way. -/
theorem put_leaf_eq_none_iff {value : String} {keys : List String} {tree : Tree} :
    putLeaf? value keys tree = none ↔ keys = [] ∨ InTheWay keys tree := by
  induction keys generalizing tree with
  | nil => simp [putLeaf?]
  | cons key rest ih =>
      have hcons : ¬ key :: rest = [] := by simp
      simp only [hcons, false_or]
      cases htree : tree.entries? with
      | none =>
          have hway : InTheWay (key :: rest) tree :=
            ⟨[], List.nil_prefix, by simp, tree, rfl, htree⟩
          exact ⟨fun _ ↦ hway, fun _ ↦ put_leaf_eq_none htree⟩
      | some entries =>
          obtain rfl := entries?_eq_some_iff.1 htree
          rw [in_the_way_mapping_cons]
          by_cases hrest : rest = []
          · subst hrest
            rw [put_leaf_last]
            constructor
            · intro h
              cases h
            · rintro ⟨above, hbegins, hne, _⟩
              exact absurd (List.prefix_nil.1 hbegins) hne
          · rw [put_leaf_cons value key hrest, Option.map_eq_none_iff, ih]
            simp [hrest]

/-- A leaf set in a leafy tree, or in the empty mapping, gives a leafy tree. -/
theorem put_leaf_leafy {value : String} {keys : List String} {tree result : Tree}
    (h : putLeaf? value keys tree = some result) (htree : tree = mapping [] ∨ Leafy tree) :
    Leafy result := by
  induction keys generalizing tree result with
  | nil => cases h
  | cons key rest ih =>
      obtain ⟨_, _, entries, child, heq, rfl, rfl, hchild⟩ := put_leaf_cases h
      cases heq
      have hvalues : Entries.Distinct entries ∧ ∀ entry ∈ entries, Leafy entry.2 := by
        rcases htree with heq | htree
        · cases heq
          exact ⟨List.nodup_nil, fun entry hentry ↦ nomatch hentry⟩
        · cases htree with
          | mapping _ distinct values => exact ⟨distinct, values⟩
      -- Where the key is new the child grows out of the empty mapping, which is not leafy itself.
      have hleafy : Leafy child := by
        rcases hchild with ⟨rfl, rfl⟩ | ⟨_, hchild⟩
        · exact .string value
        · refine ih hchild ?_
          cases hold : Entries.get? key entries with
          | none => exact .inl rfl
          | some old => exact .inr (hvalues.2 _ (Entries.mem_of_get? hold))
      refine .mapping (Entries.put_ne_nil _ _ _) (hvalues.1.put key child) fun entry hentry ↦ ?_
      rcases Entries.mem_put hentry with rfl | hentry
      · exact hleafy
      · exact hvalues.2 entry hentry

end ConfigFill.Parameter
