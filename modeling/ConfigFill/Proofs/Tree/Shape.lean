import ConfigFill.Proofs.Tree.Leafy

/-!
# The shape of what a reader makes

A tree `Fits` a depth if no mapping in it has a key twice and its containers nest at most so deep.
There is one rule for each kind of node, so that a reader is followed only as far as its own calls:
`IsScalar.fits`, `fits_sequence` and `fits_of_pairs`. The last is about a mapping that is made by
setting pairs in turn, whatever keys these have.
-/

namespace ConfigFill

namespace Entries

/-- An entry built by setting pairs is one of them. -/
theorem mem_of_pairs {α : Type} {pairs : List (String × α)} {entry : String × α}
    (h : entry ∈ ofPairs pairs) : entry ∈ pairs := by
  suffices hfold : ∀ entries : Entries α,
      entry ∈ pairs.foldl (fun entries pair ↦ put pair.1 pair.2 entries) entries →
        entry ∈ entries ∨ entry ∈ pairs from
    (hfold [] h).resolve_left List.not_mem_nil
  clear h
  induction pairs with
  | nil => exact fun _ hmem ↦ .inl hmem
  | cons pair rest ih =>
      intro entries hmem
      obtain hput | hrest := ih _ hmem
      · obtain rfl | hmem := mem_put hput
        · exact .inr List.mem_cons_self
        · exact .inl hmem
      · exact .inr (List.mem_cons_of_mem _ hrest)

end Entries

namespace Tree

mutual

/-- How deep containers nest in the tree. -/
def nesting : Tree → Nat
  | sequence items => itemsNesting items + 1
  | mapping entries => entriesNesting entries + 1
  | _ => 0

/-- How deep containers nest in the items. -/
def itemsNesting : List Tree → Nat
  | [] => 0
  | item :: rest => max (nesting item) (itemsNesting rest)

/-- How deep containers nest in the values of the entries. -/
def entriesNesting : List (String × Tree) → Nat
  | [] => 0
  | (_, value) :: rest => max (nesting value) (entriesNesting rest)

end

/-- No mapping of the tree has a key twice, and its containers nest at most so deep. -/
structure Fits (depth : Nat) (tree : Tree) : Prop where
  keysDistinct : tree.KeysDistinct
  nesting_le : tree.nesting ≤ depth

/-- The node is neither a sequence nor a mapping. -/
def IsScalar (tree : Tree) : Prop :=
  tree.items? = none ∧ tree.entries? = none

variable {depth : Nat}

/-- A tree that fits a depth fits every larger one. -/
theorem Fits.mono {tree : Tree} (h : tree.Fits depth) {other : Nat} (hle : depth ≤ other) :
    tree.Fits other :=
  ⟨h.keysDistinct, Nat.le_trans h.nesting_le hle⟩

/-- A scalar fits every depth. -/
theorem IsScalar.fits {tree : Tree} (h : tree.IsScalar) (depth : Nat) : tree.Fits depth := by
  cases tree with
  | sequence items => cases h.1
  | mapping entries => cases h.2
  | null | bool _ | int _ | float _ | string _ => exact ⟨trivial, Nat.zero_le depth⟩

/-- Items nest as deep as the deepest of them. -/
theorem items_nesting_le {items : List Tree} (h : ∀ item ∈ items, item.nesting ≤ depth) :
    itemsNesting items ≤ depth := by
  induction items with
  | nil => exact Nat.zero_le depth
  | cons item rest ih =>
      rw [List.forall_mem_cons] at h
      exact Nat.max_le.2 ⟨h.1, ih h.2⟩

/-- The values of entries nest as deep as the deepest of them. -/
theorem entries_nesting_le {entries : Entries Tree}
    (h : ∀ entry ∈ entries, entry.2.nesting ≤ depth) : entriesNesting entries ≤ depth := by
  induction entries with
  | nil => exact Nat.zero_le depth
  | cons entry rest ih =>
      rw [List.forall_mem_cons] at h
      exact Nat.max_le.2 ⟨h.1, ih h.2⟩

/-- Items have distinct keys if each of them has. -/
theorem items_distinct_of_forall {items : List Tree} (h : ∀ item ∈ items, item.KeysDistinct) :
    ItemsDistinct items := by
  induction items with
  | nil => trivial
  | cons item rest ih =>
      rw [List.forall_mem_cons] at h
      exact ⟨h.1, ih h.2⟩

/-- A sequence nests one deeper than its items. -/
theorem fits_sequence {items : List Tree} (h : ∀ item ∈ items, item.Fits depth) :
    (sequence items).Fits (depth + 1) where
  keysDistinct := items_distinct_of_forall fun item hmem ↦ (h item hmem).keysDistinct
  nesting_le := Nat.succ_le_succ (items_nesting_le fun item hmem ↦ (h item hmem).nesting_le)

/-- A mapping made by setting pairs in turn nests one deeper than their values. -/
theorem fits_of_pairs {pairs : List (String × Tree)} (h : ∀ pair ∈ pairs, pair.2.Fits depth) :
    (mapping (Entries.ofPairs pairs)).Fits (depth + 1) := by
  have hentries : ∀ entry ∈ Entries.ofPairs pairs, entry.2.Fits depth := fun entry hmem ↦
    h entry (Entries.mem_of_pairs hmem)
  refine ⟨⟨Entries.distinct_of_pairs pairs, ?_⟩, Nat.succ_le_succ ?_⟩
  · exact entries_distinct_of_forall fun entry hmem ↦ (hentries entry hmem).keysDistinct
  · exact entries_nesting_le fun entry hmem ↦ (hentries entry hmem).nesting_le

end Tree

end ConfigFill
