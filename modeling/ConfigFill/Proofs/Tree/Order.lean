import ConfigFill.Proofs.Filling.Leaves
import ConfigFill.Proofs.Tree.Leafy
import Mathlib.Data.List.Nodup

/-!
# Trees up to the order of keys

`SameUpToOrder` says that two trees differ in nothing but the order in which their mappings have
their keys. Trees of texts with the same leaves are the same up to order (`Leafy.same_up_to_order`),
and so are trees filled with values that are (`refilled_same_up_to_order`).
-/

namespace ConfigFill.Tree

mutual

/-- The trees are the same but for the order of keys in their mappings. -/
inductive SameUpToOrder : Tree → Tree → Prop where
  | refl (tree : Tree) : SameUpToOrder tree tree
  | sequence {items others : List Tree} (h : ItemsSame items others) :
      SameUpToOrder (sequence items) (sequence others)
  | mapping {entries arranged others : List (String × Tree)} (h : EntriesSame entries arranged)
      (perm : arranged.Perm others) : SameUpToOrder (mapping entries) (mapping others)

/-- Items in the same places are the same up to order. -/
inductive ItemsSame : List Tree → List Tree → Prop where
  | nil : ItemsSame [] []
  | cons {item other : Tree} {rest others : List Tree} (head : SameUpToOrder item other)
      (tail : ItemsSame rest others) : ItemsSame (item :: rest) (other :: others)

/-- Entries in the same places have the same key and values that are the same up to order. -/
inductive EntriesSame : List (String × Tree) → List (String × Tree) → Prop where
  | nil : EntriesSame [] []
  | cons (key : String) {value other : Tree} {rest others : List (String × Tree)}
      (head : SameUpToOrder value other) (tail : EntriesSame rest others) :
      EntriesSame ((key, value) :: rest) ((key, other) :: others)

end

namespace SameUpToOrder

/-- Trees that are the same up to order are of one kind. -/
theorem kind_eq {tree other : Tree} (h : SameUpToOrder tree other) : tree.kind = other.kind := by
  cases h <;> rfl

/-- Trees that are the same up to order are the same text, if one of them is a text. -/
theorem string?_eq {tree other : Tree} (h : SameUpToOrder tree other) :
    tree.string? = other.string? := by
  cases h <;> rfl

end SameUpToOrder

/-- Entries that are the same in place are as many. -/
theorem EntriesSame.length_eq {entries others : List (String × Tree)}
    (h : EntriesSame entries others) : entries.length = others.length := by
  match h with
  | .nil => rfl
  | .cons _ _ tail => simp [tail.length_eq]

/-- Of trees that are the same up to order, both are vacant or neither is. -/
theorem SameUpToOrder.is_vacant_eq {tree other : Tree} (h : SameUpToOrder tree other) :
    tree.isVacant = other.isVacant := by
  cases h with
  | refl => rfl
  | sequence => rfl
  | mapping h perm =>
      have hlength := h.length_eq.trans perm.length_eq
      rw [Bool.eq_iff_iff]
      simp [isVacant, ← List.length_eq_zero_iff, hlength]

/-- The entry of others that has the key of an entry; the entry itself if there is none. -/
def counterpart (others : Entries Tree) (entry : String × Tree) : String × Tree :=
  (entry.1, (Entries.get? entry.1 others).getD entry.2)

/-- The counterpart of an entry has its key and the other value under that. -/
theorem counterpart_eq {others : Entries Tree} {entry : String × Tree} {other : Tree}
    (h : Entries.get? entry.1 others = some other) : counterpart others entry = (entry.1, other) := by
  simp [counterpart, h]

/-- Each entry and its counterpart are the same up to order if their values are. -/
theorem entries_same_counterpart {entries others : Entries Tree}
    (h : ∀ entry ∈ entries, ∃ other, Entries.get? entry.1 others = some other ∧
      SameUpToOrder entry.2 other) : EntriesSame entries (entries.map (counterpart others)) := by
  induction entries with
  | nil => exact .nil
  | cons entry rest ih =>
      obtain ⟨other, hother, hvalue⟩ := h entry List.mem_cons_self
      have hrest := ih fun entry hentry ↦ h entry (List.mem_cons_of_mem _ hentry)
      rw [List.map_cons, counterpart_eq hother]
      exact .cons entry.1 hvalue hrest

/-- Entries whose keys are those of others, with values that are the same up to order, can be put
into the order of the others. -/
theorem exists_arranged {entries others : Entries Tree} (hentries : Entries.Distinct entries)
    (hothers : Entries.Distinct others)
    (hforward : ∀ entry ∈ entries, ∃ other, Entries.get? entry.1 others = some other ∧
      SameUpToOrder entry.2 other)
    (hback : ∀ other ∈ others, other.1 ∈ Entries.keys entries) :
    ∃ arranged, EntriesSame entries arranged ∧ arranged.Perm others := by
  refine ⟨_, entries_same_counterpart hforward, ?_⟩
  have hkeys : (entries.map (counterpart others)).map Prod.fst = Entries.keys entries := by
    rw [List.map_map]
    rfl
  have hnodup : (entries.map (counterpart others)).Nodup :=
    List.Nodup.of_map Prod.fst (hkeys ▸ hentries)
  -- Neither side has an entry twice, so it is enough that both have the same entries.
  refine (List.perm_ext_iff_of_nodup hnodup (List.Nodup.of_map Prod.fst hothers)).2 fun entry ↦ ?_
  rw [List.mem_map]
  constructor
  · rintro ⟨source, hsource, rfl⟩
    obtain ⟨other, hother, _⟩ := hforward source hsource
    rw [counterpart_eq hother]
    exact Entries.mem_of_get? hother
  · intro hentry
    obtain ⟨source, hsource, hkey⟩ := List.mem_map.1 (hback entry hentry)
    have hother : Entries.get? source.1 others = some entry.2 :=
      hothers.get?_of_mem (hkey ▸ hentry)
    exact ⟨source, hsource, by rw [counterpart_eq hother, hkey]⟩

/-- A tree of texts, or the empty mapping, without a leaf is the empty mapping. -/
theorem eq_mapping_empty_of_leaf {tree : Tree} (h : tree = mapping [] ∨ Leafy tree)
    (hleaf : ∀ keys, tree.leaf? keys = none) : tree = mapping [] := by
  rcases h with h | h
  · exact h
  · obtain ⟨keys, value, hvalue⟩ := h.exists_leaf
    rw [hleaf keys] at hvalue
    cases hvalue

/-- Where a leafy mapping has a key, any tree with the same leaves has it too. -/
theorem Leafy.exists_get? {value : Tree} (h : Leafy value) {key : String}
    {entries others : Entries Tree} (hvalue : Entries.get? key entries = some value)
    (hleaf : ∀ keys, (Tree.mapping entries).leaf? keys = (Tree.mapping others).leaf? keys) :
    ∃ other, Entries.get? key others = some other ∧ ∀ keys, value.leaf? keys = other.leaf? keys := by
  have hbelow (keys : List String) :
      value.leaf? keys = (Entries.get? key others).bind (·.leaf? keys) := by
    have hkeys := hleaf (key :: keys)
    rwa [leaf_mapping_cons, leaf_mapping_cons, hvalue, Option.bind_some] at hkeys
  obtain ⟨keys, text, htext⟩ := h.exists_leaf
  rw [hbelow keys] at htext
  obtain ⟨other, hother, _⟩ := Option.bind_eq_some_iff.1 htext
  exact ⟨other, hother, fun keys ↦ by rw [hbelow keys, hother, Option.bind_some]⟩

/-- Trees of texts with the same leaves are the same up to order. -/
theorem Leafy.same_up_to_order {tree other : Tree} (h : Leafy tree)
    (hother : other = Tree.mapping [] ∨ Leafy other)
    (hleaf : ∀ keys, tree.leaf? keys = other.leaf? keys) : SameUpToOrder tree other := by
  induction h generalizing other with
  | string value =>
      have hroot : other.string? = some value := (hleaf []).symm
      rw [string?_eq_some_iff.1 hroot]
      exact .refl _
  | @mapping entries nonempty distinct values ih =>
      have htree : Leafy (Tree.mapping entries) := .mapping nonempty distinct values
      rcases hother with rfl | hother
      · have hempty := eq_mapping_empty_of_leaf (.inr htree) fun keys ↦ by simp [hleaf keys]
        rw [hempty]
        exact .refl _
      · cases hother with
        | string value => cases hleaf []
        | @mapping others nonempty' distinct' values' =>
            -- There are leaves below every key, so that each side has the keys of the other.
            have hforward : ∀ entry ∈ entries, ∃ other,
                Entries.get? entry.1 others = some other ∧ SameUpToOrder entry.2 other := by
              intro entry hentry
              obtain ⟨old, hold, hbelow⟩ := (values _ hentry).exists_get?
                (distinct.get?_of_mem hentry) hleaf
              have hleafy := values' _ (Entries.mem_of_get? hold)
              exact ⟨old, hold, ih _ hentry (.inr hleafy) hbelow⟩
            have hback : ∀ entry ∈ others, entry.1 ∈ Entries.keys entries := by
              intro entry hentry
              obtain ⟨old, hold, _⟩ := (values' _ hentry).exists_get?
                (distinct'.get?_of_mem hentry) fun keys ↦ (hleaf keys).symm
              exact List.mem_map.2 ⟨_, Entries.mem_of_get? hold, rfl⟩
            obtain ⟨arranged, hsame, hperm⟩ := exists_arranged distinct distinct' hforward hback
            exact .mapping hsame hperm

/-- The same for trees that may be the empty mapping. -/
theorem same_up_to_order_of_leaf {tree other : Tree} (htree : tree = mapping [] ∨ Leafy tree)
    (hother : other = mapping [] ∨ Leafy other)
    (hleaf : ∀ keys, tree.leaf? keys = other.leaf? keys) : SameUpToOrder tree other := by
  rcases htree with rfl | htree
  · rw [eq_mapping_empty_of_leaf hother fun keys ↦ by simp [← hleaf keys]]
    exact .refl _
  · exact htree.same_up_to_order hother hleaf

mutual

/-- A tree filled with values that are the same up to order is the same up to order, and so are the
values left over. -/
theorem refill_same (tree : Tree) {values others : List Tree}
    (h : List.Forall₂ SameUpToOrder values others) :
    SameUpToOrder (tree.refill values).1 (tree.refill others).1 ∧
      List.Forall₂ SameUpToOrder (tree.refill values).2 (tree.refill others).2 := by
  cases tree with
  | string text =>
      simp only [refill]
      split
      · cases h with
        | nil => exact ⟨.refl _, .nil⟩
        | cons hvalue hrest => exact ⟨hvalue, hrest⟩
      · exact ⟨.refl _, h⟩
  | sequence items =>
      obtain ⟨hitems, hrest⟩ := refill_items_same items h
      exact ⟨.sequence hitems, hrest⟩
  | mapping entries =>
      obtain ⟨hentries, hrest⟩ := refill_entries_same entries h
      exact ⟨.mapping hentries (.refl _), hrest⟩
  | null | bool _ | int _ | float _ => exact ⟨.refl _, h⟩

/-- Items with values that are the same up to order put back are the same up to order, and so are
the values left over. -/
theorem refill_items_same (items : List Tree) {values others : List Tree}
    (h : List.Forall₂ SameUpToOrder values others) :
    ItemsSame (refillItems items values).1 (refillItems items others).1 ∧
      List.Forall₂ SameUpToOrder (refillItems items values).2 (refillItems items others).2 := by
  cases items with
  | nil => exact ⟨.nil, h⟩
  | cons item rest =>
      obtain ⟨hitem, hothers⟩ := refill_same item h
      obtain ⟨hitems, hrest⟩ := refill_items_same rest hothers
      exact ⟨.cons hitem hitems, hrest⟩

/-- Entries with values that are the same up to order put back are the same up to order, and so are
the values left over. -/
theorem refill_entries_same (entries : List (String × Tree)) {values others : List Tree}
    (h : List.Forall₂ SameUpToOrder values others) :
    EntriesSame (refillEntries entries values).1 (refillEntries entries others).1 ∧
      List.Forall₂ SameUpToOrder (refillEntries entries values).2
        (refillEntries entries others).2 := by
  cases entries with
  | nil => exact ⟨.nil, h⟩
  | cons entry rest =>
      obtain ⟨key, value⟩ := entry
      obtain ⟨hvalue, hothers⟩ := refill_same value h
      obtain ⟨hentries, hrest⟩ := refill_entries_same rest hothers
      exact ⟨.cons key hvalue hentries, hrest⟩

end

/-- A tree with values that are the same up to order put back is the same up to order. -/
theorem refilled_same_up_to_order (tree : Tree) {values others : List Tree}
    (h : List.Forall₂ SameUpToOrder values others) :
    SameUpToOrder (tree.refilled values) (tree.refilled others) :=
  (refill_same tree h).1

end ConfigFill.Tree
