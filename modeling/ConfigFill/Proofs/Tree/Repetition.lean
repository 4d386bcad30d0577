import ConfigFill.Proofs.Tree.Merge

/-!
# An overlay laid on again

An overlay without nulls is in the merge once it has been laid over a base: laid over the merge
again, it finds under each of its keys what it has put there. The induction is over the overlay, with
the base general, since what a key had before is another base for the value under it
(`merge_absorbs`). The main statement, `merge_again`, says it of two trees, of a tree and itself, and
of documents of which the last is named twice. The latter needs that merges have distinct keys
(`KeysDistinct.merge`).
-/

namespace ConfigFill.Tree

mutual

/-- No mapping of the tree that is reached through mappings alone has a null as a value. -/
def NullFree : Tree → Prop
  | mapping entries => EntriesNullFree entries
  | _ => True

/-- No value of the entries is a null or has one below it. -/
def EntriesNullFree : List (String × Tree) → Prop
  | [] => True
  | (_, value) :: rest => value ≠ null ∧ NullFree value ∧ EntriesNullFree rest

end

/-- The test for a null fails for every other tree. -/
theorem is_null_eq_false {tree : Tree} (h : tree ≠ null) : tree.isNull = false := by
  cases hnull : tree.isNull with
  | false => rfl
  | true => exact absurd (is_null_iff.1 hnull) h

/-- No value of entries without nulls is a null. -/
theorem EntriesNullFree.ne_null_of_mem {entries : Entries Tree} (h : EntriesNullFree entries)
    {entry : String × Tree} (hmem : entry ∈ entries) : entry.2 ≠ null := by
  induction entries with
  | nil => cases hmem
  | cons first rest ih =>
      obtain ⟨hfirst, _, hrest⟩ := h
      rcases List.mem_cons.1 hmem with rfl | hmem
      · exact hfirst
      · exact ih hrest hmem

/-- A mapping laid over anything gives a mapping. -/
theorem exists_merge_mapping (base : Tree) (overlay : Entries Tree) :
    ∃ merged, merge base (mapping overlay) = mapping merged := by
  cases hbase : base.entries? with
  | none => exact ⟨overlay, merge_eq_overlay (.inl hbase)⟩
  | some entries =>
      obtain rfl := entries?_eq_some_iff.1 hbase
      exact ⟨mergeEntries entries overlay, merge_mapping entries overlay⟩

/-- Each value of an overlay without nulls is in the merge, laid over what the base has there. -/
theorem get?_merged_of_mem {base : Tree} {overlay merged : Entries Tree}
    (hbase : base.KeysDistinct) (hoverlay : Entries.Distinct overlay)
    (hnull : EntriesNullFree overlay) (hmerged : merge base (mapping overlay) = mapping merged)
    {entry : String × Tree} (hmem : entry ∈ overlay) :
    Entries.get? entry.1 merged = some (merge ((base.child? entry.1).getD null) entry.2) := by
  have hchild := child_merge hbase hoverlay entry.1
  rw [hmerged, hoverlay.get?_of_mem hmem] at hchild
  show (mapping merged).child? entry.1 = _
  simpa [is_null_eq_false (hnull.ne_null_of_mem hmem)] using hchild

mutual

/-- An overlay without nulls changes nothing where it has been laid before. -/
theorem merge_absorbs {overlay : Tree} (hoverlay : overlay.KeysDistinct)
    (hnull : overlay.NullFree) {base : Tree} (hbase : base.KeysDistinct) :
    merge (merge base overlay) overlay = merge base overlay := by
  cases overlay with
  | mapping overlay =>
      obtain ⟨merged, hmerged⟩ := exists_merge_mapping base overlay
      rw [hmerged, merge_mapping, merge_entries_absorbs hoverlay.2 hnull]
      intro entry hmem
      exact ⟨_, hbase.child_or_null entry.1,
        get?_merged_of_mem hbase hoverlay.1 hnull hmerged hmem⟩
  | null | bool _ | int _ | float _ | string _ | sequence _ => exact merge_eq_overlay (.inr rfl)

/-- Entries without nulls change nothing where each value has been laid over another one. -/
theorem merge_entries_absorbs {overlay : List (String × Tree)} (hoverlay : EntriesDistinct overlay)
    (hnull : EntriesNullFree overlay) {merged : Entries Tree}
    (hvalues : ∀ entry ∈ overlay, ∃ old : Tree, old.KeysDistinct ∧
      Entries.get? entry.1 merged = some (merge old entry.2)) :
    mergeEntries merged overlay = merged := by
  cases overlay with
  | nil => simp [mergeEntries]
  | cons entry rest =>
      obtain ⟨key, value⟩ := entry
      obtain ⟨hvalue, hbelow, hrest⟩ := hnull
      obtain ⟨old, hold, hget⟩ := hvalues (key, value) List.mem_cons_self
      have hentry : mergeEntry merged key value = merged := by
        simp only [mergeEntry, is_null_eq_false hvalue, Bool.false_eq_true, if_false, hget,
          Option.getD_some]
        rw [merge_absorbs hoverlay.1 hbelow hold]
        exact Entries.put_of_get? hget
      rw [merge_entries_cons, hentry]
      exact merge_entries_absorbs hoverlay.2 hrest fun other hmem ↦
        hvalues other (List.mem_cons_of_mem _ hmem)

end

/-- Setting a value with distinct keys keeps those of the values distinct. -/
theorem EntriesDistinct.put {entries : Entries Tree} (h : EntriesDistinct entries) (key : String)
    {value : Tree} (hvalue : value.KeysDistinct) : EntriesDistinct (Entries.put key value entries) := by
  apply entries_distinct_of_forall
  intro entry hmem
  rcases Entries.mem_put hmem with rfl | hmem
  · exact hvalue
  · exact h.of_mem hmem

/-- Taking an entry out keeps the keys of the values distinct. -/
theorem EntriesDistinct.erase {entries : Entries Tree} (h : EntriesDistinct entries)
    (key : String) : EntriesDistinct (Entries.erase key entries) := by
  induction entries with
  | nil => trivial
  | cons entry rest ih =>
      obtain ⟨name, value⟩ := entry
      simp only [Entries.erase]
      split
      · exact h.2
      · exact ⟨h.1, ih h.2⟩

mutual

/-- No mapping of a merge has a key twice. -/
theorem KeysDistinct.merge {overlay : Tree} (hoverlay : overlay.KeysDistinct) {base : Tree}
    (hbase : base.KeysDistinct) : (merge base overlay).KeysDistinct := by
  cases hentries : base.entries? with
  | none =>
      rw [merge_eq_overlay (.inl hentries)]
      exact hoverlay
  | some entries =>
      obtain rfl := entries?_eq_some_iff.1 hentries
      cases overlay with
      | mapping overlay =>
          rw [merge_mapping]
          exact hoverlay.2.merge hbase.1 hbase.2
      | null | bool _ | int _ | float _ | string _ | sequence _ => exact hoverlay

/-- No mapping of merged entries has a key twice, nor have the entries themselves. -/
theorem EntriesDistinct.merge {overlay : List (String × Tree)} (hoverlay : EntriesDistinct overlay)
    {base : Entries Tree} (hbase : Entries.Distinct base) (hvalues : EntriesDistinct base) :
    Entries.Distinct (mergeEntries base overlay) ∧
      EntriesDistinct (mergeEntries base overlay) := by
  cases overlay with
  | nil => simpa [mergeEntries] using ⟨hbase, hvalues⟩
  | cons entry rest =>
      obtain ⟨key, value⟩ := entry
      have hentry : EntriesDistinct (mergeEntry base key value) := by
        unfold mergeEntry
        split
        · exact hvalues.erase key
        · have hmapping : (mapping base).KeysDistinct := ⟨hbase, hvalues⟩
          exact hvalues.put key (hoverlay.1.merge (hmapping.child_or_null key))
      rw [merge_entries_cons]
      exact hoverlay.2.merge (distinct_merge_entry hbase key value) hentry

end

/-- Documents laid over a first one, one after the other, keep keys distinct. -/
theorem KeysDistinct.merge_all {first : Tree} (hfirst : first.KeysDistinct) {rest : List Tree}
    (hrest : ∀ document ∈ rest, document.KeysDistinct) : (mergeAll (first :: rest)).KeysDistinct :=
  List.foldlRecOn rest Tree.merge hfirst fun _ hbase document hmem ↦
    (hrest document hmem).merge hbase

/-- An overlay without nulls laid over a base twice is the same as once, and so is one laid over
itself: the trees are equal, the order of their keys included. So it does not matter whether the last
of some documents is named once or twice. -/
theorem merge_again {base overlay : Tree} (hbase : base.KeysDistinct)
    (hoverlay : overlay.KeysDistinct) (hnull : overlay.NullFree) :
    merge (merge base overlay) overlay = merge base overlay ∧
      merge overlay overlay = overlay ∧
      ∀ documents : List Tree, (∀ document ∈ documents, document.KeysDistinct) →
        mergeAll (documents ++ [overlay, overlay]) = mergeAll (documents ++ [overlay]) := by
  have hself : merge overlay overlay = overlay := by
    -- Over a null the overlay is laid as it is, so that it is a merge of itself.
    have hnothing : null.KeysDistinct := trivial
    have hover := merge_absorbs hoverlay hnull hnothing
    rwa [merge_null_base] at hover
  refine ⟨merge_absorbs hoverlay hnull hbase, hself, ?_⟩
  intro documents hdocuments
  cases documents with
  | nil => exact hself
  | cons first rest =>
      have hmerged : (mergeAll (first :: rest)).KeysDistinct :=
        (hdocuments first List.mem_cons_self).merge_all fun document hmem ↦
          hdocuments document (List.mem_cons_of_mem _ hmem)
      have hover := merge_absorbs hoverlay hnull hmerged
      simpa [mergeAll] using hover

/-- The overlay changes a section, brings another and has a null only in a sequence. -/
theorem merge_again_sample :
    let base := mapping [("service", mapping [("name", string "billing"), ("port", int 8443)])]
    let overlay := mapping [("extra", mapping [("level", int 1)]),
      ("service", mapping [("port", string "none"), ("hosts", sequence [null])])]
    let merged := mapping [("service", mapping [("name", string "billing"),
      ("port", string "none"), ("hosts", sequence [null])]), ("extra", mapping [("level", int 1)])]
    base.KeysDistinct ∧ overlay.KeysDistinct ∧ overlay.NullFree ∧
      merge base overlay = merged ∧ merge merged overlay = merged ∧
      merge overlay overlay = overlay := by
  intro base overlay merged
  have hbase : base.KeysDistinct := by
    simp [base, KeysDistinct, EntriesDistinct, Entries.Distinct]
  have hoverlay : overlay.KeysDistinct := by
    simp [overlay, KeysDistinct, EntriesDistinct, ItemsDistinct, Entries.Distinct]
  have hnull : overlay.NullFree := by
    simp [overlay, NullFree, EntriesNullFree]
  have hmerged : merge base overlay = merged := rfl
  obtain ⟨hagain, hself, _⟩ := merge_again hbase hoverlay hnull
  exact ⟨hbase, hoverlay, hnull, hmerged, hmerged ▸ hagain, hself⟩

/-- With a null in a section that the base does not have, the second time makes a difference. -/
example :
    let overlay := mapping [("a", mapping [("b", null)])]
    merge (mapping []) overlay = overlay ∧
      merge (merge (mapping []) overlay) overlay = mapping [("a", mapping [])] := by
  exact ⟨rfl, rfl⟩

end ConfigFill.Tree
