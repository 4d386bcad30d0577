import ConfigFill.Proofs.Tree.Leafy
import ConfigFill.Tree.Merge
import Mathlib.Logic.Basic

/-!
# What a merge holds

A merge said key by key and path by path, without the order in which the entries of the overlay are
taken. One entry of the overlay changes one key of the base (`get?_merge_entry`), so that a merge
has under each key what `overlaid` makes of the two values there (`get?_merge_entries`), and its
keys are those of the base that stay and then the new ones (`keys_merge_entries`). `child_merge`
says the same of any two trees, and what a merge holds under a list of keys follows from it by
induction on the keys. The main statements are `merge_key_by_key` and, for the nulls of an overlay,
`null_removes_key`.
-/

namespace ConfigFill.Tree

/-- The test for a null holds of it alone. -/
theorem is_null_iff {tree : Tree} : tree.isNull = true ↔ tree = null := by
  cases tree <;> simp [isNull]

/-- The value of each entry has distinct keys. -/
theorem EntriesDistinct.of_mem {entries : Entries Tree} (h : EntriesDistinct entries)
    {entry : String × Tree} (hmem : entry ∈ entries) : KeysDistinct entry.2 := by
  induction entries with
  | nil => cases hmem
  | cons first rest ih =>
      obtain ⟨hfirst, hrest⟩ := h
      rcases List.mem_cons.1 hmem with rfl | hmem
      · exact hfirst
      · exact ih hrest hmem

/-- The value under a key of a tree with distinct keys has distinct keys. -/
theorem KeysDistinct.child {tree value : Tree} {key : String} (h : tree.KeysDistinct)
    (hvalue : tree.child? key = some value) : value.KeysDistinct := by
  cases tree with
  | mapping entries => exact h.2.of_mem (Entries.mem_of_get? hvalue)
  | null | bool _ | int _ | float _ | string _ | sequence _ => cases hvalue

/-- Where one of two trees is no mapping, the overlay stands as it is. -/
theorem merge_eq_overlay {base overlay : Tree}
    (h : base.entries? = none ∨ overlay.entries? = none) : merge base overlay = overlay := by
  cases overlay with
  | mapping overlay =>
      cases base with
      | mapping base => simp [entries?] at h
      | null | bool _ | int _ | float _ | string _ | sequence _ => simp [merge]
  | null | bool _ | int _ | float _ | string _ | sequence _ => simp [merge]

/-- Over a null, the overlay is laid as it is. -/
@[simp]
theorem merge_null_base (overlay : Tree) : merge null overlay = overlay :=
  merge_eq_overlay (.inl rfl)

/-- Mappings are merged by their entries. -/
theorem merge_mapping (base overlay : Entries Tree) :
    merge (mapping base) (mapping overlay) = mapping (mergeEntries base overlay) := by
  simp [merge]

/-- One entry of an overlay laid over the entries of a base. A key that is not there counts as a
null, over which anything is laid as it is. -/
def mergeEntry (base : Entries Tree) (key : String) (value : Tree) : Entries Tree :=
  if value.isNull then Entries.erase key base
  else Entries.put key (merge ((Entries.get? key base).getD null) value) base

/-- What a merge has under a key, given what base and overlay have there. -/
def overlaid (old : Option Tree) : Option Tree → Option Tree
  | none => old
  | some value => if value.isNull then none else some (merge (old.getD null) value)

/-- A value without a counterpart is taken as it is, two mappings are merged, and otherwise the
overlay counts. -/
theorem overlaid_eq (old new : Option Tree) :
    overlaid old new =
      match old, new with
      | old, none => old
      | _, some null => none
      | some (mapping old), some (mapping new) => some (merge (mapping old) (mapping new))
      | _, some new => some new := by
  cases new with
  | none => cases old <;> rfl
  | some new =>
      cases new with
      | null => cases old <;> rfl
      | mapping new =>
          cases old with
          | none => simp [overlaid, isNull]
          | some old => cases old <;> simp [overlaid, isNull, merge_eq_overlay, entries?]
      | bool _ | int _ | float _ | string _ | sequence _ => simp [overlaid, isNull, merge]

/-- The overlay sets the key to null. -/
def removes (overlay : Entries Tree) (key : String) : Bool :=
  (Entries.get? key overlay).any isNull

variable {base overlay : Entries Tree} {key : String} {value : Tree}

/-- Entries are laid one after the other. -/
theorem merge_entries_cons (base : Entries Tree) (key : String) (value : Tree)
    (rest : List (String × Tree)) :
    mergeEntries base ((key, value) :: rest) = mergeEntries (mergeEntry base key value) rest := by
  cases value with
  | null => simp [mergeEntries, mergeEntry, isNull]
  | bool _ | int _ | float _ | string _ | sequence _ | mapping _ =>
      cases hold : Entries.get? key base <;> simp [mergeEntries, mergeEntry, isNull, hold]

/-- One entry changes what is under its key and nothing else. -/
theorem get?_merge_entry (hbase : Entries.Distinct base) (key other : String) (value : Tree) :
    Entries.get? other (mergeEntry base key value) =
      if key = other then overlaid (Entries.get? key base) (some value)
      else Entries.get? other base := by
  cases hnull : value.isNull with
  | true => simp [mergeEntry, overlaid, hnull, Entries.get?_erase hbase]
  | false => simp [mergeEntry, overlaid, hnull, Entries.get?_put]

/-- An entry adds its key at the end, leaves the keys as they are, or takes its key out if its value
is a null. -/
theorem keys_merge_entry (base : Entries Tree) (key : String) (value : Tree) :
    Entries.keys (mergeEntry base key value) =
      if value.isNull then (Entries.keys base).erase key
      else if key ∈ Entries.keys base then Entries.keys base
      else Entries.keys base ++ [key] := by
  unfold mergeEntry
  split
  · exact Entries.keys_erase key base
  · exact Entries.keys_put key _ base

/-- Laying an entry keeps distinct keys distinct. -/
theorem distinct_merge_entry (hbase : Entries.Distinct base) (key : String) (value : Tree) :
    Entries.Distinct (mergeEntry base key value) := by
  unfold mergeEntry
  split
  · exact hbase.erase key
  · exact hbase.put key _

/-- A merge has under each key what is made of the two values there. -/
theorem get?_merge_entries (hbase : Entries.Distinct base) (hoverlay : Entries.Distinct overlay)
    (key : String) :
    Entries.get? key (mergeEntries base overlay) =
      overlaid (Entries.get? key base) (Entries.get? key overlay) := by
  induction overlay generalizing base with
  | nil => simp [mergeEntries, Entries.get?, overlaid]
  | cons entry rest ih =>
      obtain ⟨name, value⟩ := entry
      obtain ⟨hname, hrest⟩ := List.nodup_cons.1 hoverlay
      rw [merge_entries_cons, ih (distinct_merge_entry hbase name value) hrest,
        get?_merge_entry hbase]
      by_cases heq : name = key
      · subst heq
        simp [Entries.get?, Entries.get?_eq_none_iff.2 hname, overlaid]
      · simp [Entries.get?, heq]

/-- The first entry with a key says whether the key is taken out. -/
theorem removes_cons (name : String) (value : Tree) (rest : Entries Tree) (key : String) :
    removes ((name, value) :: rest) key =
      if name = key then value.isNull else removes rest key := by
  by_cases h : name = key <;> simp [removes, Entries.get?, h]

/-- A key that is not in the overlay is not taken out. -/
theorem removes_of_not_mem (h : key ∉ Entries.keys overlay) : removes overlay key = false := by
  simp [removes, Entries.get?_eq_none_iff.2 h]

/-- An entry adds and takes out no other key than its own. -/
theorem mem_keys_merge_entry (hbase : Entries.Distinct base) {other : String} (h : key ≠ other)
    (value : Tree) :
    other ∈ Entries.keys (mergeEntry base key value) ↔ other ∈ Entries.keys base := by
  have hget := get?_merge_entry hbase key other value
  rw [if_neg h] at hget
  rw [← not_iff_not, ← Entries.get?_eq_none_iff, ← Entries.get?_eq_none_iff, hget]

/-- Of the keys that the rest of an overlay leaves, its first entry has taken out the one that it
sets to null, or has put one at the end that was not there. -/
theorem filter_keys_merge_entry (hbase : Entries.Distinct base) {rest : Entries Tree}
    (hkey : key ∉ Entries.keys rest) (value : Tree) :
    (Entries.keys (mergeEntry base key value)).filter (fun other ↦ !removes rest other) =
      (Entries.keys base).filter (fun other ↦ !removes ((key, value) :: rest) other) ++
        [key].filter fun other ↦
          !removes ((key, value) :: rest) other && other ∉ Entries.keys base := by
  have hself := removes_of_not_mem hkey
  rw [keys_merge_entry]
  cases hnull : value.isNull with
  | true =>
      have hothers : ∀ other ∈ Entries.keys base, (!removes rest other && (other != key)) =
          !removes ((key, value) :: rest) other := by
        intro other _
        by_cases heq : key = other
        · simp [removes_cons, heq, hnull]
        · simp [removes_cons, heq, Ne.symm heq]
      rw [if_pos rfl, List.Nodup.erase_eq_filter hbase, List.filter_filter,
        List.filter_congr hothers]
      simp [removes_cons, hnull]
  | false =>
      have hothers : removes ((key, value) :: rest) = removes rest := by
        funext other
        by_cases heq : key = other
        · simp [removes_cons, ← heq, hnull, hself]
        · simp [removes_cons, heq]
      by_cases hmem : key ∈ Entries.keys base <;>
        simp [hothers, hself, hmem, List.filter_append]

/-- The keys of a merge are those of the base that the overlay does not set to null, and after them
the keys that the overlay brings. -/
theorem keys_merge_entries (hbase : Entries.Distinct base) (hoverlay : Entries.Distinct overlay) :
    Entries.keys (mergeEntries base overlay) =
      (Entries.keys base).filter (fun key ↦ !removes overlay key) ++
        (Entries.keys overlay).filter fun key ↦
          !removes overlay key && key ∉ Entries.keys base := by
  induction overlay generalizing base with
  | nil =>
      have hkeeps : ∀ key ∈ Entries.keys base, (!removes [] key) = true := fun _ _ ↦ rfl
      simp [mergeEntries, List.filter_eq_self.2 hkeeps]
  | cons entry rest ih =>
      obtain ⟨name, value⟩ := entry
      obtain ⟨hname, hrest⟩ := List.nodup_cons.1 hoverlay
      -- A later key is none but the first, so that the first entry changes nothing about it.
      have hlater : ∀ key ∈ Entries.keys rest,
          (!removes rest key && decide (key ∉ Entries.keys (mergeEntry base name value))) =
            (!removes ((name, value) :: rest) key && decide (key ∉ Entries.keys base)) := by
        intro key hkey
        have hne : name ≠ key := by
          rintro rfl
          exact hname hkey
        simp [removes_cons, hne, mem_keys_merge_entry hbase hne]
      rw [merge_entries_cons, ih (distinct_merge_entry hbase name value) hrest,
        filter_keys_merge_entry hbase hname, List.filter_congr hlater, List.append_assoc,
        ← List.filter_append]
      rfl

/-- What a merge has under a key. Where the overlay has a null, it takes the key out of a mapping;
over anything else the overlay stands as it is, and the null with it. -/
theorem child_merge {base : Tree} (hbase : base.KeysDistinct)
    (hoverlay : Entries.Distinct overlay) (key : String) :
    (merge base (mapping overlay)).child? key =
      match Entries.get? key overlay with
      | none => base.child? key
      | some value =>
          if value.isNull then if base.entries?.isSome then none else some null
          else some (merge ((base.child? key).getD null) value) := by
  cases hentries : base.entries? with
  | some entries =>
      obtain rfl := entries?_eq_some_iff.1 hentries
      rw [merge_mapping]
      show Entries.get? key (mergeEntries entries overlay) = _
      rw [get?_merge_entries hbase.1 hoverlay]
      cases Entries.get? key overlay <;> rfl
  | none =>
      have hchild : base.child? key = none := by
        cases base with
        | mapping entries => cases hentries
        | null | bool _ | int _ | float _ | string _ | sequence _ => rfl
      rw [merge_eq_overlay (.inl hentries), hchild]
      show Entries.get? key overlay = _
      cases hvalue : Entries.get? key overlay with
      | none => rfl
      | some value =>
          by_cases hnull : value.isNull = true
          · simp [is_null_iff.1 hnull, isNull]
          · simp [hnull]

/-- What is under a key, or a null where nothing is, has distinct keys. -/
theorem KeysDistinct.child_or_null {tree : Tree} (h : tree.KeysDistinct) (key : String) :
    ((tree.child? key).getD null).KeysDistinct := by
  cases hchild : tree.child? key with
  | none => trivial
  | some child => exact h.child hchild

/-- Below a null there is nothing. -/
theorem ne_null_of_at_keys {tree : Tree} {keys : List String} (h : tree.atKeys? keys = some value)
    (hvalue : value ≠ null) : tree ≠ null := by
  rintro rfl
  cases keys with
  | nil => exact hvalue (Option.some.inj h).symm
  | cons key rest => cases h

/-- Where the overlay goes on below a key, so does the merge, with what the base has there. -/
theorem at_keys_merge_cons {base overlay child : Tree} (hbase : base.KeysDistinct)
    (hoverlay : overlay.KeysDistinct) (hchild : overlay.child? key = some child)
    (hne : child ≠ null) (rest : List String) :
    (merge base overlay).atKeys? (key :: rest) =
      (merge ((base.child? key).getD null) child).atKeys? rest := by
  obtain ⟨entries, rfl, hget⟩ := exists_entries_of_child hchild
  have hnull : ¬ child.isNull = true := fun h ↦ hne (is_null_iff.1 h)
  rw [at_keys_cons, child_merge hbase hoverlay.1, hget]
  simp [hnull]

/-- What the overlay has at some keys is there in the merge, unless it is a null or a mapping. -/
theorem at_keys_merge_of_value {base overlay : Tree} (hbase : base.KeysDistinct)
    (hoverlay : overlay.KeysDistinct) {keys : List String}
    (hvalue : overlay.atKeys? keys = some value) (hnull : value ≠ null)
    (hentries : value.entries? = none) : (merge base overlay).atKeys? keys = some value := by
  -- The induction is over both trees, of which it takes the values under the first key.
  induction keys generalizing base overlay with
  | nil =>
      cases hvalue
      rw [merge_eq_overlay (.inr hentries)]
      rfl
  | cons key rest ih =>
      obtain ⟨child, hchild, hrest⟩ := Option.bind_eq_some_iff.1 hvalue
      rw [at_keys_merge_cons hbase hoverlay hchild (ne_null_of_at_keys hrest hnull)]
      exact ih (hbase.child_or_null key) (hoverlay.child hchild) hrest

/-- Where the overlay has a mapping without a key, the merge has under the key what the base has, be
it nothing. -/
theorem at_keys_merge_of_absent {base overlay : Tree} (hbase : base.KeysDistinct)
    (hoverlay : overlay.KeysDistinct) {above : List String} {entries : Entries Tree}
    (habove : overlay.atKeys? above = some (mapping entries)) (hkey : key ∉ Entries.keys entries)
    (rest : List String) :
    (merge base overlay).atKeys? (above ++ key :: rest) = base.atKeys? (above ++ key :: rest) := by
  induction above generalizing base overlay with
  | nil =>
      cases habove
      rw [List.nil_append, at_keys_cons, child_merge hbase hoverlay.1,
        Entries.get?_eq_none_iff.2 hkey]
      rfl
  | cons first above ih =>
      obtain ⟨child, hchild, hbelow⟩ := Option.bind_eq_some_iff.1 habove
      have hne : child ≠ null := ne_null_of_at_keys hbelow (by simp)
      rw [List.cons_append, at_keys_merge_cons hbase hoverlay hchild hne,
        ih (hbase.child_or_null first) (hoverlay.child hchild) hbelow, at_keys_cons]
      cases base.child? first with
      | some old => rfl
      | none => cases above <;> rfl

/-- A null of the overlay takes a key out of the merge if the base has a mapping for it to be in,
and stays there as a null if not. -/
theorem at_keys_merge_of_null {base overlay : Tree} (hbase : base.KeysDistinct)
    (hoverlay : overlay.KeysDistinct) {above : List String}
    (hnull : overlay.atKeys? (above ++ [key]) = some null) :
    (merge base overlay).atKeys? (above ++ [key]) =
      if ((base.atKeys? above).bind entries?).isSome then none else some null := by
  induction above generalizing base overlay with
  | nil =>
      obtain ⟨child, hchild, hrest⟩ := Option.bind_eq_some_iff.1 hnull
      cases hrest
      obtain ⟨entries, rfl, hget⟩ := exists_entries_of_child hchild
      rw [List.nil_append, at_keys_cons, child_merge hbase hoverlay.1, hget, at_keys_nil,
        Option.bind_some]
      cases base.entries? <;> rfl
  | cons first above ih =>
      obtain ⟨child, hchild, hbelow⟩ := Option.bind_eq_some_iff.1 hnull
      have hne : child ≠ null := by
        rintro rfl
        cases above <;> cases hbelow
      rw [List.cons_append, at_keys_merge_cons hbase hoverlay hchild hne,
        ih (hbase.child_or_null first) (hoverlay.child hchild) hbelow, at_keys_cons]
      cases base.child? first with
      | some old => rfl
      | none => cases above <;> rfl

/-- Two mappings merge key by key. The merge has the keys of the base that the overlay does not set
to null, in the order of the base, and then the other keys of the overlay that it does not set to
null, in the order of the overlay. A value of one side alone is there as it is, two mappings are
merged, and of any other two values that of the overlay counts. So every value of the overlay that
is neither null nor a mapping is in the merge at its keys, and where a mapping of the overlay lacks
a key, the merge has there what the base has, whatever that is. -/
theorem merge_key_by_key {base overlay : Entries Tree} (hbase : (mapping base).KeysDistinct)
    (hoverlay : (mapping overlay).KeysDistinct) :
    ∃ merged, merge (mapping base) (mapping overlay) = mapping merged ∧
      Entries.keys merged =
        (Entries.keys base).filter (fun key ↦ !removes overlay key) ++
          (Entries.keys overlay).filter
            (fun key ↦ !removes overlay key && key ∉ Entries.keys base) ∧
      (∀ key, Entries.get? key merged =
        match Entries.get? key base, Entries.get? key overlay with
        | old, none => old
        | _, some null => none
        | some (mapping old), some (mapping new) => some (merge (mapping old) (mapping new))
        | _, some new => some new) ∧
      (∀ keys value, (mapping overlay).atKeys? keys = some value → value ≠ null →
        value.entries? = none → (mapping merged).atKeys? keys = some value) ∧
      ∀ above entries key rest, (mapping overlay).atKeys? above = some (mapping entries) →
        key ∉ Entries.keys entries →
        (mapping merged).atKeys? (above ++ key :: rest) =
          (mapping base).atKeys? (above ++ key :: rest) := by
  refine ⟨mergeEntries base overlay, merge_mapping base overlay,
    keys_merge_entries hbase.1 hoverlay.1, fun key ↦ ?_, ?_, ?_⟩
  · rw [get?_merge_entries hbase.1 hoverlay.1, overlaid_eq]
  · intro keys value hvalue hnull hentries
    rw [← merge_mapping]
    exact at_keys_merge_of_value hbase hoverlay hvalue hnull hentries
  · intro above entries key rest habove hkey
    rw [← merge_mapping]
    exact at_keys_merge_of_absent hbase hoverlay habove hkey rest

/-- A document with a section, for the overlay below. -/
def sampleBase : Entries Tree :=
  [("service", mapping [("name", string "billing"), ("port", int 8443)]), ("stage", string "test")]

/-- An overlay that takes a key out of the section, adds another and brings a new section. -/
def sampleOverlay : Entries Tree :=
  [("extra", mapping [("level", int 1)]),
    ("service", mapping [("port", null), ("hosts", sequence [string "a"])])]

/-- The base of the sample has distinct keys. -/
theorem sample_base_distinct : (mapping sampleBase).KeysDistinct := by
  simp [sampleBase, KeysDistinct, EntriesDistinct, Entries.Distinct]

/-- The overlay of the sample has distinct keys. -/
theorem sample_overlay_distinct : (mapping sampleOverlay).KeysDistinct := by
  simp [sampleOverlay, KeysDistinct, EntriesDistinct, ItemsDistinct, Entries.Distinct]

/-- In the sample, the section stays before the new one, keeps its name and gets hosts. -/
theorem merge_key_by_key_sample :
    (mapping sampleBase).KeysDistinct ∧ (mapping sampleOverlay).KeysDistinct ∧
      ∃ merged, merge (mapping sampleBase) (mapping sampleOverlay) = mapping merged ∧
        Entries.keys merged = ["service", "stage", "extra"] ∧
        Entries.get? "extra" merged = some (mapping [("level", int 1)]) ∧
        (mapping merged).atKeys? ["service", "hosts"] = some (sequence [string "a"]) ∧
        (mapping merged).atKeys? ["service", "name"] = some (string "billing") := by
  obtain ⟨merged, hmerged, hkeys, hvalues, hgiven, hkept⟩ :=
    merge_key_by_key sample_base_distinct sample_overlay_distinct
  refine ⟨sample_base_distinct, sample_overlay_distinct, merged, hmerged, hkeys.trans (by rfl),
    (hvalues "extra").trans (by rfl), ?_, ?_⟩
  · exact hgiven ["service", "hosts"] _ rfl (by simp) rfl
  · exact hkept ["service"] _ "name" [] rfl (by simp)

/-- A null of the overlay takes its key out of the merge if the base has mappings all the way down
to the null. Where the base has none, what the overlay has there is taken as it is, and the null
stays in the merge under its key. -/
theorem null_removes_key {base overlay : Tree} (hbase : base.KeysDistinct)
    (hoverlay : overlay.KeysDistinct) {above : List String} {key : String}
    (hnull : overlay.atKeys? (above ++ [key]) = some null) :
    ((∃ entries, base.atKeys? above = some (mapping entries)) →
        (merge base overlay).atKeys? (above ++ [key]) = none) ∧
      ((¬ ∃ entries, base.atKeys? above = some (mapping entries)) →
        (merge base overlay).atKeys? (above ++ [key]) = some null) := by
  have hmerge := at_keys_merge_of_null hbase hoverlay hnull
  have hmapping : ((base.atKeys? above).bind entries?).isSome = true ↔
      ∃ entries, base.atKeys? above = some (mapping entries) := by
    simp [Option.isSome_iff_exists, Option.bind_eq_some_iff, entries?_eq_some_iff]
  rw [hmerge, ← hmapping]
  exact ⟨fun h ↦ if_pos h, fun h ↦ if_neg h⟩

/-- The null of the sample takes a key out of the section; over the empty document it stays. -/
theorem null_removes_key_sample :
    (mapping sampleOverlay).atKeys? ["service", "port"] = some null ∧
      (merge (mapping sampleBase) (mapping sampleOverlay)).atKeys? ["service", "port"] = none ∧
      (merge (mapping []) (mapping sampleOverlay)).atKeys? ["service", "port"] = some null := by
  have hnull : (mapping sampleOverlay).atKeys? (["service"] ++ ["port"]) = some null := rfl
  have hempty : (mapping []).KeysDistinct := ⟨List.nodup_nil, trivial⟩
  obtain ⟨hremoves, _⟩ := null_removes_key sample_base_distinct sample_overlay_distinct hnull
  obtain ⟨_, hkeeps⟩ := null_removes_key hempty sample_overlay_distinct hnull
  exact ⟨hnull, hremoves ⟨_, rfl⟩, hkeeps fun ⟨_, h⟩ ↦ nomatch h⟩

/-- It is not so that a null of the overlay always takes its key out: the null in a section that the
base does not have is there in the merge. -/
theorem null_without_counterpart_stays :
    ¬ ∀ (base overlay : Entries Tree) (keys : List String), (mapping base).KeysDistinct →
      (mapping overlay).KeysDistinct → (mapping overlay).atKeys? keys = some null →
      (merge (mapping base) (mapping overlay)).atKeys? keys = none := by
  intro hremoves
  have hempty : (mapping []).KeysDistinct := ⟨List.nodup_nil, trivial⟩
  have hsection : (mapping [("a", mapping [("b", null), ("c", int 1)])]).KeysDistinct := by
    simp [KeysDistinct, EntriesDistinct, Entries.Distinct]
  have hnone := hremoves [] _ ["a", "b"] hempty hsection rfl
  have hstays : (merge (mapping []) (mapping [("a", mapping [("b", null), ("c", int 1)])])).atKeys?
      ["a", "b"] = some null := rfl
  rw [hstays] at hnone
  cases hnone

end ConfigFill.Tree
