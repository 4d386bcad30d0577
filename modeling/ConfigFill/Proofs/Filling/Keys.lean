import ConfigFill.Proofs.Document.Loading
import ConfigFill.Proofs.Filling.Places
import ConfigFill.Proofs.Resolution.Replacement

/-!
# The keys of a filled tree

Filling puts texts, mappings of texts and JSON documents in the places of placeholders, and no mapping
of these has a key twice (`keys_distinct_of_replacement`). The keys of the tree itself stay
(`EntriesFilled.keys_eq`). So no mapping of a filled tree has a key twice if none of the tree has, and
documents that are loaded have none: `keys_distinct_of_load_fill` says it of the whole way from files
to a filled tree.
-/

namespace ConfigFill

/-- What holds of every value that a step can have holds of all the values gathered over a list. -/
theorem Effect.forall_of_map_m_ok {ε α ι : Type} {P : α → Prop} {step : ι → Effect ε α}
    (hstep : ∀ item earlier value, (step item earlier).2 = .ok value → P value) {items : List ι}
    {earlier : List String} {values : List α} (h : (items.mapM step earlier).2 = .ok values) :
    ∀ value ∈ values, P value := by
  -- The induction is over all queries before, which the first step adds to.
  induction items generalizing earlier values with
  | nil =>
      cases h
      exact fun _ hmem ↦ absurd hmem List.not_mem_nil
  | cons item rest ih =>
      rw [List.mapM_cons] at h
      rcases hfirst : step item earlier with ⟨events, failure | first⟩
      · rw [bind_apply_error hfirst] at h
        cases h
      · rw [bind_apply_ok hfirst] at h
        rcases hrest : rest.mapM step (earlier ++ events.queries) with ⟨later, failure | others⟩
        · rw [bind_apply_error hrest] at h
          cases h
        · rw [bind_apply_ok hrest] at h
          cases h
          refine List.forall_mem_cons.2 ⟨?_, ih (congrArg Prod.snd hrest)⟩
          exact hstep item earlier first (congrArg Prod.snd hfirst)

namespace Resolution

/-- No mapping of a document that the text of a parameter holds has a key twice. -/
theorem keys_distinct_of_decoded_text {path raw : String} {value : Tree}
    (h : decodedText path raw = .ok value) : value.KeysDistinct := by
  unfold decodedText at h
  split at h
  · cases h
  · cases h
  · rename_i tree _ hparse
    cases h
    unfold normalized
    split
    · exact ⟨List.nodup_singleton _, trivial, trivial⟩
    · exact (Json.fits_of_parse hparse).keysDistinct

end Resolution

namespace Placeholder

variable {environment : Environment} {store : Store} {placeholder : Placeholder}
  {earlier : List String} {path : String} {value : Tree}

/-- What a placeholder makes of a value has no key twice in a mapping if the value has none. -/
theorem keys_distinct_of_applied {found : Tree} (hfound : found.KeysDistinct)
    (h : placeholder.applied path found = .ok value) : value.KeysDistinct := by
  unfold applied at h
  split at h
  · unfold appended at h
    split at h
    · cases h
      trivial
    · cases h
  · split at h
    · unfold Resolution.decoded at h
      split at h
      · exact Resolution.keys_distinct_of_decoded_text h
      · cases h
    · cases h
      exact hfound

/-- No mapping of what goes in place of a placeholder has a key twice. -/
theorem keys_distinct_of_replacement
    (h : (placeholder.replacement environment store earlier).2 = .ok value) :
    value.KeysDistinct := by
  rw [replacement_ending] at h
  obtain ⟨path, _, h⟩ := Except.bind_eq_ok_iff.1 h
  obtain ⟨found, hfound, h⟩ := Except.bind_eq_ok_iff.1 h
  exact keys_distinct_of_applied (Store.leafy_of_lookup hfound).keys_distinct h

end Placeholder

namespace Tree

/-- Filling entries keeps their keys and the order of these. -/
theorem EntriesFilled.keys_eq {entries filled : List (String × Tree)} {values : List Tree}
    (h : EntriesFilled entries values filled) : Entries.keys filled = Entries.keys entries := by
  cases h with
  | nil => rfl
  | cons key _ tail => exact congrArg (key :: ·) tail.keys_eq

mutual

/-- No mapping of a filled tree has a key twice if none of the tree and none of the values has. -/
theorem Filled.keys_distinct {tree filled : Tree} {values : List Tree}
    (h : Filled tree values filled) (htree : tree.KeysDistinct)
    (hvalues : ∀ value ∈ values, value.KeysDistinct) : filled.KeysDistinct := by
  cases h with
  | placeholder _ _ => exact hvalues filled List.mem_cons_self
  | text _ | null | bool _ | int _ | float _ => trivial
  | sequence h => exact h.keys_distinct htree hvalues
  | mapping h =>
      refine ⟨?_, h.keys_distinct htree.2 hvalues⟩
      rw [Entries.Distinct, h.keys_eq]
      exact htree.1

/-- The same of items. -/
theorem ItemsFilled.keys_distinct {items filled values : List Tree}
    (h : ItemsFilled items values filled) (hitems : ItemsDistinct items)
    (hvalues : ∀ value ∈ values, value.KeysDistinct) : ItemsDistinct filled := by
  cases h with
  | nil => trivial
  | cons head tail =>
      rw [List.forall_mem_append] at hvalues
      exact ⟨head.keys_distinct hitems.1 hvalues.1, tail.keys_distinct hitems.2 hvalues.2⟩

/-- The same of the values of entries. -/
theorem EntriesFilled.keys_distinct {entries filled : List (String × Tree)} {values : List Tree}
    (h : EntriesFilled entries values filled) (hentries : EntriesDistinct entries)
    (hvalues : ∀ value ∈ values, value.KeysDistinct) : EntriesDistinct filled := by
  cases h with
  | nil => trivial
  | cons key head tail =>
      rw [List.forall_mem_append] at hvalues
      exact ⟨head.keys_distinct hentries.1 hvalues.1, tail.keys_distinct hentries.2 hvalues.2⟩

end

variable {environment : Environment} {store : Store} {earlier : List String}

/-- Filling a tree gives none of its mappings a key twice. -/
theorem keys_distinct_of_fill {tree filled : Tree} (htree : tree.KeysDistinct)
    (h : (tree.fill environment store earlier).2 = .ok filled) : filled.KeysDistinct := by
  obtain ⟨values, hvalues, hfilled⟩ := exists_values_of_fill h
  refine hfilled.keys_distinct htree (Effect.forall_of_map_m_ok ?_ hvalues)
  exact fun entry past value hvalue ↦ Placeholder.keys_distinct_of_replacement hvalue

/-- From files to a filled tree, no mapping has a key twice: neither in the merged documents nor in
what filling them gives, whatever the files hold and the store answers. -/
theorem keys_distinct_of_load_fill {files : Files} {paths : List String} {tree : Tree}
    (htree : (Document.loadMerged files paths).start.2 = .ok tree) :
    tree.KeysDistinct ∧
      ∀ environment store earlier filled, (tree.fill environment store earlier).2 = .ok filled →
        filled.KeysDistinct :=
  have hkeys := Document.keys_distinct_of_load_merged htree
  ⟨hkeys, fun _ _ _ _ ↦ keys_distinct_of_fill hkeys⟩

end Tree

end ConfigFill
