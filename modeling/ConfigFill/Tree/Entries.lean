/-!
# Entries of a mapping

A mapping is the list of its entries in the order in which their keys first came. `put` keeps the
place of a key that is there and appends a new one; `erase` keeps the order of what stays. The main
statements say what a look-up finds after each operation (`get?_put`, `get?_erase`) and that the
operations keep the keys distinct (`Distinct.put`, `Distinct.erase`).
-/

namespace ConfigFill

/-- Entries of a mapping in insertion order. -/
abbrev Entries (α : Type) := List (String × α)

namespace Entries

variable {α : Type}

/-- The keys in order. -/
def keys (entries : Entries α) : List String :=
  entries.map Prod.fst

/-- No key occurs twice. -/
def Distinct (entries : Entries α) : Prop :=
  (keys entries).Nodup

/-- The value under a key. -/
def get? (key : String) : Entries α → Option α
  | [] => none
  | (name, value) :: rest => if name = key then some value else get? key rest

/-- Set the value under a key, in its place if the key is there and at the end otherwise. -/
def put (key : String) (value : α) : Entries α → Entries α
  | [] => [(key, value)]
  | (name, old) :: rest =>
      if name = key then (name, value) :: rest else (name, old) :: put key value rest

/-- Take the entry of a key out. -/
def erase (key : String) : Entries α → Entries α
  | [] => []
  | (name, value) :: rest => if name = key then rest else (name, value) :: erase key rest

/-- The entries after setting each pair in turn: a repeated key keeps its first place and takes its
last value. -/
def ofPairs (pairs : List (String × α)) : Entries α :=
  pairs.foldl (fun entries pair ↦ put pair.1 pair.2 entries) []

/-- No entries have no keys. -/
@[simp]
theorem keys_nil : keys ([] : Entries α) = [] :=
  rfl

/-- The key of the first entry comes first. -/
@[simp]
theorem keys_cons (entry : String × α) (rest : Entries α) :
    keys (entry :: rest) = entry.1 :: keys rest :=
  rfl

/-- A look-up finds nothing exactly when the key is not there. -/
theorem get?_eq_none_iff {key : String} {entries : Entries α} :
    get? key entries = none ↔ key ∉ keys entries := by
  induction entries with
  | nil => simp [get?]
  | cons entry rest ih =>
      by_cases h : entry.1 = key
      · simp [get?, h]
      · have h' : ¬ key = entry.1 := fun e ↦ h e.symm
        simp [get?, h, h', ih]

/-- What a look-up finds is there. -/
theorem mem_of_get? {key : String} {value : α} {entries : Entries α}
    (h : get? key entries = some value) : (key, value) ∈ entries := by
  induction entries with
  | nil => simp [get?] at h
  | cons entry rest ih =>
      obtain ⟨name, old⟩ := entry
      simp only [get?] at h
      split at h
      · rename_i hname
        cases h
        simp [hname]
      · exact List.mem_cons_of_mem _ (ih h)

/-- In entries with distinct keys, a look-up finds what is there. -/
theorem Distinct.get?_of_mem {entries : Entries α} (h : Distinct entries) {key : String} {value : α}
    (hmem : (key, value) ∈ entries) : get? key entries = some value := by
  induction entries with
  | nil => cases hmem
  | cons entry rest ih =>
      obtain ⟨name, old⟩ := entry
      have hn : name ∉ keys rest ∧ Distinct rest := by simpa [Distinct] using h
      rcases List.mem_cons.1 hmem with heq | hrest
      · cases heq
        simp [get?]
      · have hne : ¬ name = key := by
          rintro rfl
          exact hn.1 (List.mem_map_of_mem hrest)
        simpa [get?, hne] using ih hn.2 hrest

/-- An entry after `put` is the one set or was there before. -/
theorem mem_put {key : String} {value : α} {entries : Entries α} {entry : String × α}
    (h : entry ∈ put key value entries) : entry = (key, value) ∨ entry ∈ entries := by
  induction entries with
  | nil => simpa [put] using h
  | cons first rest ih =>
      obtain ⟨name, old⟩ := first
      simp only [put] at h
      split at h
      · rename_i hname
        rcases List.mem_cons.1 h with h | h
        · exact .inl (hname ▸ h)
        · exact .inr (List.mem_cons_of_mem _ h)
      · rcases List.mem_cons.1 h with h | h
        · exact .inr (h ▸ List.mem_cons_self)
        · exact (ih h).imp id (List.mem_cons_of_mem _)

/-- There is an entry after `put`. -/
theorem put_ne_nil (key : String) (value : α) (entries : Entries α) : put key value entries ≠ [] := by
  cases entries with
  | nil => simp [put]
  | cons first rest =>
      simp only [put]
      split <;> simp

/-- After `put`, the key has the new value and every other key what it had. -/
theorem get?_put (key other : String) (value : α) (entries : Entries α) :
    get? other (put key value entries) =
      if key = other then some value else get? other entries := by
  induction entries with
  | nil => simp [put, get?]
  | cons entry rest ih =>
      obtain ⟨name, old⟩ := entry
      by_cases h : name = key
      · subst h
        by_cases ho : name = other <;> simp [put, get?, ho]
      · by_cases ho : name = other
        · subst ho
          have hk : ¬ key = name := fun e ↦ h e.symm
          simp [put, get?, h, hk]
        · simp [put, get?, h, ho, ih]

/-- `put` leaves the keys as they are, but for a new key at the end. -/
theorem keys_put (key : String) (value : α) (entries : Entries α) :
    keys (put key value entries) =
      if key ∈ keys entries then keys entries else keys entries ++ [key] := by
  induction entries with
  | nil => simp [put]
  | cons entry rest ih =>
      obtain ⟨name, old⟩ := entry
      by_cases h : name = key
      · subst h
        simp [put]
      · have hk : ¬ key = name := fun e ↦ h e.symm
        by_cases hm : key ∈ keys rest <;> simp [put, h, hk, ih, hm]

/-- Setting the value that a key has changes nothing. -/
theorem put_of_get? {key : String} {value : α} {entries : Entries α}
    (h : get? key entries = some value) : put key value entries = entries := by
  induction entries with
  | nil => cases h
  | cons entry rest ih =>
      obtain ⟨name, old⟩ := entry
      by_cases hname : name = key
      · obtain rfl : old = value := by simpa [get?, hname] using h
        simp [put, hname]
      · have hrest : get? key rest = some value := by simpa [get?, hname] using h
        simp [put, hname, ih hrest]

/-- `erase` takes the key out of the keys. -/
theorem keys_erase (key : String) (entries : Entries α) :
    keys (erase key entries) = (keys entries).erase key := by
  induction entries with
  | nil => simp [erase]
  | cons entry rest ih =>
      obtain ⟨name, value⟩ := entry
      by_cases h : name = key
      · subst h
        simp [erase]
      · simp [erase, h, ih]

/-- Setting a value keeps distinct keys distinct. -/
theorem Distinct.put {entries : Entries α} (h : Distinct entries) (key : String) (value : α) :
    Distinct (put key value entries) := by
  unfold Distinct at h ⊢
  rw [keys_put]
  split
  · exact h
  · rename_i hk
    rw [List.nodup_append]
    refine ⟨h, by simp, ?_⟩
    intro a ha b hb
    rw [List.mem_singleton] at hb
    exact fun e ↦ hk (hb ▸ e ▸ ha)

/-- Taking an entry out keeps distinct keys distinct. -/
theorem Distinct.erase {entries : Entries α} (h : Distinct entries) (key : String) :
    Distinct (erase key entries) := by
  unfold Distinct at h ⊢
  rw [keys_erase]
  exact List.Nodup.erase key h

/-- In entries with distinct keys, `erase` hides its key and no other. -/
theorem get?_erase {entries : Entries α} (h : Distinct entries) (key other : String) :
    get? other (erase key entries) = if key = other then none else get? other entries := by
  induction entries with
  | nil => simp [erase, get?]
  | cons entry rest ih =>
      obtain ⟨name, value⟩ := entry
      have hn : name ∉ keys rest ∧ Distinct rest := by simpa [Distinct] using h
      by_cases hk : name = key
      · subst hk
        by_cases ho : name = other
        · subst ho
          simpa [erase] using get?_eq_none_iff.2 hn.1
        · simp [erase, get?, ho]
      · by_cases ho : name = other
        · subst ho
          have h' : ¬ key = name := fun e ↦ hk e.symm
          simp [erase, get?, hk, h']
        · simp [erase, get?, hk, ho, ih hn.2]

/-- A new key goes to the end. -/
theorem put_of_not_mem {key : String} {entries : Entries α} (h : key ∉ keys entries) (value : α) :
    put key value entries = entries ++ [(key, value)] := by
  induction entries with
  | nil => rfl
  | cons entry rest ih =>
      obtain ⟨name, old⟩ := entry
      rw [keys_cons, List.mem_cons, not_or] at h
      have hname : ¬ name = key := fun heq ↦ h.1 heq.symm
      simp [put, hname, ih h.2]

/-- Setting pairs with distinct keys in turn gives just these pairs. -/
theorem of_pairs_of_distinct {pairs : Entries α} (h : Distinct pairs) : ofPairs pairs = pairs := by
  suffices hfold : ∀ entries : Entries α, Distinct (entries ++ pairs) →
      pairs.foldl (fun entries pair ↦ put pair.1 pair.2 entries) entries = entries ++ pairs from
    hfold [] h
  clear h
  induction pairs with
  | nil => simp
  | cons pair rest ih =>
      intro entries hdistinct
      have hnew : pair.1 ∉ keys entries := by
        unfold Distinct keys at hdistinct
        rw [List.map_append, List.nodup_append] at hdistinct
        exact fun hmem ↦ hdistinct.2.2 _ hmem pair.1 (by simp) rfl
      have happended : entries ++ [pair] ++ rest = entries ++ pair :: rest := by simp
      rw [List.foldl_cons, put_of_not_mem hnew, ih _ (happended ▸ hdistinct), happended]

/-- Entries built by setting pairs have distinct keys. -/
theorem distinct_of_pairs (pairs : List (String × α)) : Distinct (ofPairs pairs) := by
  suffices h : ∀ entries : Entries α, Distinct entries →
      Distinct (pairs.foldl (fun entries pair ↦ put pair.1 pair.2 entries) entries) from
    h [] (by simp [Distinct])
  induction pairs with
  | nil => exact fun _ h ↦ h
  | cons pair rest ih => exact fun entries h ↦ ih _ (h.put pair.1 pair.2)

end Entries

end ConfigFill
