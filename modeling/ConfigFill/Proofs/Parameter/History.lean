import ConfigFill.Proofs.Parameter.Table
import ConfigFill.Proofs.Text.ByteOrder
import Mathlib.Data.Finset.Card

/-!
# What a table holds after any changes

A table is changed by setting values and by taking the table of a parameters file in its place.
However often that is done, the table holds the last value set for each name since it was last
replaced: `Holds` says so, and every way of setting values keeps it (`Holds.insert`,
`Holds.insert_all`). `Refused` tells the parameters files that are refused, and why. The main
statement is `holds_latest`.
-/

namespace ConfigFill

/-- The tree is a text, a number or a boolean. -/
def Tree.isScalar : Tree → Bool
  | .string _ | .int _ | .float _ | .bool _ => true
  | _ => false

namespace Parameter

open Parameter.Path

/-- The pairs give the name the value, and no later pair gives it one. -/
def IsLatest (pairs : List (String × String)) (name value : String) : Prop :=
  ∃ before after, pairs = before ++ (name, value) :: after ∧ name ∉ after.map Prod.fst

variable {pairs : List (String × String)} {name value : String} {parameter : Parameter}

/-- Nothing was written last in an empty history. -/
theorem not_is_latest_nil : ¬ IsLatest [] name value := by
  rintro ⟨before, after, heq, _⟩
  simp at heq

/-- A value was written last if it is that of the last pair, or if that pair is about another name
and the value was written last before. -/
theorem is_latest_concat (pair : String × String) :
    IsLatest (pairs ++ [pair]) name value ↔
      pair = (name, value) ∨ pair.1 ≠ name ∧ IsLatest pairs name value := by
  constructor
  · rintro ⟨before, after, heq, hlast⟩
    rcases List.eq_nil_or_concat after with rfl | ⟨middle, last, rfl⟩
    · have hpair : [pair] = [(name, value)] := List.append_inj_right' heq rfl
      exact .inl (List.cons.inj hpair).1
    · have hpairs : pairs = before ++ (name, value) :: middle ∧ [pair] = [last] :=
        List.append_inj' (by simpa using heq) rfl
      obtain rfl : pair = last := (List.cons.inj hpairs.2).1
      rw [List.concat_eq_append, List.map_append, List.mem_append, not_or] at hlast
      refine .inr ⟨?_, before, middle, hpairs.1, hlast.1⟩
      rintro rfl
      exact hlast.2 (by simp)
  · rintro (rfl | ⟨hne, before, after, rfl, hlast⟩)
    · exact ⟨pairs, [], rfl, by simp⟩
    · refine ⟨before, after ++ [pair], by simp, ?_⟩
      simpa [hlast] using Ne.symm hne

/-- Every name that is given a value has a latest one. -/
theorem exists_is_latest_iff :
    (∃ value, IsLatest pairs name value) ↔ name ∈ pairs.map Prod.fst := by
  induction pairs using List.reverseRecOn with
  | nil => simp [not_is_latest_nil]
  | append_singleton pairs pair ih =>
      obtain ⟨other, value⟩ := pair
      simp only [is_latest_concat, List.map_append, List.mem_append, ← ih]
      by_cases hname : other = name
      · simp [hname]
      · simp [hname, Ne.symm hname]

/-- Where no name is given two values, the value of a name is the latest. -/
theorem is_latest_iff_mem (h : (pairs.map Prod.fst).Nodup) :
    IsLatest pairs name value ↔ (name, value) ∈ pairs := by
  constructor
  · rintro ⟨before, after, rfl, _⟩
    simp
  · intro hmem
    obtain ⟨before, after, rfl⟩ := List.append_of_mem hmem
    refine ⟨before, after, rfl, fun hlater ↦ ?_⟩
    rw [List.map_append, List.map_cons, List.nodup_append] at h
    exact (List.nodup_cons.1 h.2.1).1 hlater

/-- Placing a parameter among others takes the place of the one of its name. -/
theorem mem_place_iff {parameters : List Parameter} (h : parameters.Pairwise (·.name < ·.name)) :
    parameter ∈ place name value parameters ↔
      parameter = ⟨name, value⟩ ∨ parameter.name ≠ name ∧ parameter ∈ parameters := by
  induction parameters with
  | nil => simp [place]
  | cons first rest ih =>
      obtain ⟨hfirst, hrest⟩ := List.pairwise_cons.1 h
      simp only [place]
      split
      · rename_i hlt
        have hne (hmem : parameter ∈ first :: rest) : parameter.name ≠ name := by
          rcases List.mem_cons.1 hmem with rfl | hmem
          · exact (Std.ne_of_lt hlt).symm
          · exact (Std.ne_of_lt (String.lt_trans hlt (hfirst parameter hmem))).symm
        rw [List.mem_cons]
        exact or_congr_right (iff_and_self.2 hne)
      · split
        · rename_i heq
          have hne (hmem : parameter ∈ rest) : parameter.name ≠ name :=
            heq ▸ (Std.ne_of_lt (hfirst parameter hmem)).symm
          have hfirst : parameter = first → ¬ parameter.name ≠ name := by
            rintro rfl
            exact not_not.2 heq.symm
          rw [List.mem_cons, List.mem_cons]
          refine or_congr_right ⟨fun hmem ↦ ⟨hne hmem, .inr hmem⟩, fun hboth ↦ ?_⟩
          exact hboth.2.resolve_left fun heq ↦ hfirst heq hboth.1
        · rename_i hname
          have hfirst : parameter = first → parameter.name ≠ name := by
            rintro rfl
            exact Ne.symm hname
          rw [List.mem_cons, List.mem_cons, ih hrest, and_or_left, and_iff_right_of_imp hfirst,
            or_left_comm]

namespace Table

variable {table other : Table}

/-- A table is known by its parameters, since their order is given. -/
theorem ext_mem (h : ∀ parameter, parameter ∈ table.parameters ↔ parameter ∈ other.parameters) :
    table = other := by
  have hirrefl (parameters : List Parameter) (hascending : parameters.Pairwise (·.name < ·.name)) :
      parameters.Nodup :=
    hascending.imp fun hlt heq ↦ Std.ne_of_lt hlt (congrArg Parameter.name heq)
  have hperm : table.parameters.Perm other.parameters :=
    (List.perm_ext_iff_of_nodup (hirrefl _ table.ascending) (hirrefl _ other.ascending)).2 h
  have hparameters : table.parameters = other.parameters :=
    hperm.eq_of_pairwise (fun _ _ _ _ hlt hgt ↦ absurd hgt (String.lt_asymm hlt))
      table.ascending other.ascending
  obtain ⟨parameters, _⟩ := table
  obtain ⟨others, _⟩ := other
  cases hparameters
  rfl

/-- The table has just the names that the pairs give a value, each with the latest one. -/
def Holds (table : Table) (pairs : List (String × String)) : Prop :=
  ∀ parameter, parameter ∈ table.parameters ↔ IsLatest pairs parameter.name parameter.value

/-- The empty table holds what nothing wrote. -/
theorem Holds.empty : Holds empty [] := by
  intro parameter
  simp [Table.empty, not_is_latest_nil]

/-- Setting a value makes it the latest of its name. -/
theorem Holds.insert (h : Holds table pairs) (name value : String) :
    Holds (table.insert name value) (pairs ++ [(name, value)]) := by
  intro parameter
  have hname : (name, value) = (parameter.name, parameter.value) ↔ parameter = ⟨name, value⟩ := by
    obtain ⟨_, _⟩ := parameter
    simp [eq_comm]
  rw [is_latest_concat, ← h, hname, ne_comm]
  exact mem_place_iff table.ascending

/-- Setting values in order makes each the latest of its name, unless a later one is. -/
theorem Holds.insert_all (h : Holds table pairs) (more : List (String × String)) :
    Holds (table.insertAll more) (pairs ++ more) := by
  induction more using List.reverseRecOn with
  | nil => simpa [Table.insertAll] using h
  | append_singleton more pair ih =>
      rw [Table.insertAll, List.foldl_concat, ← List.append_assoc]
      exact ih.insert pair.1 pair.2

/-- Values of different names may be set in any order. -/
theorem insert_all_perm {order : List (String × String)} (h : (pairs.map Prod.fst).Nodup)
    (horder : order.Perm pairs) : empty.insertAll order = empty.insertAll pairs := by
  refine ext_mem fun parameter ↦ ?_
  have hnodup : (order.map Prod.fst).Nodup := (horder.map Prod.fst).nodup_iff.2 h
  rw [Holds.empty.insert_all order, Holds.empty.insert_all pairs, List.nil_append, List.nil_append,
    is_latest_iff_mem hnodup, is_latest_iff_mem h, horder.mem_iff]

/-- There are as many parameters as names that have been given a value. -/
theorem Holds.size_eq (h : Holds table pairs) :
    table.size = (pairs.map Prod.fst).toFinset.card := by
  have hnodup : (table.parameters.map (·.name)).Nodup := by
    rw [List.Nodup, List.pairwise_map]
    exact table.ascending.imp Std.ne_of_lt
  have hnames : (table.parameters.map (·.name)).toFinset = (pairs.map Prod.fst).toFinset := by
    ext name
    rw [List.mem_toFinset, List.mem_toFinset, ← exists_is_latest_iff, List.mem_map]
    constructor
    · rintro ⟨parameter, hmem, rfl⟩
      exact ⟨_, (h parameter).1 hmem⟩
    · rintro ⟨value, hlatest⟩
      exact ⟨⟨name, value⟩, (h _).2 hlatest, rfl⟩
  rw [← hnames, List.toFinset_card_of_nodup hnodup, List.length_map, size]

/-- The answer to a path is in the order of the bytes of names. -/
theorem below_ascending (table : Table) (path : String) :
    (table.below path).Pairwise (fun first second ↦
      Text.bytes first.name < Text.bytes second.name) :=
  (table.ascending.sublist List.filter_sublist).imp Text.bytes_lt

/-! ### Parameters files -/

/-- The entry of a parameters file can be kept: its name is absolute and its value a scalar. -/
def IsKept (entry : String × Tree) : Prop :=
  entry.1.toList.head? = some '/' ∧ entry.2.isScalar = true

instance : DecidablePred IsKept :=
  fun _ ↦ inferInstanceAs (Decidable (_ ∧ _))

/-- What the entry of a parameters file sets: a text as it is, and another scalar as its text. -/
def setting (entry : String × Tree) : String × String :=
  (entry.1, entry.2.text)

/-- Why a tree is refused as a parameters file: it is no mapping, or its first entry that cannot be
kept has a name that is not absolute, or a value that is no scalar. -/
inductive Refused : Tree → Failure → Prop where
  | kind {file : Tree} (h : file.entries? = none) :
      Refused file (.of
        (.parse s!"Parameters file must be a mapping of names to values, got {file.kind}"))
  | name {before after : List (String × Tree)} {name : String} {value : Tree}
      (hbefore : ∀ entry ∈ before, IsKept entry) (hname : name.toList.head? ≠ some '/') :
      Refused (.mapping (before ++ (name, value) :: after))
        (.of (.parse s!"Parameter name must start with /: {name}"))
  | value {before after : List (String × Tree)} {name : String} {value : Tree}
      (hbefore : ∀ entry ∈ before, IsKept entry) (hname : name.toList.head? = some '/')
      (hvalue : value.isScalar = false) :
      Refused (.mapping (before ++ (name, value) :: after))
        (.of (.parse s!"Parameter '{name}' must be a scalar, got {value.kind}"))

/-- An entry that is kept has the value that it sets. -/
theorem value_of_kept {entry : String × Tree} (h : IsKept entry) :
    valueOf entry.1 entry.2 = .ok (setting entry).2 := by
  obtain ⟨name, value⟩ := entry
  obtain ⟨hname, hvalue⟩ := h
  unfold valueOf
  rw [if_neg (not_not.2 hname)]
  cases value with
  | string _ | int _ | float _ | bool _ => rfl
  | null | sequence _ | mapping _ => cases hvalue

/-- A name that does not begin with a slash is refused. -/
theorem value_of_relative {name : String} (hname : name.toList.head? ≠ some '/') (value : Tree) :
    valueOf name value = .error (.of (.parse s!"Parameter name must start with /: {name}")) := by
  unfold valueOf
  rw [if_pos hname]

/-- A value that is no scalar is refused under a name that begins with a slash. -/
theorem value_of_no_scalar {name : String} {value : Tree} (hname : name.toList.head? = some '/')
    (hvalue : value.isScalar = false) :
    valueOf name value =
      .error (.of (.parse s!"Parameter '{name}' must be a scalar, got {value.kind}")) := by
  unfold valueOf
  rw [if_neg (not_not.2 hname)]
  cases value with
  | string _ | int _ | float _ | bool _ => cases hvalue
  | null | sequence _ | mapping _ => rfl

/-- Entries that can be kept are set in order, and then come the others. -/
theorem insert_entries_append {before : List (String × Tree)}
    (hbefore : ∀ entry ∈ before, IsKept entry) (table : Table) (others : List (String × Tree)) :
    insertEntries table (before ++ others) =
      insertEntries (table.insertAll (before.map setting)) others := by
  induction before generalizing table with
  | nil => rfl
  | cons entry rest ih =>
      have hentry := value_of_kept (hbefore entry List.mem_cons_self)
      rw [List.cons_append, insertEntries, hentry]
      exact ih (fun other hother ↦ hbefore other (List.mem_cons_of_mem _ hother)) _

/-- Entries that are all kept are all set, one after the other. -/
theorem insert_entries_kept {entries : List (String × Tree)}
    (h : ∀ entry ∈ entries, IsKept entry) (table : Table) :
    insertEntries table entries = .ok (table.insertAll (entries.map setting)) := by
  simpa [insertEntries] using insert_entries_append h table []

/-- The first entry that is refused fails the whole. -/
theorem insert_entries_refused {before after : List (String × Tree)} {entry : String × Tree}
    {failure : Failure} (hbefore : ∀ entry ∈ before, IsKept entry)
    (h : valueOf entry.1 entry.2 = .error failure) (table : Table) :
    insertEntries table (before ++ entry :: after) = .error failure := by
  rw [insert_entries_append hbefore, insertEntries, h]
  rfl

/-- A file that is refused gives no table. -/
theorem Refused.of_tree {file : Tree} {failure : Failure} (h : Refused file failure) :
    ofTree file = .error failure := by
  cases h with
  | kind h => cases file <;> first | rfl | cases h
  | @name before after name value hbefore hname =>
      have hentry := value_of_relative hname value
      exact @insert_entries_refused before after (name, value) _ hbefore hentry empty
  | @value before after name value hbefore hname hvalue =>
      have hentry := value_of_no_scalar hname hvalue
      exact @insert_entries_refused before after (name, value) _ hbefore hentry empty

/-- A file is refused unless it is a mapping of entries that can all be kept. -/
theorem kept_or_refused (file : Tree) :
    (∃ entries, file = .mapping entries ∧ ∀ entry ∈ entries, IsKept entry) ∨
      ∃ failure, Refused file failure := by
  cases file with
  | null | bool _ | int _ | float _ | string _ | sequence _ => exact .inr ⟨_, .kind rfl⟩
  | mapping entries =>
      cases hfind : entries.find? fun entry ↦ !decide (IsKept entry) with
      | none => exact .inl ⟨entries, rfl, by simpa using hfind⟩
      | some entry =>
          obtain ⟨hentry, before, after, rfl, hbefore⟩ := List.find?_eq_some_iff_append.1 hfind
          have hbefore : ∀ entry ∈ before, IsKept entry := by simpa using hbefore
          obtain ⟨name, value⟩ := entry
          by_cases hname : name.toList.head? = some '/'
          · have hvalue : value.isScalar = false := by simpa [IsKept, hname] using hentry
            exact .inr ⟨_, .value hbefore hname hvalue⟩
          · exact .inr ⟨_, .name hbefore hname⟩

/-- A file whose entries are all kept makes a table of them. -/
theorem of_tree_kept {entries : List (String × Tree)} (h : ∀ entry ∈ entries, IsKept entry) :
    ofTree (.mapping entries) = .ok (empty.insertAll (entries.map setting)) :=
  insert_entries_kept h empty

/-- A mapping that is refused has an entry that cannot be kept. -/
theorem Refused.not_kept {entries : List (String × Tree)} {failure : Failure}
    (h : Refused (.mapping entries) failure) : ¬ ∀ entry ∈ entries, IsKept entry := by
  intro hkept
  cases h.of_tree.symm.trans (of_tree_kept hkept)

/-- A file makes a table exactly if it is a mapping whose entries are all kept. -/
theorem of_tree_eq_ok_iff {file : Tree} :
    ofTree file = .ok table ↔
      ∃ entries, file = .mapping entries ∧ (∀ entry ∈ entries, IsKept entry) ∧
        table = empty.insertAll (entries.map setting) := by
  constructor
  · intro h
    obtain ⟨entries, rfl, hkept⟩ | ⟨failure, hrefused⟩ := kept_or_refused file
    · exact ⟨entries, rfl, hkept, Except.ok.inj (h.symm.trans (of_tree_kept hkept))⟩
    · cases h.symm.trans hrefused.of_tree
  · rintro ⟨entries, rfl, hkept, rfl⟩
    exact of_tree_kept hkept

/-- A file fails to make a table exactly if it is refused, and with that failure. -/
theorem of_tree_eq_error_iff {file : Tree} {failure : Failure} :
    ofTree file = .error failure ↔ Refused file failure := by
  constructor
  · intro h
    obtain ⟨entries, rfl, hkept⟩ | ⟨other, hrefused⟩ := kept_or_refused file
    · cases h.symm.trans (of_tree_kept hkept)
    · cases h.symm.trans hrefused.of_tree
      exact hrefused
  · exact Refused.of_tree

/-! ### Changes -/

/-- One way to change a table: set a value, or take the table of a parameters file in its place. -/
inductive Change where
  | insert (name value : String)
  | replace (file : Tree)

/-- The table after a change. A file that is refused leaves it as it is. -/
def apply (table : Table) : Change → Table
  | .insert name value => table.insert name value
  | .replace file =>
      match ofTree file with
      | .ok other => other
      | .error _ => table

/-- The table after changes, with no parameters before. -/
def after (changes : List Change) : Table :=
  changes.foldl apply empty

/-- The names and values set after a change, given those set before it: a parameters file sets those
of its entries and takes all others away, unless it is refused. -/
def Change.write (pairs : List (String × String)) : Change → List (String × String)
  | .insert name value => pairs ++ [(name, value)]
  | .replace (.mapping entries) =>
      if ∀ entry ∈ entries, IsKept entry then entries.map setting else pairs
  | .replace _ => pairs

/-- The names and values set since a table was last replaced, in order. -/
def written (changes : List Change) : List (String × String) :=
  changes.foldl Change.write []

/-- A file that is refused leaves the table as it was. -/
theorem apply_refused {file : Tree} {failure : Failure} (h : Refused file failure)
    (table : Table) : table.apply (.replace file) = table := by
  rw [apply, h.of_tree]

/-- One more change keeps the table what has been set. -/
theorem Holds.apply (h : Holds table pairs) (change : Change) :
    Holds (table.apply change) (change.write pairs) := by
  cases change with
  | insert name value => exact h.insert name value
  | replace file =>
      obtain ⟨entries, rfl, hkept⟩ | ⟨failure, hrefused⟩ := kept_or_refused file
      · rw [Table.apply, of_tree_kept hkept, Change.write, if_pos hkept]
        exact Holds.empty.insert_all (entries.map setting)
      · have hwrite : Change.write pairs (.replace file) = pairs := by
          cases file with
          | mapping entries => rw [Change.write, if_neg hrefused.not_kept]
          | null | bool _ | int _ | float _ | string _ | sequence _ => rfl
        rw [apply_refused hrefused, hwrite]
        exact h

/-- After some changes, the table holds what they wrote. -/
theorem holds_after (changes : List Change) : Holds (after changes) (written changes) := by
  induction changes using List.reverseRecOn with
  | nil => exact .empty
  | append_singleton changes change ih =>
      rw [after, written, List.foldl_concat, List.foldl_concat]
      exact ih.apply change

/-- After any changes, a table has as many parameters as names have been set since it was last
replaced, and it answers each path with those of them that lie within the path, each once and with
the value set last, in the order of the bytes of their names. A parameters file is accepted exactly
if it is a mapping of absolute names to scalars; then it is as good as setting the text of each, in
any order if no name comes twice. Otherwise it is refused for its first fault, and the table stays
as it is. -/
theorem holds_latest (changes : List Change) :
    (after changes).size = ((written changes).map Prod.fst).toFinset.card ∧
      (∀ path, ∃ answer,
        ((after changes).store.query path).start = ([.query path], .ok answer) ∧
          answer.Pairwise (fun first second ↦ Text.bytes first.name < Text.bytes second.name) ∧
          ∀ parameter, parameter ∈ answer ↔ isWithin parameter.name path = true ∧
            IsLatest (written changes) parameter.name parameter.value) ∧
      (∀ file table, ofTree file = .ok table ↔
        ∃ entries, file = .mapping entries ∧ (∀ entry ∈ entries, IsKept entry) ∧
          table = empty.insertAll (entries.map setting)) ∧
      (∀ entries order : List (String × Tree), Entries.Distinct entries → order.Perm entries →
        empty.insertAll (order.map setting) = empty.insertAll (entries.map setting)) ∧
      ∀ file failure, (ofTree file = .error failure ↔ Refused file failure) ∧
        (Refused file failure → after (changes ++ [.replace file]) = after changes) := by
  have hholds := holds_after changes
  refine ⟨hholds.size_eq, fun path ↦ ?_, fun file table ↦ of_tree_eq_ok_iff, ?_, ?_⟩
  · refine ⟨(after changes).below path, rfl, below_ascending _ path, fun parameter ↦ ?_⟩
    rw [below, List.mem_filter, hholds parameter, and_comm]
  · intro entries order hdistinct horder
    refine insert_all_perm ?_ (horder.map setting)
    rwa [List.map_map]
  · intro file failure
    refine ⟨of_tree_eq_error_iff, fun h ↦ ?_⟩
    rw [after, List.foldl_concat]
    exact apply_refused h _

/-- The last value of a name counts, and a file that is refused changes nothing. -/
example :
    let changes : List Change := [.insert "/a" "1", .replace (.mapping [("/b", .bool true)]),
      .insert "/c" "2", .insert "/b" "3", .replace (.mapping [("/d", .null)])]
    (after changes).parameters = [⟨"/b", "3"⟩, ⟨"/c", "2"⟩] := by
  decide

end Table

end Parameter

end ConfigFill
