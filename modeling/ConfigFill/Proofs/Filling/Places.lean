import ConfigFill.Proofs.Filling.Course
import ConfigFill.Proofs.Filling.Reference
import ConfigFill.Proofs.Tree.Leafy
import ConfigFill.Proofs.Tree.Path
import ConfigFill.Proofs.Tree.Select
import Mathlib.Data.List.Nodup

/-!
# Places of placeholders

The place of a placeholder in the list of placeholders is an address: following it from the root
leads to the leaf that was read, and in the filled tree to the value that went there
(`Filled.found`). The places differ from each other (`places_nodup`), and if the keys of the tree
are plain, so do their texts, which lead to the same nodes as the places themselves. The main
statement is `placeholders_addressed`.
-/

namespace ConfigFill.Tree

/-- Every key in the tree is plain, and no sequence is too long for its positions to be read. -/
inductive Addressable : Tree → Prop where
  | leaf {tree : Tree} (hitems : tree.items? = none) (hentries : tree.entries? = none) :
      Addressable tree
  | sequence {items : List Tree} (short : items.length < Nat.pow 2 64)
      (values : ∀ item ∈ items, Addressable item) : Addressable (sequence items)
  | mapping {entries : List (String × Tree)} (plain : ∀ entry ∈ entries, IsPlainKey entry.1)
      (values : ∀ entry ∈ entries, Addressable entry.2) : Addressable (mapping entries)

/-- In an addressable tree only plain paths lead anywhere. -/
theorem Addressable.plain_of_follow {tree node : Tree} (h : tree.Addressable) {path : Path}
    (hnode : tree.follow? path = some node) : path.IsPlain := by
  induction path generalizing tree with
  | nil => exact fun _ hstep ↦ nomatch hstep
  | cons step rest ih =>
      obtain ⟨child, hchild, hnode⟩ := Option.bind_eq_some_iff.1 hnode
      have hstep : step.IsPlain ∧ child.Addressable := by
        cases h with
        | leaf hitems hentries =>
            cases step with
            | position index => simp [step?, hitems] at hchild
            | key name =>
                obtain ⟨entries, rfl, _⟩ := exists_entries_of_child hchild
                cases hentries
        | sequence short values =>
            cases step with
            | key name => cases hchild
            | position index =>
                obtain ⟨hindex, rfl⟩ := List.getElem?_eq_some_iff.1 hchild
                exact ⟨Nat.lt_trans hindex short, values _ (List.getElem_mem hindex)⟩
        | mapping plain values =>
            cases step with
            | position index => cases hchild
            | key name =>
                have hmem := Entries.mem_of_get? hchild
                exact ⟨plain _ hmem, values _ hmem⟩
      exact List.forall_mem_cons.2 ⟨hstep.1, ih hstep.2 hnode⟩

/-- The text of a plain path selects what the path leads to. -/
theorem select_text {tree node : Tree} {path : Path} (hpath : path.IsPlain)
    (hnode : tree.follow? path = some node) : tree.select path.text = .ok node :=
  select_eq_ok_iff.2 ⟨path, Path.of_text_text hpath, hnode⟩

mutual

/-- In a filled tree, the places of the placeholders lead to the values. -/
theorem Filled.found {tree filled : Tree} {values : List Tree} (h : Filled tree values filled)
    (hkeys : tree.KeysDistinct) (path : Path) :
    List.Forall₂ (fun entry value ↦ ∃ steps, entry.1 = path ++ steps ∧
        filled.follow? steps = some value) (placeholdersAt path tree) values := by
  cases h with
  | @placeholder text h value =>
      obtain ⟨placeholder, hparse⟩ := Option.isSome_iff_exists.1 h
      simp only [placeholdersAt, hparse]
      exact .cons ⟨[], (List.append_nil path).symm, rfl⟩ .nil
  | text h =>
      simp only [placeholdersAt, h]
      exact .nil
  | null | bool _ | int _ | float _ => exact .nil
  | sequence h =>
      refine (h.found hkeys path 0).imp fun entry value ↦ ?_
      rintro ⟨place, steps, hentry, hvalue⟩
      exact ⟨.position place :: steps, by simpa using hentry, hvalue⟩
  | mapping h =>
      refine (h.found hkeys.1 hkeys.2 path).imp fun entry value ↦ ?_
      rintro ⟨key, steps, _, hentry, hvalue⟩
      exact ⟨.key key :: steps, hentry, hvalue⟩

/-- In filled items, the places of the placeholders lead to the values. Each place goes on from a
position with the steps that lead to the value there. -/
theorem ItemsFilled.found {items filled values : List Tree} (h : ItemsFilled items values filled)
    (hkeys : ItemsDistinct items) (path : Path) (index : Nat) :
    List.Forall₂ (fun entry value ↦ ∃ place steps,
        entry.1 = path ++ .position (index + place) :: steps ∧
          (filled[place]?).bind (·.follow? steps) = some value)
      (itemPlaceholders path index items) values := by
  cases h with
  | nil => exact .nil
  | cons head tail =>
      obtain ⟨hitem, hrest⟩ := hkeys
      refine List.rel_append ?_ ?_
      · refine (head.found hitem _).imp fun entry value ↦ ?_
        rintro ⟨steps, hentry, hvalue⟩
        exact ⟨0, steps, by simpa using hentry, hvalue⟩
      · refine (tail.found hrest path (index + 1)).imp fun entry value ↦ ?_
        rintro ⟨place, steps, hentry, hvalue⟩
        exact ⟨place + 1, steps, by rw [hentry, Nat.add_right_comm, Nat.add_assoc], hvalue⟩

/-- In filled entries, the places of the placeholders lead to the values. Each place goes on from a
key with the steps that lead to the value there. -/
theorem EntriesFilled.found {entries filled : List (String × Tree)} {values : List Tree}
    (h : EntriesFilled entries values filled) (hdistinct : Entries.Distinct entries)
    (hkeys : EntriesDistinct entries) (path : Path) :
    List.Forall₂ (fun entry value ↦ ∃ key steps, key ∈ Entries.keys entries ∧
        entry.1 = path ++ .key key :: steps ∧
          (Entries.get? key filled).bind (·.follow? steps) = some value)
      (entryPlaceholders path entries) values := by
  cases h with
  | nil => exact .nil
  | cons key head tail =>
      obtain ⟨hvalue, hrest⟩ := hkeys
      obtain ⟨hkey, hdistinct⟩ := List.nodup_cons.1 hdistinct
      refine List.rel_append ?_ ?_
      · refine (head.found hvalue _).imp fun entry value ↦ ?_
        rintro ⟨steps, hentry, hvalue⟩
        exact ⟨key, steps, List.mem_cons_self, by simpa using hentry, by simpa [Entries.get?]⟩
      · refine (tail.found hdistinct hrest path).imp fun entry value ↦ ?_
        rintro ⟨other, steps, hother, hentry, hvalue⟩
        have hne : ¬ key = other := by
          rintro rfl
          exact hkey hother
        exact ⟨other, steps, List.mem_cons_of_mem _ hother, hentry, by simpa [Entries.get?, hne]⟩

end

mutual

/-- Filled with the texts of its placeholder leaves, a tree is as it was. -/
theorem filled_self (path : Path) (tree : Tree) :
    Filled tree ((marksAt path tree).map fun mark ↦ string mark.text) tree := by
  cases tree with
  | string text =>
      cases h : Placeholder.parse text with
      | none => simpa [marksAt, h] using Filled.text h
      | some placeholder => simpa [marksAt, h] using Filled.placeholder (by simp [h]) (string text)
  | sequence items => exact .sequence (items_filled_self path 0 items)
  | mapping entries => exact .mapping (entries_filled_self path entries)
  | null => exact .null
  | bool value => exact .bool value
  | int value => exact .int value
  | float value => exact .float value

/-- Items are filled with the texts of their own placeholder leaves. -/
theorem items_filled_self (path : Path) (index : Nat) (items : List Tree) :
    ItemsFilled items ((itemMarks path index items).map fun mark ↦ string mark.text) items := by
  cases items with
  | nil => exact .nil
  | cons item rest =>
      rw [itemMarks, List.map_append]
      exact .cons (filled_self _ item) (items_filled_self path (index + 1) rest)

/-- Entries are filled with the texts of their own placeholder leaves. -/
theorem entries_filled_self (path : Path) (entries : List (String × Tree)) :
    EntriesFilled entries ((entryMarks path entries).map fun mark ↦ string mark.text) entries := by
  cases entries with
  | nil => exact .nil
  | cons entry rest =>
      obtain ⟨key, value⟩ := entry
      rw [entryMarks, List.map_append]
      exact .cons key (filled_self _ value) (entries_filled_self path rest)

end

/-- What follows from being related holds throughout the first of two lists related in place. -/
theorem forall_of_forall₂ {α β : Type} {R : α → β → Prop} {P : α → Prop} {items : List α}
    {others : List β} (h : List.Forall₂ R items others) (hR : ∀ item other, R item other → P item) :
    ∀ item ∈ items, P item :=
  ((List.forall₂_and_left items others).1 (h.imp fun item other hitem ↦
    ⟨hR item other hitem, hitem⟩)).1

/-- The place of a placeholder in a node begins with that of the node. -/
theorem exists_steps {path : Path} {tree : Tree} (hkeys : tree.KeysDistinct) :
    ∀ entry ∈ placeholdersAt path tree, ∃ steps, entry.1 = path ++ steps := by
  refine forall_of_forall₂ ((filled_self path tree).found hkeys path) ?_
  rintro entry value ⟨steps, hentry, _⟩
  exact ⟨steps, hentry⟩

/-- The place of a placeholder in items begins with that of one of them. -/
theorem exists_item_steps {path : Path} {index : Nat} {items : List Tree}
    (hkeys : ItemsDistinct items) : ∀ entry ∈ itemPlaceholders path index items,
      ∃ place steps, entry.1 = path ++ .position (index + place) :: steps := by
  refine forall_of_forall₂ ((items_filled_self path index items).found hkeys path index) ?_
  rintro entry value ⟨place, steps, hentry, _⟩
  exact ⟨place, steps, hentry⟩

/-- The place of a placeholder in entries begins with that of one of their keys. -/
theorem exists_entry_steps {path : Path} {entries : List (String × Tree)}
    (hdistinct : Entries.Distinct entries) (hkeys : EntriesDistinct entries) :
    ∀ entry ∈ entryPlaceholders path entries,
      ∃ key steps, key ∈ Entries.keys entries ∧ entry.1 = path ++ .key key :: steps := by
  refine forall_of_forall₂ ((entries_filled_self path entries).found hdistinct hkeys path) ?_
  rintro entry value ⟨key, steps, hkey, hentry, _⟩
  exact ⟨key, steps, hkey, hentry⟩

/-- Two lists of entries with different places throughout have no place twice if neither has. -/
theorem nodup_places_append {first second : List (Path × Placeholder)}
    (hfirst : (first.map Prod.fst).Nodup) (hsecond : (second.map Prod.fst).Nodup)
    (h : ∀ entry ∈ first, ∀ other ∈ second, entry.1 ≠ other.1) :
    ((first ++ second).map Prod.fst).Nodup := by
  rw [List.map_append, List.nodup_append]
  refine ⟨hfirst, hsecond, fun place hplace other hother ↦ ?_⟩
  obtain ⟨entry, hentry, rfl⟩ := List.mem_map.1 hplace
  obtain ⟨entry', hentry', rfl⟩ := List.mem_map.1 hother
  exact h entry hentry entry' hentry'

mutual

/-- No two placeholders have the same place. -/
theorem places_nodup (path : Path) (tree : Tree) (hkeys : tree.KeysDistinct) :
    ((placeholdersAt path tree).map Prod.fst).Nodup := by
  cases tree with
  | string text =>
      simp only [placeholdersAt]
      split <;> simp
  | sequence items => exact item_places_nodup path 0 items hkeys
  | mapping entries => exact entry_places_nodup path entries hkeys.1 hkeys.2
  | null | bool _ | int _ | float _ => exact List.nodup_nil

/-- No two placeholders in items have the same place. -/
theorem item_places_nodup (path : Path) (index : Nat) (items : List Tree)
    (hkeys : ItemsDistinct items) : ((itemPlaceholders path index items).map Prod.fst).Nodup := by
  cases items with
  | nil => exact List.nodup_nil
  | cons item rest =>
      obtain ⟨hitem, hrest⟩ := hkeys
      refine nodup_places_append (places_nodup _ item hitem)
        (item_places_nodup path (index + 1) rest hrest) fun entry hentry other hother heq ↦ ?_
      obtain ⟨steps, hsteps⟩ := exists_steps hitem entry hentry
      obtain ⟨place, others, hothers⟩ := exists_item_steps hrest other hother
      have hsame : index = index + 1 + place ∧ steps = others := by
        simpa using (hsteps.symm.trans heq).trans hothers
      omega

/-- No two placeholders in entries have the same place. -/
theorem entry_places_nodup (path : Path) (entries : List (String × Tree))
    (hdistinct : Entries.Distinct entries) (hkeys : EntriesDistinct entries) :
    ((entryPlaceholders path entries).map Prod.fst).Nodup := by
  cases entries with
  | nil => exact List.nodup_nil
  | cons entry rest =>
      obtain ⟨key, value⟩ := entry
      obtain ⟨hvalue, hrest⟩ := hkeys
      obtain ⟨hkey, hdistinct⟩ := List.nodup_cons.1 hdistinct
      refine nodup_places_append (places_nodup _ value hvalue)
        (entry_places_nodup path rest hdistinct hrest) fun entry hentry other hother heq ↦ ?_
      obtain ⟨steps, hsteps⟩ := exists_steps hvalue entry hentry
      obtain ⟨name, others, hname, hothers⟩ := exists_entry_steps hdistinct hrest other hother
      have hsame : key = name ∧ steps = others := by
        simpa using (hsteps.symm.trans heq).trans hothers
      exact hkey (hsame.1 ▸ hname)

end

open Effect (Related)

variable {environment : Environment} {store : Store}

/-- A placeholder leaf asks for what its entry in the list of placeholders asks for, and ends well
with the same value. -/
theorem fill_mark_related {mark : Mark} {entry : Path × Placeholder} (h : mark.Shows entry) :
    Related (fun past past' ↦ past.queries = past'.queries) (fun _ _ ↦ True) Eq
      (fillMark environment store mark) (entry.2.replacement environment store) := by
  obtain ⟨_, hparse⟩ := h
  intro past past' hpast
  rw [fill_mark_apply environment store hparse, hpast]
  have hmet (events : Trace) : Trace.queries (mark.met :: events) = events.queries := rfl
  refine ⟨by simp [hpast, hmet], ?_⟩
  cases (entry.2.replacement environment store past'.queries).2 with
  | ok value => exact .ok rfl
  | error failure => exact .error trivial

/-- A filled tree is filled with the values that its placeholders stand for, taken one after the
other by a store that has been asked for those before. -/
theorem exists_values_of_fill {tree filled : Tree} {earlier : List String}
    (h : (tree.fill environment store earlier).2 = .ok filled) :
    ∃ values, (tree.placeholders.mapM (fun entry ↦ entry.2.replacement environment store)
        earlier).2 = .ok values ∧ tree.Filled values filled := by
  have htree : Related Eq Eq tree.Filled ((marksAt [] tree).mapM (fillMark environment store))
      (fillAt environment store [] tree) := fill_at_related [] tree
  have hlist : Related (fun past past' ↦ past.queries = past'.queries) (fun _ _ ↦ True)
      (List.Forall₂ Eq) ((marksAt [] tree).mapM (fillMark environment store))
      ((placeholdersAt [] tree).mapM fun entry ↦ entry.2.replacement environment store) :=
    .map_m (marks_at_show [] tree) fun _ _ ↦ fill_mark_related
  have hfill := (htree (earlier.map .query) _ rfl).2
  have hmarks := (hlist (earlier.map .query) _ rfl).2
  rw [Trace.queries_map_query] at hfill hmarks
  rw [show (fillAt environment store [] tree earlier).2 = .ok filled from h] at hfill
  unfold placeholders
  generalize ((marksAt [] tree).mapM (fillMark environment store) earlier).2 = outcome
    at hfill hmarks
  generalize ((placeholdersAt [] tree).mapM
    (fun entry ↦ entry.2.replacement environment store) earlier).2 = other at hmarks ⊢
  cases hfill with
  | ok hfilled =>
      cases hmarks with
      | ok hvalues =>
          rw [List.forall₂_eq_eq_eq] at hvalues
          exact ⟨_, rfl, hvalues ▸ hfilled⟩

/-- The place of a placeholder leads to the leaf that was read as it. -/
theorem follow_placeholder {tree : Tree} (hkeys : tree.KeysDistinct) :
    ∀ entry ∈ tree.placeholders, ∃ text, tree.follow? entry.1 = some (string text) ∧
      Placeholder.parse text = some entry.2 := by
  have hfound := List.forall₂_map_right_iff.1 ((filled_self [] tree).found hkeys [])
  have hshow := (marks_at_show [] tree).flip
  refine forall_of_forall₂ (hfound.mp (fun _ _ h hmark ↦ And.intro h hmark) hshow) ?_
  rintro entry mark ⟨⟨steps, hentry, hfollow⟩, _, hparse⟩
  exact ⟨mark.text, by rwa [hentry], hparse⟩

/-- The places of placeholders are addresses. In a tree that is more than a text, whose keys are
plain and whose sequences are not too long, the shown place of each placeholder selects the leaf
that was read as the placeholder, no place is shown for two of them, and in the filled tree it
selects what the placeholder stood for, however the store's answers depend on what it was asked
before. -/
theorem placeholders_addressed {tree : Tree} (hstring : tree.string? = none)
    (hkeys : tree.KeysDistinct) (haddressable : tree.Addressable) :
    (∀ entry ∈ tree.placeholders, ∃ text, tree.select entry.1.shown = .ok (.string text) ∧
        Placeholder.parse text = some entry.2) ∧
      (tree.placeholders.map fun entry ↦ entry.1.shown).Nodup ∧
      ∀ environment store earlier filled, (tree.fill environment store earlier).2 = .ok filled →
        ∃ values, (tree.placeholders.mapM (fun entry ↦ entry.2.replacement environment store)
            earlier).2 = .ok values ∧
          List.Forall₂ (fun entry value ↦ filled.select entry.1.shown = .ok value)
            tree.placeholders values := by
  have hplain : ∀ entry ∈ tree.placeholders, Path.IsPlain entry.1 := by
    intro entry hentry
    obtain ⟨text, hfollow, _⟩ := follow_placeholder hkeys entry hentry
    exact haddressable.plain_of_follow hfollow
  -- The root has a name of its own, but it is no text, so that no placeholder is there.
  have hshown : ∀ entry ∈ tree.placeholders, Path.shown entry.1 = Path.text entry.1 := by
    intro entry hentry
    have hne : entry.1 ≠ [] := by
      intro hroot
      obtain ⟨text, hfollow, _⟩ := follow_placeholder hkeys entry hentry
      rw [hroot] at hfollow
      cases hfollow
      cases hstring
    have htext := mt (Path.text_eq_empty_iff (hplain entry hentry)).1 hne
    simp [Path.shown, htext]
  refine ⟨fun entry hentry ↦ ?_, ?_, fun environment store earlier filled hfill ↦ ?_⟩
  · obtain ⟨text, hfollow, hparse⟩ := follow_placeholder hkeys entry hentry
    rw [hshown entry hentry]
    exact ⟨text, select_text (hplain entry hentry) hfollow, hparse⟩
  · have hnodup := List.Nodup.of_map Prod.fst (places_nodup [] tree hkeys)
    refine hnodup.map_on fun entry hentry other hother heq ↦ ?_
    rw [hshown entry hentry, hshown other hother] at heq
    have hplace := (hplain entry hentry).eq_of_text (hplain other hother) heq
    exact List.inj_on_of_nodup_map (places_nodup [] tree hkeys) hentry hother hplace
  · obtain ⟨values, hvalues, hfilled⟩ := exists_values_of_fill hfill
    refine ⟨values, hvalues, ?_⟩
    have hfound := (List.forall₂_and_left _ _).2 ⟨fun _ hentry ↦ hentry, hfilled.found hkeys []⟩
    refine hfound.imp fun entry value ↦ ?_
    rintro ⟨hentry, steps, hsteps, hfollow⟩
    rw [hshown entry hentry]
    refine select_text (hplain entry hentry) ?_
    rwa [hsteps]

/-- With a store that is a function of the path, the placeholders of a tree stand for their
outcomes, whatever was asked before. -/
theorem map_m_replacement (hstore : store.IsFunction) (tree : Tree) (earlier : List String) :
    (tree.placeholders.mapM (fun entry ↦ entry.2.replacement environment store) earlier).2 =
      tree.placeholders.mapM fun entry ↦ entry.2.outcome environment store := by
  refine Effect.map_m_outcome (P := Eq) (List.forall₂_refl _) (fun entry other h past ↦ ?_) earlier
  rw [← h]
  exact Placeholder.replacement_outcome hstore entry.2 past

/-- A document that is a sequence, with a placeholder in it and the same one further down. -/
def sampleSequence : Tree :=
  sequence [string "aws-ssm://app/name|-x",
    sequence [mapping [("name", string "aws-ssm://app/name|-x")]]]

/-- Filling the sample puts the value at both places of the placeholder. -/
theorem placeholders_addressed_sample :
    sampleSequence.string? = none ∧ sampleSequence.KeysDistinct ∧ sampleSequence.Addressable ∧
      ∃ filled, (sampleSequence.fill .empty sampleStore []).2 = .ok filled ∧
        filled.select "[0]" = .ok (string "n-x") ∧
        filled.select "[1][0].name" = .ok (string "n-x") := by
  have hstring : sampleSequence.string? = none := rfl
  have hkeys : sampleSequence.KeysDistinct := by
    simp [sampleSequence, KeysDistinct, ItemsDistinct, EntriesDistinct, Entries.Distinct,
      Entries.keys]
  have haddressable : sampleSequence.Addressable := by
    have hleaf (text : String) : Addressable (string text) := .leaf rfl rfl
    have hname : IsPlainKey "name" := ⟨by decide, by decide, by decide, by decide⟩
    have hmapping : Addressable (mapping [("name", string "aws-ssm://app/name|-x")]) :=
      .mapping (by simpa using hname) (by simpa using hleaf _)
    have hinner : Addressable (sequence [mapping [("name", string "aws-ssm://app/name|-x")]]) :=
      .sequence (by simp) (by simpa using hmapping)
    exact .sequence (by simp) (by simpa using ⟨hleaf _, hinner⟩)
  have hstore : sampleStore.IsFunction := fun _ _ ↦ rfl
  have hplaceholders : sampleSequence.placeholders =
      [([.position 0], ⟨"aws-ssm://app/name|-x", false, "/app/name", some "-x"⟩),
        ([.position 1, .position 0, .key "name"],
          ⟨"aws-ssm://app/name|-x", false, "/app/name", some "-x"⟩)] := by
    decide
  have houtcome : Placeholder.outcome .empty sampleStore
      ⟨"aws-ssm://app/name|-x", false, "/app/name", some "-x"⟩ = .ok (string "n-x") := by
    rfl
  -- Both placeholders stand for the same text, whatever was asked before.
  have hreplacements :
      sampleSequence.replacements .empty sampleStore = .ok [string "n-x", string "n-x"] := by
    rw [replacements, hplaceholders, List.mapM_cons, List.mapM_cons, List.mapM_nil, houtcome]
    rfl
  have hend : EndAlike Eq sampleSequence.Filled
      (sampleSequence.replacements .empty sampleStore)
      (sampleSequence.fill .empty sampleStore).start.2 := fill_end_alike hstore sampleSequence
  rw [hreplacements, Effect.start] at hend
  obtain ⟨filled, hfilled⟩ : ∃ filled,
      (sampleSequence.fill .empty sampleStore []).2 = .ok filled := by
    cases hfill : (sampleSequence.fill .empty sampleStore []).2 with
    | ok filled => exact ⟨filled, rfl⟩
    | error failure =>
        rw [hfill] at hend
        cases hend
  obtain ⟨_, _, hselect⟩ := placeholders_addressed hstring hkeys haddressable
  obtain ⟨values, hvalues, hselect⟩ := hselect .empty sampleStore [] filled hfilled
  rw [map_m_replacement hstore, hplaceholders, List.mapM_cons, List.mapM_cons, List.mapM_nil,
    houtcome] at hvalues
  obtain rfl : [string "n-x", string "n-x"] = values := Except.ok.inj hvalues
  rw [hplaceholders] at hselect
  obtain ⟨hfirst, hrest⟩ := List.forall₂_cons.1 hselect
  obtain ⟨hsecond, _⟩ := List.forall₂_cons.1 hrest
  rw [show Path.shown [.position 0] = "[0]" by decide] at hfirst
  rw [show Path.shown [.position 1, .position 0, .key "name"] = "[1][0].name" by decide] at hsecond
  exact ⟨hstring, hkeys, haddressable, filled, hfilled, hfirst, hsecond⟩

end ConfigFill.Tree
