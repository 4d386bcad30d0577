import ConfigFill.Proofs.Trace.Related
import ConfigFill.Resolution.Filling

/-!
# Filling by leaves

Filling a tree is a run over the list of its placeholder leaves, followed by putting the values back
in their places. `marks` lists the leaves with their texts and `refill` puts the values back; the
main statement, `fill_eq_refilled`, holds for every store and for all that a run does, so that a
property of filling needs no walk over the tree, only an induction over a list.
-/

namespace ConfigFill.Tree

/-- A string leaf that reads as a placeholder: its place and its text. -/
structure Mark where
  path : Path
  text : String

mutual

/-- The placeholder leaves at and below the node at a path, in document order. -/
def marksAt (path : Path) : Tree → List Mark
  | string text => if (Placeholder.parse text).isSome then [⟨path, text⟩] else []
  | sequence items => itemMarks path 0 items
  | mapping entries => entryMarks path entries
  | _ => []

/-- The placeholder leaves in items from a position on. -/
def itemMarks (path : Path) (index : Nat) : List Tree → List Mark
  | [] => []
  | item :: rest => marksAt (path ++ [.position index]) item ++ itemMarks path (index + 1) rest

/-- The placeholder leaves in the values of entries. -/
def entryMarks (path : Path) : List (String × Tree) → List Mark
  | [] => []
  | (key, value) :: rest => marksAt (path ++ [.key key]) value ++ entryMarks path rest

end

/-- The placeholder leaves of a tree in document order. -/
def marks (tree : Tree) : List Mark :=
  marksAt [] tree

mutual

/-- The tree with values in the places of its placeholder leaves, taken one after the other, and the
values that are left over. All else stays as it is, and the values are not looked into. -/
def refill : Tree → List Tree → Tree × List Tree
  | string text, values =>
      if (Placeholder.parse text).isSome then (values.headD (string text), values.tail)
      else (string text, values)
  | sequence items, values =>
      let (filled, others) := refillItems items values
      (sequence filled, others)
  | mapping entries, values =>
      let (filled, others) := refillEntries entries values
      (mapping filled, others)
  | leaf, values => (leaf, values)

/-- The items with values in the places of their placeholder leaves. -/
def refillItems : List Tree → List Tree → List Tree × List Tree
  | [], values => ([], values)
  | item :: rest, values =>
      let (filled, others) := refill item values
      let (filledRest, others) := refillItems rest others
      (filled :: filledRest, others)

/-- The entries with values in the places of their placeholder leaves. Keys stay. -/
def refillEntries : List (String × Tree) → List Tree → List (String × Tree) × List Tree
  | [], values => ([], values)
  | (key, value) :: rest, values =>
      let (filled, others) := refill value values
      let (filledRest, others) := refillEntries rest others
      ((key, filled) :: filledRest, others)

end

/-- The tree with values in the places of its placeholder leaves. -/
def refilled (tree : Tree) (values : List Tree) : Tree :=
  (tree.refill values).1

/-- A leaf and an entry of the list of placeholders tell of the same place and placeholder. -/
def Mark.Shows (mark : Mark) (entry : Path × Placeholder) : Prop :=
  mark.path = entry.1 ∧ Placeholder.parse mark.text = some entry.2

mutual

/-- The placeholder leaves are those that the list of placeholders shows, in the same order. -/
theorem marks_at_show (path : Path) (tree : Tree) :
    List.Forall₂ Mark.Shows (marksAt path tree) (placeholdersAt path tree) := by
  cases tree with
  | string text =>
      simp only [marksAt, placeholdersAt]
      cases h : Placeholder.parse text with
      | none => simp
      | some placeholder => simpa using ⟨rfl, h⟩
  | sequence items => simpa [marksAt, placeholdersAt] using item_marks_show path 0 items
  | mapping entries => simpa [marksAt, placeholdersAt] using entry_marks_show path entries
  | null | bool _ | int _ | float _ => exact .nil

/-- The placeholder leaves in items are those that the list of placeholders shows. -/
theorem item_marks_show (path : Path) (index : Nat) (items : List Tree) :
    List.Forall₂ Mark.Shows (itemMarks path index items) (itemPlaceholders path index items) := by
  cases items with
  | nil => exact .nil
  | cons item rest =>
      exact List.rel_append (marks_at_show _ item) (item_marks_show path (index + 1) rest)

/-- The placeholder leaves in entries are those that the list of placeholders shows. -/
theorem entry_marks_show (path : Path) (entries : List (String × Tree)) :
    List.Forall₂ Mark.Shows (entryMarks path entries) (entryPlaceholders path entries) := by
  cases entries with
  | nil => exact .nil
  | cons entry rest =>
      obtain ⟨key, value⟩ := entry
      exact List.rel_append (marks_at_show _ value) (entry_marks_show path rest)

end

open Effect (Related)

variable {environment : Environment} {store : Store}

/-- What goes in place of a placeholder leaf. -/
def fillMark (environment : Environment) (store : Store) (mark : Mark) : Run Tree :=
  fillString environment store mark.path mark.text

mutual

/-- The tree is filled with the values: each placeholder leaf, in document order, with the next of
them. Every other leaf is as it was, and so are the keys and the places of all that is in the tree. -/
inductive Filled : Tree → List Tree → Tree → Prop where
  | placeholder {text : String} (h : (Placeholder.parse text).isSome = true) (value : Tree) :
      Filled (string text) [value] value
  | text {text : String} (h : Placeholder.parse text = none) : Filled (string text) [] (string text)
  | null : Filled null [] null
  | bool (value : Bool) : Filled (bool value) [] (bool value)
  | int (value : Int64) : Filled (int value) [] (int value)
  | float (value : Decimal.Binary64) : Filled (float value) [] (float value)
  | sequence {items filled values : List Tree} (h : ItemsFilled items values filled) :
      Filled (sequence items) values (sequence filled)
  | mapping {entries filled : List (String × Tree)} {values : List Tree}
      (h : EntriesFilled entries values filled) : Filled (mapping entries) values (mapping filled)

/-- The items are filled with the values, in order. -/
inductive ItemsFilled : List Tree → List Tree → List Tree → Prop where
  | nil : ItemsFilled [] [] []
  | cons {item filled : Tree} {rest filledRest values others : List Tree}
      (head : Filled item values filled) (tail : ItemsFilled rest others filledRest) :
      ItemsFilled (item :: rest) (values ++ others) (filled :: filledRest)

/-- The values of the entries are filled with the values, in order. -/
inductive EntriesFilled : List (String × Tree) → List Tree → List (String × Tree) → Prop where
  | nil : EntriesFilled [] [] []
  | cons (key : String) {value filled : Tree} {rest filledRest : List (String × Tree)}
      {values others : List Tree} (head : Filled value values filled)
      (tail : EntriesFilled rest others filledRest) :
      EntriesFilled ((key, value) :: rest) (values ++ others) ((key, filled) :: filledRest)

end

mutual

/-- Putting back the values that a tree is filled with, and others after them, uses up just them. -/
theorem Filled.refill_append {tree filled : Tree} {values : List Tree}
    (h : Filled tree values filled) (others : List Tree) :
    tree.refill (values ++ others) = (filled, others) := by
  cases h with
  | placeholder h value => simp [refill, h]
  | text h => simp [refill, h]
  | null | bool _ | int _ | float _ => rfl
  | sequence h => simp [refill, h.refill_append others]
  | mapping h => simp [refill, h.refill_append others]

/-- Items use up just the values that they are filled with. -/
theorem ItemsFilled.refill_append {items filled values : List Tree}
    (h : ItemsFilled items values filled) (others : List Tree) :
    refillItems items (values ++ others) = (filled, others) := by
  cases h with
  | nil => rfl
  | cons head tail => simp [refillItems, head.refill_append, tail.refill_append]

/-- Entries use up just the values that they are filled with. -/
theorem EntriesFilled.refill_append {entries filled : List (String × Tree)} {values : List Tree}
    (h : EntriesFilled entries values filled) (others : List Tree) :
    refillEntries entries (values ++ others) = (filled, others) := by
  cases h with
  | nil => rfl
  | cons key head tail => simp [refillEntries, head.refill_append, tail.refill_append]

end

/-- A tree filled with values is the tree with these values put back. -/
theorem Filled.eq_refilled {tree filled : Tree} {values : List Tree}
    (h : Filled tree values filled) : filled = tree.refilled values := by
  have hfilled : tree.refill values = (filled, []) := by simpa using h.refill_append []
  rw [refilled, hfilled]

mutual

/-- Filling a node does what a run over its placeholder leaves does, and gives the node filled with
the values of that run. -/
theorem fill_at_related (path : Path) (tree : Tree) :
    Related Eq Eq tree.Filled ((marksAt path tree).mapM (fillMark environment store))
      (fillAt environment store path tree) := by
  cases tree with
  | string text =>
      simp only [marksAt, fillAt]
      cases h : (Placeholder.parse text).isSome with
      | true =>
          -- A single leaf is a run over a list of one.
          rw [← bind_pure (fillString environment store path text)]
          simp only [if_true, List.mapM_cons, List.mapM_nil, pure_bind]
          refine (Related.refl _).bind fun value _ hvalue ↦ .pure ?_
          rw [hvalue]
          exact .placeholder h _
      | false =>
          have hnone : Placeholder.parse text = none := by simpa using h
          simp only [fillString, hnone, Bool.false_eq_true, if_false, List.mapM_nil]
          exact .pure (.text hnone)
  | sequence items =>
      simp only [marksAt, fillAt]
      rw [← bind_pure ((itemMarks path 0 items).mapM _)]
      exact (fill_items_related path 0 items).bind fun values filled h ↦ .pure (.sequence h)
  | mapping entries =>
      simp only [marksAt, fillAt]
      rw [← bind_pure ((entryMarks path entries).mapM _)]
      exact (fill_entries_related path entries).bind fun values filled h ↦ .pure (.mapping h)
  | null => exact .pure .null
  | bool value => exact .pure (.bool value)
  | int value => exact .pure (.int value)
  | float value => exact .pure (.float value)

/-- Filling items does what a run over their placeholder leaves does, and gives the items filled
with the values of that run. -/
theorem fill_items_related (path : Path) (index : Nat) (items : List Tree) :
    Related Eq Eq (ItemsFilled items)
      ((itemMarks path index items).mapM (fillMark environment store))
      (fillItems environment store path index items) := by
  cases items with
  | nil => exact .pure .nil
  | cons item rest =>
      simp only [itemMarks, fillItems, List.mapM_append]
      refine (fill_at_related _ item).bind fun values filled h ↦ ?_
      exact (fill_items_related path (index + 1) rest).bind fun others filledRest hrest ↦
        .pure (.cons h hrest)

/-- Filling entries does what a run over their placeholder leaves does, and gives the entries filled
with the values of that run. -/
theorem fill_entries_related (path : Path) (entries : List (String × Tree)) :
    Related Eq Eq (EntriesFilled entries)
      ((entryMarks path entries).mapM (fillMark environment store))
      (fillEntries environment store path entries) := by
  cases entries with
  | nil => exact .pure .nil
  | cons entry rest =>
      obtain ⟨key, value⟩ := entry
      simp only [entryMarks, fillEntries, List.mapM_append]
      refine (fill_at_related _ value).bind fun values filled h ↦ ?_
      exact (fill_entries_related path rest).bind fun others filledRest hrest ↦
        .pure (.cons key h hrest)

end

/-- Filling a tree is a run over its placeholder leaves whose values are then put back. -/
theorem fill_eq_refilled (tree : Tree) :
    tree.fill environment store =
      tree.refilled <$> tree.marks.mapM (fillMark environment store) := by
  exact ((fill_at_related [] tree).mono (fun _ _ h ↦ h) fun values filled h ↦
    h.eq_refilled.symm).eq_map

end ConfigFill.Tree
