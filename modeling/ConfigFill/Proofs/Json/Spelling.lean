import ConfigFill.Proofs.Json.Scalar
import ConfigFill.Proofs.Tree.Shape

/-!
# How a tree can be spelled in JSON

A tree without floating-point numbers has many JSON texts, which differ in the blanks between their
tokens. `Spells` is the relation of a tree to these texts, with strings and integers as the printer
writes them. The main statement is `parse_spelled`: whatever the layout, the reader gets the tree back
from its text, entries in their order, unless containers nest too deep.
-/

namespace ConfigFill

namespace Json

/-- Nothing but blanks. -/
def Blank (text : List Char) : Prop :=
  ∀ character ∈ text, isBlank character = true

/-- What stands between an item and the one before it, if there is one. -/
def comma (first : Bool) : List Char :=
  if first then [] else [',']

mutual

/-- The text spells the tree. -/
inductive Spells : Tree → List Char → Prop where
  | null : Spells .null "null".toList
  | bool (value : Bool) : Spells (.bool value) (toString value).toList
  | int (value : Int64) : Spells (.int value) (toString value.toInt).toList
  | string (value : String) : Spells (.string value) (quoted value).toList
  | sequence {items : List Tree} {text : List Char} :
      SpellsItems true items text → Spells (.sequence items) ('[' :: text)
  | mapping {entries : List (String × Tree)} {text : List Char} :
      SpellsEntries true entries text → Spells (.mapping entries) ('\x7b' :: text)

/-- The text spells the items of a list from the first or a later one on, up to its end. -/
inductive SpellsItems : Bool → List Tree → List Char → Prop where
  | close (first : Bool) {gap : List Char} : Blank gap → SpellsItems first [] (gap ++ [']'])
  | item (first : Bool) {gap text later : List Char} {item : Tree} {rest : List Tree} :
      Blank gap → Spells item text → SpellsItems false rest later →
      SpellsItems first (item :: rest) (comma first ++ (gap ++ (text ++ later)))

/-- The text spells the entries of an object from the first or a later one on, up to its end. -/
inductive SpellsEntries : Bool → List (String × Tree) → List Char → Prop where
  | close (first : Bool) {gap : List Char} : Blank gap → SpellsEntries first [] (gap ++ ['\x7d'])
  | entry (first : Bool) (key : String) {gap space text later : List Char} {value : Tree}
      {rest : List (String × Tree)} :
      Blank gap → Blank space → Spells value text → SpellsEntries false rest later →
      SpellsEntries first ((key, value) :: rest)
        (comma first ++ (gap ++ ((quoted key).toList ++ ':' :: (space ++ (text ++ later)))))

end

/-! ## Blanks and marks -/

/-- Nothing is blank. -/
theorem Blank.nil : Blank [] :=
  fun _ hmem ↦ absurd hmem List.not_mem_nil

/-- A value begins with a token, which is not the end of a list. -/
def BeginsValue (text : List Char) : Prop :=
  ∃ first rest, text = first :: rest ∧ isBlank first = false ∧ first ≠ ']'

/-- A text begins a value, whatever comes after it. -/
theorem BeginsValue.append {text : List Char} (h : BeginsValue text) (rest : List Char) :
    BeginsValue (text ++ rest) := by
  obtain ⟨first, others, rfl, hblank, hend⟩ := h
  exact ⟨first, others ++ rest, rfl, hblank, hend⟩

/-- A text that begins a value is not empty. -/
theorem BeginsValue.length_pos {text : List Char} (h : BeginsValue text) : 0 < text.length := by
  obtain ⟨first, others, rfl, _⟩ := h
  exact Nat.succ_pos _

/-- A digit or a dash begins a value. -/
theorem begins_value_int (value : Int64) : BeginsValue (toString value.toInt).toList := by
  rw [Text.to_list_to_string_int]
  split
  · exact ⟨'-', _, rfl, rfl, by decide⟩
  · obtain ⟨first, others, hdigits, hfirst⟩ := Text.exists_first_digit value.toInt.natAbs
    exact ⟨first, others, hdigits, is_blank_of_is_digit hfirst, Text.ne_of_is_digit hfirst rfl⟩

/-- A text that spells a tree begins a value. -/
theorem Spells.begins_value {tree : Tree} {text : List Char} (h : Spells tree text) :
    BeginsValue text := by
  cases h with
  | null => exact ⟨'n', _, rfl, rfl, by decide⟩
  | bool value =>
      cases value with
      | false => exact ⟨'f', _, rfl, rfl, by decide⟩
      | true => exact ⟨'t', _, rfl, rfl, by decide⟩
  | int value => exact begins_value_int value
  | string value =>
      rw [quoted, String.toList_ofList]
      exact ⟨'"', _, rfl, rfl, by decide⟩
  | sequence _ => exact ⟨'[', _, rfl, rfl, by decide⟩
  | mapping _ => exact ⟨'\x7b', _, rfl, rfl, by decide⟩

/-- Blanks are skipped, and what comes after them next. -/
theorem skip_blanks_append {gap : List Char} (h : Blank gap) (text : List Char) :
    skipBlanks (gap ++ text) = skipBlanks text :=
  List.dropWhile_append_of_pos h

/-- Nothing is skipped before a character that is no blank. -/
theorem skip_blanks_cons {first : Char} (h : isBlank first = false) (rest : List Char) :
    skipBlanks (first :: rest) = first :: rest := by
  simp [skipBlanks, h]

/-- Blanks before a value are passed over. -/
theorem read_value_blanks (fuel depth : Nat) {gap : List Char} (h : Blank gap) (text : List Char) :
    readValue (fuel + 1) depth (gap ++ text) = readValue (fuel + 1) depth text := by
  simp only [readValue, skip_blanks_append h]

/-- The end of a list is read as such, with or without blanks before it. -/
theorem read_list_mark_close (first : Bool) {gap : List Char} (h : Blank gap) (rest : List Char) :
    readListMark first (gap ++ ']' :: rest) = .ok (.done rest) := by
  unfold readListMark
  rw [skip_blanks_append h]
  rfl

/-- The mark before an item is passed over, and the blanks after it. -/
theorem read_list_mark_item (first : Bool) {gap text : List Char} (hgap : Blank gap)
    (htext : BeginsValue text) :
    readListMark first (comma first ++ (gap ++ text)) = .ok (.more text) := by
  obtain ⟨start, others, rfl, hblank, hend⟩ := htext
  have hskip : skipBlanks (gap ++ start :: others) = start :: others := by
    rw [skip_blanks_append hgap, skip_blanks_cons hblank]
  cases first with
  | true =>
      have hmark : skipBlanks (comma true ++ (gap ++ start :: others)) = start :: others := hskip
      unfold readListMark
      rw [hmark]
      split <;> simp_all
  | false =>
      have hmark : skipBlanks (comma false ++ (gap ++ start :: others)) =
          ',' :: (gap ++ start :: others) := rfl
      unfold readListMark
      rw [hmark]
      simp only [hskip]
      split <;> simp_all

/-- The end of an object is read as such, with or without blanks before it. -/
theorem read_object_mark_close (first : Bool) {gap : List Char} (h : Blank gap)
    (rest : List Char) : readObjectMark first (gap ++ '\x7d' :: rest) = .ok (.done rest) := by
  unfold readObjectMark
  rw [skip_blanks_append h]
  rfl

/-- The mark before an entry is passed over, and the blanks after it with the quote of the key. -/
theorem read_object_mark_entry (first : Bool) {gap : List Char} (h : Blank gap)
    (rest : List Char) :
    readObjectMark first (comma first ++ (gap ++ '"' :: rest)) = .ok (.more rest) := by
  have hskip : skipBlanks (gap ++ '"' :: rest) = '"' :: rest := by
    rw [skip_blanks_append h]
    rfl
  cases first with
  | true =>
      have hmark : skipBlanks (comma true ++ (gap ++ '"' :: rest)) = '"' :: rest := hskip
      unfold readObjectMark
      rw [hmark]
      rfl
  | false =>
      have hmark : skipBlanks (comma false ++ (gap ++ '"' :: rest)) =
          ',' :: (gap ++ '"' :: rest) := rfl
      unfold readObjectMark
      rw [hmark]
      simp only [hskip]

/-- A colon that follows at once is read. -/
theorem read_colon (rest : List Char) : readColon (':' :: rest) = .ok rest :=
  rfl

/-! ## What ends a number -/

/-- A number ends with the text. -/
theorem EndsNumber.nil : EndsNumber [] := by
  intro character hmem
  cases hmem

/-- A number ends before a character that does not go on with it. -/
theorem EndsNumber.cons {first : Char}
    (h : first.isDigit = false ∧ first ≠ '.' ∧ first ≠ 'e' ∧ first ≠ 'E') (rest : List Char) :
    EndsNumber (first :: rest) := by
  intro character hmem
  cases hmem
  exact h

/-- A blank ends a number, and so does a mark after blanks. -/
theorem EndsNumber.of_blank {gap : List Char} (h : Blank gap) {rest : List Char}
    (hrest : EndsNumber rest) : EndsNumber (gap ++ rest) := by
  cases gap with
  | nil => exact hrest
  | cons first others =>
      have hblank := h first List.mem_cons_self
      simp only [isBlank, Bool.or_eq_true, beq_iff_eq] at hblank
      refine EndsNumber.cons ?_ _
      rcases hblank with ((rfl | rfl) | rfl) | rfl <;> decide

/-- What follows an item ends a number. -/
theorem SpellsItems.ends_number {items : List Tree} {text : List Char}
    (h : SpellsItems false items text) (rest : List Char) : EndsNumber (text ++ rest) := by
  cases h with
  | close _ hgap =>
      rw [List.append_assoc]
      exact .of_blank hgap (.cons (by decide) _)
  | item _ _ _ _ => exact .cons (by decide) _

/-- What follows the value of an entry ends a number. -/
theorem SpellsEntries.ends_number {entries : List (String × Tree)} {text : List Char}
    (h : SpellsEntries false entries text) (rest : List Char) : EndsNumber (text ++ rest) := by
  cases h with
  | close _ hgap =>
      rw [List.append_assoc]
      exact .of_blank hgap (.cons (by decide) _)
  | entry _ _ _ _ _ _ => exact .cons (by decide) _

/-- The text of items is not empty, since it has the end of the list in it. -/
theorem SpellsItems.length_pos {first : Bool} {items : List Tree} {text : List Char}
    (h : SpellsItems first items text) : 0 < text.length := by
  cases h with
  | close _ _ => simp
  | item _ _ htext _ =>
      have hpos := htext.begins_value.length_pos
      simp only [List.length_append]
      omega

/-- The text of entries is not empty, since it has the end of the object in it. -/
theorem SpellsEntries.length_pos {first : Bool} {entries : List (String × Tree)} {text : List Char}
    (h : SpellsEntries first entries text) : 0 < text.length := by
  cases h with
  | close _ _ => simp
  | entry _ _ _ _ _ _ =>
      simp only [List.length_append, List.length_cons]
      omega

/-! ## Reading what is spelled -/

/-- Reading an item and then the others. -/
theorem read_items_item {fuel depth : Nat} {first : Bool} {gap text after rest : List Char}
    {item : Tree} {items : List Tree} (hgap : Blank gap) (hbegins : BeginsValue text)
    (hitem : readValue fuel depth text = .ok (item, after))
    (hitems : readItems fuel depth false after = .ok (items, rest)) :
    readItems (fuel + 1) depth first (comma first ++ (gap ++ text)) = .ok (item :: items, rest) := by
  simp only [readItems, read_list_mark_item first hgap hbegins, hitem, hitems, bind, Except.bind,
    pure, Except.pure]

/-- Reading an entry and then the others. -/
theorem read_pairs_entry {fuel depth : Nat} {first : Bool} {key : String}
    {gap text after rest : List Char} {value : Tree} {pairs : List (String × Tree)}
    (hgap : Blank gap) (hvalue : readValue fuel depth text = .ok (value, after))
    (hpairs : readPairs fuel depth false after = .ok (pairs, rest)) :
    readPairs (fuel + 1) depth first
        (comma first ++ (gap ++ ((quoted key).toList ++ ':' :: text))) =
      .ok ((key, value) :: pairs, rest) := by
  have hkey : (quoted key).toList ++ ':' :: text =
      '"' :: (key.toList.flatMap escapedChar ++ '"' :: ':' :: text) := by
    simp [quoted]
  rw [hkey]
  simp only [readPairs, read_object_mark_entry first hgap, read_string_quoted, read_colon, hvalue,
    hpairs, bind, Except.bind, pure, Except.pure]

mutual

/-- A value is read from every text that spells it, if containers may nest deep enough and the text
that follows does not go on with a number. -/
theorem Spells.read {tree : Tree} {text : List Char} (h : Spells tree text)
    (hkeys : tree.KeysDistinct) {fuel depth : Nat} (hfuel : text.length ≤ fuel)
    (hdepth : tree.nesting ≤ depth) {rest : List Char} (hrest : EndsNumber rest) :
    readValue fuel depth (text ++ rest) = .ok (tree, rest) := by
  obtain ⟨fuel, rfl⟩ :=
    Nat.exists_eq_add_one.2 (Nat.lt_of_lt_of_le h.begins_value.length_pos hfuel)
  cases h with
  | null => rfl
  | bool value => cases value <;> rfl
  | int value => exact read_int value fuel depth hrest
  | string value => exact read_string value fuel depth rest
  | @sequence items text hitems =>
      obtain ⟨depth, rfl⟩ := Nat.exists_eq_add_one.2 (Nat.lt_of_lt_of_le (Nat.succ_pos _) hdepth)
      have hread := hitems.read hkeys (Nat.le_of_succ_le_succ hfuel)
        (Nat.le_of_succ_le_succ hdepth) rest
      show readItems fuel depth true (text ++ rest) >>= _ = _
      rw [hread]
      rfl
  | @mapping entries text hentries =>
      obtain ⟨depth, rfl⟩ := Nat.exists_eq_add_one.2 (Nat.lt_of_lt_of_le (Nat.succ_pos _) hdepth)
      have hread := hentries.read hkeys.2 (Nat.le_of_succ_le_succ hfuel)
        (Nat.le_of_succ_le_succ hdepth) rest
      show readPairs fuel depth true (text ++ rest) >>= _ = _
      rw [hread]
      show Except.ok (Tree.mapping (Entries.ofPairs entries), rest) = _
      rw [Entries.of_pairs_of_distinct hkeys.1]

/-- The items of a list are read from every text that spells them. -/
theorem SpellsItems.read {first : Bool} {items : List Tree} {text : List Char}
    (h : SpellsItems first items text) (hkeys : Tree.ItemsDistinct items) {fuel depth : Nat}
    (hfuel : text.length ≤ fuel) (hdepth : Tree.itemsNesting items ≤ depth) (rest : List Char) :
    readItems fuel depth first (text ++ rest) = .ok (items, rest) := by
  obtain ⟨fuel, rfl⟩ := Nat.exists_eq_add_one.2 (Nat.lt_of_lt_of_le h.length_pos hfuel)
  cases h with
  | close _ hgap =>
      rw [List.append_assoc]
      simp only [readItems, List.cons_append, read_list_mark_close first hgap]
      rfl
  | @item _ gap text later item items hgap htext hlater =>
      -- Neither the item nor what follows it is empty, so each is shorter than the two.
      have htextPos := htext.begins_value.length_pos
      have hlaterPos := hlater.length_pos
      simp only [List.length_append] at hfuel
      simp only [Tree.itemsNesting] at hdepth
      have hitem : readValue fuel depth (text ++ (later ++ rest)) = .ok (item, later ++ rest) :=
        htext.read hkeys.1 (by omega) (by omega) (hlater.ends_number rest)
      have hitems : readItems fuel depth false (later ++ rest) = .ok (items, rest) :=
        hlater.read hkeys.2 (by omega) (by omega) rest
      simp only [List.append_assoc]
      exact read_items_item hgap (htext.begins_value.append _) hitem hitems

/-- The entries of an object are read from every text that spells them. -/
theorem SpellsEntries.read {first : Bool} {entries : List (String × Tree)} {text : List Char}
    (h : SpellsEntries first entries text) (hkeys : Tree.EntriesDistinct entries)
    {fuel depth : Nat} (hfuel : text.length ≤ fuel)
    (hdepth : Tree.entriesNesting entries ≤ depth) (rest : List Char) :
    readPairs fuel depth first (text ++ rest) = .ok (entries, rest) := by
  obtain ⟨fuel, rfl⟩ := Nat.exists_eq_add_one.2 (Nat.lt_of_lt_of_le h.length_pos hfuel)
  cases h with
  | close _ hgap =>
      rw [List.append_assoc]
      simp only [readPairs, List.cons_append, read_object_mark_close first hgap]
      rfl
  | @entry _ key gap space text later value entries hgap hspace htext hlater =>
      have hlaterPos := hlater.length_pos
      simp only [List.length_append, List.length_cons] at hfuel
      simp only [Tree.entriesNesting] at hdepth
      have hvalue : readValue fuel depth (text ++ (later ++ rest)) = .ok (value, later ++ rest) :=
        htext.read hkeys.1 (by omega) (by omega) (hlater.ends_number rest)
      have hentries : readPairs fuel depth false (later ++ rest) = .ok (entries, rest) :=
        hlater.read hkeys.2 (by omega) (by omega) rest
      -- The colon leaves fuel for the blanks before the value.
      obtain ⟨fuel, rfl⟩ : ∃ other, fuel = other + 1 := ⟨fuel - 1, by omega⟩
      rw [← read_value_blanks fuel depth hspace] at hvalue
      simp only [List.append_assoc, List.cons_append]
      exact read_pairs_entry hgap hvalue hentries

end

/-- The reader gets a tree back from every text that spells it. -/
theorem parse_spelled {tree : Tree} {text : String} (h : Spells tree text.toList)
    (hkeys : tree.KeysDistinct) (hdepth : tree.nesting ≤ depthLimit) : parse text = .ok tree := by
  have hread : readValue (2 * text.toList.length + 2) depthLimit (text.toList ++ []) =
      .ok (tree, []) :=
    h.read hkeys (by omega) hdepth .nil
  rw [List.append_nil] at hread
  rw [parse, readDocument, hread]
  rfl

end Json

end ConfigFill
