import ConfigFill.Document.Loading
import ConfigFill.Proofs.Json.Spelling
import ConfigFill.Proofs.Resolution.Replacement

/-!
# JSON there and back

What the printer writes for a tree without floating-point numbers, in one line (`compact_spells`) or
over several (`pretty_spells`), is one of the tree's spellings, so the reader gets the tree back. A
placeholder that is marked for JSON undoes the printer in the same way, but for null, which is no
document, and for switches, which it brings into their plain form. The main statement is
`read_written`.
-/

namespace ConfigFill

namespace Tree

mutual

/-- No leaf of the tree is a floating-point number. -/
def FloatFree : Tree → Prop
  | float _ => False
  | sequence items => ItemsFloatFree items
  | mapping entries => EntriesFloatFree entries
  | _ => True

/-- No leaf of the items is a floating-point number. -/
def ItemsFloatFree : List Tree → Prop
  | [] => True
  | item :: rest => FloatFree item ∧ ItemsFloatFree rest

/-- No leaf of the values of the entries is a floating-point number. -/
def EntriesFloatFree : List (String × Tree) → Prop
  | [] => True
  | (_, value) :: rest => FloatFree value ∧ EntriesFloatFree rest

end

end Tree

namespace Json

/-! ## Layouts -/

/-- A scalar is written in one way, whatever the layout. -/
theorem scalar_text_spells {tree : Tree} (h : tree.FloatFree) (hitems : tree.items? = none)
    (hentries : tree.entries? = none) : Spells tree (scalarText tree).toList := by
  cases tree with
  | null => exact .null
  | bool value => cases value <;> exact .bool _
  | int value => exact .int value
  | float value => exact h.elim
  | string value => exact .string value
  | sequence items => cases hitems
  | mapping entries => cases hentries

/-- The last item of a list and its end. -/
theorem SpellsItems.last (first : Bool) {gap text closing : List Char} {item : Tree}
    (hgap : Blank gap) (h : Spells item text) (hclosing : Blank closing) :
    SpellsItems first [item] (comma first ++ (gap ++ (text ++ (closing ++ [']'])))) :=
  .item first hgap h (.close false hclosing)

/-- The last entry of an object and its end. -/
theorem SpellsEntries.last (first : Bool) (key : String) {gap space text closing : List Char}
    {value : Tree} (hgap : Blank gap) (hspace : Blank space) (h : Spells value text)
    (hclosing : Blank closing) :
    SpellsEntries first [(key, value)] (comma first ++ (gap ++ ((quoted key).toList ++
      ':' :: (space ++ (text ++ (closing ++ ['\x7d'])))))) :=
  .entry first key hgap hspace h (.close false hclosing)

mutual

/-- The text in one line spells the tree. -/
theorem compact_spells {tree : Tree} (h : tree.FloatFree) :
    Spells tree (compact tree).toList := by
  cases tree with
  | sequence items =>
      by_cases hempty : items = []
      · subst hempty
        exact .sequence (.close true .nil)
      · simpa [compact, comma] using Spells.sequence (compact_items_spell true hempty h)
  | mapping entries =>
      by_cases hempty : entries = []
      · subst hempty
        exact .mapping (.close true .nil)
      · simpa [compact, comma] using Spells.mapping (compact_entries_spell true hempty h)
  | null | bool _ | int _ | float _ | string _ => exact scalar_text_spells h rfl rfl

/-- Items are spelled in one line, with what separates them from the one before. -/
theorem compact_items_spell (first : Bool) {items : List Tree} (hempty : items ≠ [])
    (h : Tree.ItemsFloatFree items) :
    SpellsItems first items (comma first ++ ((compactItems items).toList ++ [']'])) := by
  cases items with
  | nil => exact absurd rfl hempty
  | cons item rest =>
      have hitem := compact_spells h.1
      cases rest with
      | nil => exact .last first .nil hitem .nil
      | cons next rest =>
          simpa [compactItems, comma] using
            SpellsItems.item first .nil hitem (compact_items_spell false (by simp) h.2)

/-- Entries are spelled in one line, with what separates them from the one before. -/
theorem compact_entries_spell (first : Bool) {entries : List (String × Tree)}
    (hempty : entries ≠ []) (h : Tree.EntriesFloatFree entries) :
    SpellsEntries first entries
      (comma first ++ ((compactEntries entries).toList ++ ['\x7d'])) := by
  cases entries with
  | nil => exact absurd rfl hempty
  | cons entry rest =>
      obtain ⟨key, value⟩ := entry
      have hvalue := compact_spells h.1
      cases rest with
      | nil => simpa [compactEntries] using SpellsEntries.last first key .nil .nil hvalue .nil
      | cons next rest =>
          simpa [compactEntries, comma] using SpellsEntries.entry first key .nil .nil hvalue
            (compact_entries_spell false (by simp) h.2)

end

/-- A line break and the indentation after it are blanks. -/
theorem new_line_blank (level : Nat) : Blank (newLine level).toList := by
  intro character hmem
  have hcases : character = '\n' ∨ character = ' ' := by
    simp only [newLine, String.toList_append, String.toList_ofList, List.mem_append] at hmem
    exact hmem.imp List.mem_singleton.1 List.eq_of_mem_replicate
  rcases hcases with rfl | rfl <;> rfl

/-- A sequence with items stands over several lines. -/
theorem pretty_at_sequence (level : Nat) {items : List Tree} (h : items ≠ []) :
    prettyAt level (.sequence items) =
      "[" ++ prettyItems (level + 1) items ++ newLine level ++ "]" := by
  cases items with
  | nil => exact absurd rfl h
  | cons item rest => simp only [prettyAt]

/-- A mapping with entries stands over several lines. -/
theorem pretty_at_mapping (level : Nat) {entries : List (String × Tree)} (h : entries ≠ []) :
    prettyAt level (.mapping entries) =
      "\x7b" ++ prettyEntries (level + 1) entries ++ newLine level ++ "\x7d" := by
  cases entries with
  | nil => exact absurd rfl h
  | cons entry rest => simp only [prettyAt]

mutual

/-- The text over several lines spells the tree, at each level. -/
theorem pretty_spells (level : Nat) {tree : Tree} (h : tree.FloatFree) :
    Spells tree (prettyAt level tree).toList := by
  cases tree with
  | sequence items =>
      by_cases hempty : items = []
      · subst hempty
        simpa [prettyAt] using Spells.sequence (.close true .nil)
      · simpa [pretty_at_sequence level hempty, comma] using
          Spells.sequence (pretty_items_spell (level + 1) true (new_line_blank level) hempty h)
  | mapping entries =>
      by_cases hempty : entries = []
      · subst hempty
        simpa [prettyAt] using Spells.mapping (.close true .nil)
      · simpa [pretty_at_mapping level hempty, comma] using
          Spells.mapping (pretty_entries_spell (level + 1) true (new_line_blank level) hempty h)
  | null | bool _ | int _ | float _ | string _ =>
      simpa only [prettyAt] using scalar_text_spells h rfl rfl

/-- Items are spelled over several lines, whatever blanks stand before the end of the list. -/
theorem pretty_items_spell (level : Nat) (first : Bool) {closing : List Char}
    (hclosing : Blank closing) {items : List Tree} (hempty : items ≠ [])
    (h : Tree.ItemsFloatFree items) :
    SpellsItems first items
      (comma first ++ ((prettyItems level items).toList ++ (closing ++ [']']))) := by
  have hline := new_line_blank level
  cases items with
  | nil => exact absurd rfl hempty
  | cons item rest =>
      have hitem := pretty_spells level h.1
      cases rest with
      | nil => simpa [prettyItems] using SpellsItems.last first hline hitem hclosing
      | cons next rest =>
          simpa [prettyItems, comma] using SpellsItems.item first hline hitem
            (pretty_items_spell level false hclosing (by simp) h.2)

/-- Entries are spelled over several lines, whatever blanks stand before the end of the object. -/
theorem pretty_entries_spell (level : Nat) (first : Bool) {closing : List Char}
    (hclosing : Blank closing) {entries : List (String × Tree)} (hempty : entries ≠ [])
    (h : Tree.EntriesFloatFree entries) :
    SpellsEntries first entries
      (comma first ++ ((prettyEntries level entries).toList ++ (closing ++ ['\x7d']))) := by
  have hline := new_line_blank level
  have hspace : Blank [' '] := by simp [Blank, isBlank]
  cases entries with
  | nil => exact absurd rfl hempty
  | cons entry rest =>
      obtain ⟨key, value⟩ := entry
      have hvalue := pretty_spells level h.1
      cases rest with
      | nil =>
          simpa [prettyEntries] using SpellsEntries.last first key hline hspace hvalue hclosing
      | cons next rest =>
          simpa [prettyEntries, comma] using SpellsEntries.entry first key hline hspace hvalue
            (pretty_entries_spell level false hclosing (by simp) h.2)

end

section

variable {tree : Tree} (hfloats : tree.FloatFree) (hkeys : tree.KeysDistinct)
  (hdepth : tree.nesting ≤ depthLimit)

include hfloats hkeys hdepth

/-- The reader undoes the printer of one line. -/
theorem parse_compact : parse (compact tree) = .ok tree :=
  parse_spelled (compact_spells hfloats) hkeys hdepth

/-- The reader undoes the printer of several lines. -/
theorem parse_pretty : parse (pretty tree) = .ok tree :=
  parse_spelled (pretty_spells 0 hfloats) hkeys hdepth

end

end Json

/-! ## Parameters that hold JSON -/

namespace Placeholder

/-- A placeholder that is marked for JSON and has no suffix stands for the document that the value
of its path holds. -/
theorem replacement_json {environment : Environment} {store : Store} {placeholder : Placeholder}
    (hjson : placeholder.json = true) (hsuffix : placeholder.suffix = none) {path raw : String}
    {earlier : List String} (hpath : (environment.expand placeholder.path).start.2 = .ok path)
    (hvalue : (store.lookup path earlier).2 = .ok (.string raw)) :
    (placeholder.replacement environment store earlier).2 = Resolution.decodedText path raw := by
  have happlied : placeholder.applied path (.string raw) = Resolution.decodedText path raw := by
    simp [applied, hjson, hsuffix, Resolution.decoded]
  calc (placeholder.replacement environment store earlier).2
      = (environment.expand placeholder.path).start.2 >>= fun path ↦
          (store.lookup path earlier).2 >>= placeholder.applied path :=
        replacement_ending environment store placeholder earlier
    _ = placeholder.applied path (.string raw) := by
        rw [hpath]
        show (store.lookup path earlier).2 >>= placeholder.applied path = _
        rw [hvalue]
        rfl
    _ = Resolution.decodedText path raw := happlied

end Placeholder

namespace Json

open Resolution (normalized)

/-- Reading undoes writing, for every tree without floating-point numbers in which containers nest
at most 127 deep: over several lines always, and in one line for a sequence or a mapping. So a
placeholder that is marked for JSON, whose path has such a text for its value, stands for the tree.
But null is no document there, and a mapping whose entry `key` is the text of a truth value becomes
this entry with the truth value itself. -/
theorem read_written {tree : Tree} (hfloats : tree.FloatFree) (hkeys : tree.KeysDistinct)
    (hdepth : tree.nesting ≤ 127) :
    Document.ofJson (pretty tree) = .ok tree ∧
    ((∃ items, tree = .sequence items) ∨ (∃ entries, tree = .mapping entries) →
      Document.ofJson tree.text = .ok tree) ∧
    ∀ (environment : Environment) (store : Store) (placeholder : Placeholder) (path : String)
      (earlier : List String),
      placeholder.json = true → placeholder.suffix = none →
      (environment.expand placeholder.path).start.2 = .ok path →
      (store.lookup path earlier).2 = .ok (.string (pretty tree)) →
      (tree = .null →
        (placeholder.replacement environment store earlier).2 =
          .error (.of (.malformedJson path (pretty tree) "Decoded to null"))) ∧
      (∀ state : Bool, tree.child? "key" = some (.string (toString state)) →
        (placeholder.replacement environment store earlier).2 =
          .ok (.mapping [("key", .bool state)])) ∧
      (tree ≠ .null → (∀ state : Bool, tree.child? "key" ≠ some (.string (toString state))) →
        (placeholder.replacement environment store earlier).2 = .ok tree) := by
  have hpretty : parse (pretty tree) = .ok tree := parse_pretty hfloats hkeys hdepth
  have hcompact : parse (compact tree) = .ok tree := parse_compact hfloats hkeys hdepth
  refine ⟨?_, ?_, ?_⟩
  · rw [Document.ofJson, hpretty]
    rfl
  · intro hcontainer
    have htext : tree.text = compact tree := by
      obtain ⟨items, rfl⟩ | ⟨entries, rfl⟩ := hcontainer <;> rfl
    rw [Document.ofJson, htext, hcompact]
    rfl
  · intro environment store placeholder path earlier hjson hsuffix hpath hvalue
    rw [Placeholder.replacement_json hjson hsuffix hpath hvalue]
    refine ⟨?_, ?_, ?_⟩
    · rintro rfl
      rw [Resolution.decodedText, hpretty]
    · intro state hstate
      have hnull : tree ≠ .null := by
        rintro rfl
        cases hstate
      rw [Resolution.decoded_text_of_parse hpretty hnull, normalized,
        Resolution.switch?_eq_some_iff.2 hstate]
    · intro hnull hstates
      have hswitch : Resolution.switch? tree = none := by
        rw [Option.eq_none_iff_forall_ne_some]
        exact fun state h ↦ hstates state (Resolution.switch?_eq_some_iff.1 h)
      rw [Resolution.decoded_text_of_parse hpretty hnull, normalized, hswitch]

/-- A document with a control character and a quote in its texts, the least and the greatest integer,
empty containers and containers below containers. -/
def sampleDocument : Tree :=
  .mapping
    [("\x01\"\n", .sequence [.int Int64.minValue, .int Int64.maxValue, .sequence [], .null]),
      ("", .mapping [("key", .string "é\\\x7f"), ("none", .mapping [])]),
      ("on", .bool true)]

/-- A store in which every path has one value. -/
def constantStore (value : String) : Store :=
  .ofFunction "constant" fun path ↦ .ok [⟨path, value⟩]

/-- The sample is read from both its texts and through a placeholder; a switch and null are what a
placeholder treats otherwise. -/
theorem read_written_sample :
    Document.ofJson (pretty sampleDocument) = .ok sampleDocument ∧
      Document.ofJson sampleDocument.text = .ok sampleDocument ∧
      (Placeholder.replacement .empty (constantStore (pretty sampleDocument))
        ⟨"aws-ssm-json://p", true, "/p", none⟩ []).2 = .ok sampleDocument ∧
      (Placeholder.replacement .empty
        (constantStore (pretty (.mapping [("x", .int 1), ("key", .string "false")])))
        ⟨"aws-ssm-json://p", true, "/p", none⟩ []).2 = .ok (.mapping [("key", .bool false)]) ∧
      (Placeholder.replacement .empty (constantStore (pretty .null))
        ⟨"aws-ssm-json://p", true, "/p", none⟩ []).2 =
          .error (.of (.malformedJson "/p" "null" "Decoded to null")) := by
  have hlookup (value : String) :
      ((constantStore value).lookup "/p" []).2 = .ok (.string value) := by
    have hwhole : (Parameter.Path.remainder "/p" "/p").isEmpty = true := by decide
    rw [Store.lookup_found rfl (List.cons_ne_nil _ _)]
    simp [Parameter.Assembly.of, Parameter.Assembly.add, hwhole]
  have hpath : (Environment.empty.expand "/p").start.2 = .ok "/p" := rfl
  have hfloats : sampleDocument.FloatFree := by
    simp [sampleDocument, Tree.FloatFree, Tree.ItemsFloatFree, Tree.EntriesFloatFree]
  have hkeys : sampleDocument.KeysDistinct := by
    simp [sampleDocument, Tree.KeysDistinct, Tree.ItemsDistinct, Tree.EntriesDistinct,
      Entries.Distinct]
  obtain ⟨hpretty, htext, hsample⟩ := read_written hfloats hkeys (by decide)
  obtain ⟨_, _, hswitch⟩ := @read_written (.mapping [("x", .int 1), ("key", .string "false")])
    (by simp [Tree.FloatFree, Tree.EntriesFloatFree])
    (by simp [Tree.KeysDistinct, Tree.EntriesDistinct, Entries.Distinct]) (by decide)
  obtain ⟨_, _, hnull⟩ := @read_written .null trivial trivial (by decide)
  refine ⟨hpretty, htext (.inr ⟨_, rfl⟩), ?_, ?_, ?_⟩
  · have hstates : ∀ state : Bool,
        sampleDocument.child? "key" ≠ some (.string (toString state)) := by
      simp [sampleDocument, Tree.child?, Entries.get?]
    exact (hsample .empty _ _ _ [] rfl rfl hpath (hlookup _)).2.2 (by simp [sampleDocument]) hstates
  · exact (hswitch .empty _ _ _ [] rfl rfl hpath (hlookup _)).2.1 false rfl
  · exact (hnull .empty _ _ _ [] rfl rfl hpath (hlookup _)).1 rfl

end Json

end ConfigFill
