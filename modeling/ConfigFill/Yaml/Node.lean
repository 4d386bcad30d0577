import ConfigFill.Text.Quoted
import ConfigFill.Yaml.Event
import ConfigFill.Yaml.Scalar

/-!
# Nodes of YAML documents

A node is a value of a document with aliases replaced by what they stand for. Other than in a tree,
anything can be a key. `Document.read` builds the root node from the events of a document, and
`Node.toTree?` makes a tree of it if every key is a text.
-/

namespace ConfigFill.Yaml

open Decimal (Binary64)

/-- A value of a document. -/
inductive Node where
  | null
  | bool (value : Bool)
  | int (value : Int)
  | float (value : Binary64)
  | text (value : String)
  | sequence (items : List Node)
  | mapping (entries : List (Node × Node))
  deriving Inhabited

namespace Node

/-- The text of a node that is one. -/
def text? : Node → Option String
  | text value => some value
  | _ => none

mutual

/-- The tree of a node. Whole numbers too large for 64 bits with a sign become floating-point
numbers; a key that is no text has no tree. -/
def toTree? : Node → Option Tree
  | null => some .null
  | bool value => some (.bool value)
  | int value =>
      some (if value < Int.pow 2 63 then .int (Int64.ofInt value) else .float (.ofInt value))
  | float value => some (.float value)
  | text value => some (.string value)
  | sequence items => (itemTrees? items).map .sequence
  | mapping entries => (entryTrees? entries).map fun pairs ↦ .mapping (Entries.ofPairs pairs)

/-- The trees of items. -/
def itemTrees? : List Node → Option (List Tree)
  | [] => some []
  | item :: rest =>
      match toTree? item, itemTrees? rest with
      | some tree, some trees => some (tree :: trees)
      | _, _ => none

/-- The keys and trees of entries. -/
def entryTrees? : List (Node × Node) → Option (List (String × Tree))
  | [] => some []
  | (key, value) :: rest =>
      match key.text?, toTree? value, entryTrees? rest with
      | some key, some tree, some trees => some ((key, tree) :: trees)
      | _, _, _ => none

end

end Node

/-- Where a node stands in its document, for messages. -/
inductive Location where
  | root
  | item (parent : Location) (index : Nat)
  | entry (parent : Location) (key : String)
  /-- The value of a key that is no scalar. -/
  | unnamed (parent : Location)
  /-- The node that the alias at a location stands for. -/
  | aliased (place : Location)

namespace Location

/-- The location as it shows in messages: the root is a dot, and keys are joined by dots. Only a
root that no alias leads to is left out before a key. -/
def text : Location → String
  | root => "."
  | item parent index => parent.text ++ s!"[{index}]"
  | entry root key => key
  | entry parent key => parent.text ++ "." ++ key
  | unnamed root => "?"
  | unnamed parent => parent.text ++ ".?"
  | aliased place => place.text

/-- What stands before a message about a node; nothing where the location shows as the root. -/
def heading (location : Location) : String :=
  if location.text = root.text then "" else location.text ++ ": "

end Location

/-- Why a text is not one document that can be used. -/
inductive DocumentFault where
  | malformed (fault : Fault)
  | unknownAnchor (mark : Mark)
  | tooDeep (mark : Mark)
  | tooManyAliases
  /-- A node with a tag of its own. -/
  | foreignTag (location : Location) (mark : Mark)
  /-- A scalar that its tag says to be of a kind, but is not. -/
  | wrongKind (text expected : String) (location : Location) (mark : Mark)
  | wideInt (value : Int) (location : Location) (mark : Mark)
  | keyNotText
  | moreDocuments

namespace DocumentFault

/-- The report of a fault. -/
def message : DocumentFault → String
  | malformed fault => fault.message
  | unknownAnchor mark => "unknown anchor" ++ mark.suffix
  | tooDeep mark => "recursion limit exceeded" ++ mark.suffix
  | tooManyAliases => "repetition limit exceeded"
  | foreignTag location mark =>
      location.heading ++ "untagged and internally tagged enums do not support enum input" ++
        mark.suffix
  | wrongKind text expected location mark =>
      location.heading ++ "invalid value: string " ++ Text.quoted text ++ ", expected " ++
        expected ++ mark.suffix
  | wideInt value location mark =>
      let width := if value < 0 then "i128" else "u128"
      location.heading ++ "invalid type: integer \x60" ++ toString value ++ "\x60 as " ++ width ++
        ", expected any value" ++ mark.suffix
  | keyNotText => "data did not match any variant of untagged enum Value"
  | moreDocuments => "deserializing from YAML containing more than one document is not supported"

end DocumentFault

/-- A tag of the core set, or one that is not. -/
inductive TagKind where
  | bool
  | int
  | float
  | null
  /-- A tag of the document's own. -/
  | foreign
  /-- A tag of the document's own that is no text: it says nothing. -/
  | void
  | other

namespace TagKind

/-- The kind of a tag. -/
def of (tag : List UInt8) : TagKind :=
  match String.fromUTF8? ⟨tag.toArray⟩ with
  | some "tag:yaml.org,2002:bool" => bool
  | some "tag:yaml.org,2002:int" => int
  | some "tag:yaml.org,2002:float" => float
  | some "tag:yaml.org,2002:null" => null
  | some text => if text.startsWith "!" then foreign else other
  | none => if tag.head? == some '!'.toNat.toUInt8 then void else other

end TagKind

/-- The events of one document, with the numbers that its anchors and aliases have. -/
structure Document where
  events : Array NodeEvent
  /-- For the number of an anchor, the position of its node among the events. -/
  anchors : List (Nat × Nat)
  /-- For the position of an alias among the events, the number of its anchor. -/
  aliases : List (Nat × Nat)
  /-- What ended the events before the document was complete. -/
  fault : Option DocumentFault

/-- Where reading a document stands: the position of the next event, and the number of aliases that
have been followed. -/
structure Place where
  position : Nat
  jumps : Nat

namespace Document

/-- The meaning of a plain scalar without a tag as a node. -/
def plainNode (text : String) (location : Location) (mark : Mark) : Except DocumentFault Node :=
  match Meaning.of text with
  | .null => .ok .null
  | .bool value => .ok (.bool value)
  | .int value => .ok (.int value)
  | .wideInt value => .error (.wideInt value location mark)
  | .float value => .ok (.float value)
  | .text => .ok (.text text)

/-- The node of a scalar with a tag that says it is an integer. -/
def intNode (text : String) (location : Location) (mark : Mark) : Except DocumentFault Node :=
  match Meaning.int? text.toList with
  | none => .error (.wrongKind text "an integer" location mark)
  | some value =>
      match Meaning.ofInt text value with
      | .int value => .ok (.int value)
      | .wideInt value => .error (.wideInt value location mark)
      | _ => .error (.wrongKind text "an integer" location mark)

/-- The node of a scalar. -/
def scalarNode (tag : Option (List UInt8)) (text : String) (plain : Bool) (location : Location)
    (mark : Mark) : Except DocumentFault Node :=
  let untagged : Except DocumentFault Node :=
    if plain then plainNode text location mark else .ok (.text text)
  match tag.map TagKind.of with
  | none => untagged
  | some .void => untagged
  | some .other => .ok (.text text)
  | some .foreign => .error (.foreignTag location mark)
  | some .bool =>
      match Meaning.bool? text with
      | some value => .ok (.bool value)
      | none => .error (.wrongKind text "a boolean" location mark)
  | some .int => intNode text location mark
  | some .float =>
      match Meaning.float? text with
      | some value => .ok (.float value)
      | none => .error (.wrongKind text "a float" location mark)
  | some .null =>
      if Meaning.isNull text then .ok .null
      else .error (.wrongKind text "null" location mark)

/-- The node has a tag of the document's own. -/
def isForeign (properties : Properties) : Bool :=
  match properties.tag.map TagKind.of with
  | some .foreign => true
  | _ => false

/-- The next event. -/
def eventAt (document : Document) (position : Nat) : Except DocumentFault NodeEvent :=
  match document.events[position]? with
  | some event => .ok event
  | none => .error (document.fault.getD .moreDocuments)

mutual

/-- Read the node at a place, in which containers may nest `depth` deep. -/
def readNode (document : Document) :
    Nat → (depth : Nat) → Location → Place → Except DocumentFault (Node × Place)
  | 0, _, _, _ => .error .tooManyAliases
  | fuel + 1, depth, location, place => do
      let event ← document.eventAt place.position
      let next := { place with position := place.position + 1 }
      match event.kind with
      | .scalar properties text plain =>
          return (← scalarNode properties.tag (String.ofList text) plain location event.mark, next)
      | .sequenceStart properties =>
          if isForeign properties then throw (.foreignTag location event.mark)
          match depth with
          | 0 => throw (.tooDeep event.mark)
          | depth + 1 =>
              let (items, next) ← readItems document fuel depth location 0 next
              return (.sequence items, next)
      | .mappingStart properties =>
          if isForeign properties then throw (.foreignTag location event.mark)
          match depth with
          | 0 => throw (.tooDeep event.mark)
          | depth + 1 =>
              let (entries, next) ← readEntries document fuel depth location next
              return (.mapping entries, next)
      | .aliasName _ =>
          let jumps := place.jumps + 1
          if document.events.size * 100 < jumps then throw .tooManyAliases
          else
            let target := do
              let number ← document.aliases.lookup place.position
              document.anchors.lookup number
            let (node, after) ←
              readNode document fuel depth (.aliased location)
                ⟨target.getD document.events.size, jumps⟩
            return (node, { next with jumps := after.jumps })
      | _ => throw .tooManyAliases

/-- Read items up to the end of a sequence. -/
def readItems (document : Document) :
    Nat → (depth : Nat) → Location → (index : Nat) → Place →
      Except DocumentFault (List Node × Place)
  | 0, _, _, _, _ => .error .tooManyAliases
  | fuel + 1, depth, location, index, place => do
      let event ← document.eventAt place.position
      match event.kind with
      | .sequenceEnd => return ([], { place with position := place.position + 1 })
      | _ =>
          let (item, place) ← readNode document fuel depth (.item location index) place
          let (items, place) ← readItems document fuel depth location (index + 1) place
          return (item :: items, place)

/-- Read entries up to the end of a mapping. A fault in a key is one of the mapping. -/
def readEntries (document : Document) :
    Nat → (depth : Nat) → Location → Place → Except DocumentFault (List (Node × Node) × Place)
  | 0, _, _, _ => .error .tooManyAliases
  | fuel + 1, depth, location, place => do
      let event ← document.eventAt place.position
      match event.kind with
      | .mappingEnd => return ([], { place with position := place.position + 1 })
      | kind =>
          let inner : Location :=
            match kind with
            | .scalar _ text _ => .entry location (String.ofList text)
            | _ => .unnamed location
          let (key, place) ← readNode document fuel depth location place
          let (value, place) ← readNode document fuel depth inner place
          let (entries, place) ← readEntries document fuel depth location place
          return ((key, value) :: entries, place)

end

/-- How deep containers may nest. -/
def depthLimit : Nat :=
  128

/-- Read the root node. An alias is followed at most a hundred times for each event, and no more
events than there are come between two of these. -/
def root (document : Document) : Except DocumentFault Node := do
  let count := document.events.size + 1
  let (node, _) ← readNode document (3 * count * (100 * count + 1)) depthLimit .root ⟨0, 0⟩
  match document.fault with
  | some fault => throw fault
  | none => return node

end Document

end ConfigFill.Yaml
