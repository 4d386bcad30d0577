import ConfigFill.Yaml.Node
import ConfigFill.Yaml.Token.Stream

/-!
# Reading YAML

A text is read as one document. What is read before a fault in the text counts: if a node before the
fault cannot be used, that is what the report is about. A text without a document is a null.
-/

namespace ConfigFill.Yaml

namespace Document

/-- Note an anchor. Its number is that of the names noted before it, so that a name noted again can
share its number with a later one; the node noted last then counts for both. -/
def noteAnchor (document : Document) (names : List (List Char × Nat)) (name : List Char) :
    List (List Char × Nat) × Document :=
  let number := names.length
  let names := (names.filter (·.1 != name)) ++ [(name, number)]
  (names, { document with anchors := (number, document.events.size) :: document.anchors })

/-- Take the events of a document up to its end, and the events after it. -/
def collect (names : List (List Char × Nat)) (document : Document) :
    List NodeEvent → Document × List NodeEvent
  | [] => (document, [])
  | event :: rest =>
      let grown := { document with events := document.events.push event }
      let anchored (properties : Properties) : List (List Char × Nat) × Document :=
        match properties.anchor with
        | some name => noteAnchor document names name
        | none => (names, document)
      match event.kind with
      | .documentStart => collect names document rest
      | .documentEnd => ({ document with fault := none }, rest)
      | .aliasName name =>
          match names.lookup name with
          | some number =>
              collect names
                { grown with aliases := (document.events.size, number) :: document.aliases } rest
          | none => ({ document with fault := some (.unknownAnchor event.mark) }, [])
      | .scalar properties _ _ | .sequenceStart properties | .mappingStart properties =>
          let (names, noted) := anchored properties
          collect names { noted with events := document.events.push event } rest
      | _ => collect names grown rest

end Document

/-- The only document of a text as a node. -/
def readNode (text : List Char) : Except DocumentFault Node :=
  let (tokens, tokenFault) := tokenize text
  let (events, fault) := events tokens tokenFault
  match events, fault with
  | [], none => .ok .null
  | _, _ => do
      let blank : Document :=
        { events := #[], anchors := [], aliases := [], fault := fault.map .malformed }
      let (document, rest) := Document.collect [] blank events
      let node ← document.root
      if rest.isEmpty && fault.isNone then return node else throw .moreDocuments

/-- The only document of a text as a tree. -/
def readTree (text : List Char) : Except DocumentFault Tree := do
  match (← readNode text).toTree? with
  | some tree => return tree
  | none => throw .keyNotText

/-- Read a text as YAML, or say in words why it cannot be used. -/
def parse (text : String) : Except String Tree :=
  (readTree text.toList).mapError (·.message)

end ConfigFill.Yaml
