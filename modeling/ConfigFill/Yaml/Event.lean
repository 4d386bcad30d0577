import ConfigFill.Yaml.Token.Basic

/-!
# Events of YAML

A token sequence is read as a sequence of events: documents, collections and scalars begin and end.
A parser keeps a stack of goals, that is, of what it expects to read next, and each step takes the
top goal and gives one event. What a text leaves out, such as the value of a key without one, is an
empty scalar. `events` gives the events in order and the fault that ends them, if there is one.
-/

namespace ConfigFill.Yaml

/-- What comes before the content of a node. -/
structure Properties where
  anchor : Option (List Char)
  tag : Option (List UInt8)
  deriving DecidableEq, Repr

namespace Properties

/-- Neither anchor nor tag. -/
def none : Properties :=
  ⟨.none, .none⟩

end Properties

/-- What an event is. -/
inductive EventKind where
  | documentStart
  | documentEnd
  | aliasName (name : List Char)
  | scalar (properties : Properties) (text : List Char) (plain : Bool)
  | sequenceStart (properties : Properties)
  | sequenceEnd
  | mappingStart (properties : Properties)
  | mappingEnd
  deriving DecidableEq, Repr

/-- An event and the place where it begins. -/
structure NodeEvent where
  kind : EventKind
  mark : Mark
  deriving DecidableEq, Repr

/-- What a parser expects. A goal inside a collection knows where the collection began. -/
inductive Goal where
  /-- A document; only the first may begin without a mark. -/
  | document (isFirst : Bool)
  /-- The root of a document after its mark. -/
  | root
  | documentEnd
  | blockNode
  | blockItem (since : Mark)
  /-- An item of a sequence that is not indented within a mapping. -/
  | indentlessItem
  | blockKey (since : Mark)
  | blockValue (since : Mark)
  | flowItem (isFirst : Bool) (since : Mark)
  /-- The key, the value and the end of a mapping of one entry in a flow sequence. -/
  | pairKey
  | pairValue
  | pairEnd
  | flowKey (isFirst : Bool) (since : Mark)
  | flowValue (since : Mark)
  /-- The value of an entry that is written without a colon. -/
  | absentValue (since : Mark)
  deriving DecidableEq, Repr

/-- The state of a parser: the tokens to come, what ends them, what the handles of tags stand for in
this document, and the goals, the nearest first. -/
structure Parser where
  tokens : List Token
  fault : Option Fault
  handles : List (List Char × List UInt8)
  goals : List Goal

namespace Parser

/-- The next token. -/
def peek (parser : Parser) : Except Fault Token :=
  match parser.tokens with
  | token :: _ => .ok token
  | [] => .error (parser.fault.getD (.malformed .missingDocumentStart .start none))

/-- The parser after the next token. -/
def skip (parser : Parser) : Parser :=
  { parser with tokens := parser.tokens.drop 1 }

/-- The parser with one more goal before its others. -/
def expect (parser : Parser) (goal : Goal) : Parser :=
  { parser with goals := goal :: parser.goals }

/-- The handles that need no directive. -/
def usualHandles : List (List Char × List UInt8) :=
  [(['!'], "!".toUTF8.toList), (['!', '!'], "tag:yaml.org,2002:".toUTF8.toList)]

/-- Read the directives before a document. A handle may be explained once, and then has its usual
meaning no more. -/
def readDirectives : Nat → (versionSeen : Bool) → Parser → Except Fault Parser
  | 0, _, parser => .ok parser
  | fuel + 1, versionSeen, parser => do
      let token ← parser.peek
      match token.kind with
      | .versionDirective major minor =>
          if versionSeen then throw (.malformed .repeatedVersion token.mark none)
          else if major ≠ 1 ∨ (minor ≠ 1 ∧ minor ≠ 2) then
            throw (.malformed .wrongVersion token.mark none)
          else readDirectives fuel true parser.skip
      | .tagDirective handle replacement =>
          if (parser.handles.lookup handle).isSome then
            throw (.malformed .repeatedTagDirective token.mark none)
          else
            readDirectives fuel versionSeen
              { parser.skip with handles := parser.handles ++ [(handle, replacement)] }
      | _ => return { parser with handles := parser.handles ++ usualHandles }

/-- The tag that a written one stands for. -/
def resolveTag (parser : Parser) (written : WrittenTag) (since mark : Mark) :
    Except Fault (List UInt8) :=
  if written.handle.isEmpty then .ok written.text
  else
    match parser.handles.lookup written.handle with
    | some replacement => .ok (replacement ++ written.text)
    | none => .error (.malformed .unknownTagHandle mark (some (.node, since)))

/-- Read the properties of a node, at most one anchor and one tag in either order, with the place of
the first. -/
def readProperties (parser : Parser) : Except Fault (Properties × Mark × Parser) := do
  let first ← parser.peek
  match first.kind with
  | .anchor name =>
      let parser := parser.skip
      let second ← parser.peek
      match second.kind with
      | .tag written =>
          -- The token after the tag is looked at before the tag is explained.
          let _ ← parser.skip.peek
          let tag ← parser.resolveTag written first.mark second.mark
          return (⟨some name, some tag⟩, first.mark, parser.skip)
      | _ => return (⟨some name, none⟩, first.mark, parser)
  | .tag written =>
      let parser := parser.skip
      let second ← parser.peek
      match second.kind with
      | .anchor name =>
          let _ ← parser.skip.peek
          let tag ← parser.resolveTag written first.mark first.mark
          return (⟨some name, some tag⟩, first.mark, parser.skip)
      | _ =>
          let tag ← parser.resolveTag written first.mark first.mark
          return (⟨none, some tag⟩, first.mark, parser)
  | _ => return (.none, first.mark, parser)

/-- Read a node, or its start if it is a collection. Block collections are read only with `inBlock`,
and dashes without indentation only with `indentless`. -/
def readNode (parser : Parser) (inBlock indentless : Bool) :
    Except Fault (NodeEvent × Parser) := do
  let token ← parser.peek
  match token.kind with
  | .aliasName name => return (⟨.aliasName name, token.mark⟩, parser.skip)
  | _ =>
      let (properties, mark, parser) ← parser.readProperties
      let token ← parser.peek
      match token.kind, inBlock with
      | .scalar text plain, _ =>
          return (⟨.scalar properties text plain, mark⟩, parser.skip)
      | .flowSequenceStart, _ =>
          return (⟨.sequenceStart properties, mark⟩, parser.skip.expect (.flowItem true token.mark))
      | .flowMappingStart, _ =>
          return (⟨.mappingStart properties, mark⟩, parser.skip.expect (.flowKey true token.mark))
      | .blockSequenceStart, true =>
          return (⟨.sequenceStart properties, mark⟩, parser.skip.expect (.blockItem token.mark))
      | .blockMappingStart, true =>
          return (⟨.mappingStart properties, mark⟩, parser.skip.expect (.blockKey token.mark))
      | kind, _ =>
          if indentless && kind == .blockEntry then
            return (⟨.sequenceStart properties, mark⟩, parser.expect .indentlessItem)
          else if properties == .none then
            throw (.malformed .missingContent token.mark
              (some (if inBlock then .blockNode else .flowNode, mark)))
          else return (⟨.scalar properties [] true, mark⟩, parser)

/-- An empty scalar at a place. -/
def emptyScalar (mark : Mark) : NodeEvent :=
  ⟨.scalar .none [] true, mark⟩

/-- Read a node after the token here, unless it is one of the kinds that follow an absent node. -/
def readAfter (parser : Parser) (next : Goal) (absent : List TokenKind)
    (inBlock indentless : Bool) : Except Fault (NodeEvent × Parser) := do
  let mark := (← parser.peek).mark
  let parser := parser.skip
  let token ← parser.peek
  if absent.contains token.kind then return (emptyScalar mark, parser.expect next)
  else (parser.expect next).readNode inBlock indentless

/-- Read the start of a document, or the end of the text. -/
def readDocument (parser : Parser) (isFirst : Bool) :
    Except Fault (Option (NodeEvent × Parser)) := do
  let parser :=
    if isFirst then parser
    else { parser with tokens := parser.tokens.dropWhile (·.kind == .documentEnd) }
  let token ← parser.peek
  match token.kind with
  | .streamEnd => return none
  | kind =>
      let explicit :=
        match kind with
        | .versionDirective .. | .tagDirective .. | .documentStart => true
        | _ => !isFirst
      let parser ← parser.readDirectives (parser.tokens.length + 1) false
      if explicit then
        let next ← parser.peek
        if next.kind = .documentStart then
          return some (⟨.documentStart, token.mark⟩,
            (parser.skip.expect .documentEnd).expect .root)
        else throw (.malformed .missingDocumentStart next.mark none)
      else
        return some (⟨.documentStart, token.mark⟩,
          (parser.expect .documentEnd).expect .blockNode)

/-- Read the root of a document after its mark. -/
def readRoot (parser : Parser) : Except Fault (NodeEvent × Parser) := do
  let token ← parser.peek
  match token.kind with
  | .versionDirective .. | .tagDirective .. | .documentStart | .documentEnd | .streamEnd =>
      return (emptyScalar token.mark, parser)
  | _ => parser.readNode true false

/-- Read an item or the end of a block sequence. -/
def readBlockItem (parser : Parser) (since : Mark) : Except Fault (NodeEvent × Parser) := do
  let token ← parser.peek
  match token.kind with
  | .blockEntry => parser.readAfter (.blockItem since) [.blockEntry, .blockEnd] true false
  | .blockEnd => return (⟨.sequenceEnd, token.mark⟩, parser.skip)
  | _ => throw (.malformed .missingDash token.mark (some (.blockCollection, since)))

/-- Read an item or the end of a sequence without indentation. -/
def readIndentlessItem (parser : Parser) : Except Fault (NodeEvent × Parser) := do
  let token ← parser.peek
  match token.kind with
  | .blockEntry =>
      parser.readAfter .indentlessItem [.blockEntry, .key, .value, .blockEnd] true false
  | _ => return (⟨.sequenceEnd, token.mark⟩, parser)

/-- Read a key or the end of a block mapping. -/
def readBlockKey (parser : Parser) (since : Mark) : Except Fault (NodeEvent × Parser) := do
  let token ← parser.peek
  match token.kind with
  | .key => parser.readAfter (.blockValue since) [.key, .value, .blockEnd] true true
  | .blockEnd => return (⟨.mappingEnd, token.mark⟩, parser.skip)
  | _ => throw (.malformed .missingKey token.mark (some (.blockMapping, since)))

/-- Read a value of a block mapping. -/
def readBlockValue (parser : Parser) (since : Mark) : Except Fault (NodeEvent × Parser) := do
  let token ← parser.peek
  match token.kind with
  | .value => parser.readAfter (.blockKey since) [.key, .value, .blockEnd] true true
  | _ => return (emptyScalar token.mark, parser.expect (.blockKey since))

/-- Go past the comma before an item or an entry that is not the first. -/
def skipComma (parser : Parser) (isFirst : Bool) (problem : Problem) (context : Context)
    (since : Mark) : Except Fault Parser := do
  if isFirst then return parser
  else
    let token ← parser.peek
    if token.kind = .flowEntry then return parser.skip
    else throw (.malformed problem token.mark (some (context, since)))

/-- Read an item or the end of a flow sequence. A key here begins a mapping of one entry. -/
def readFlowItem (parser : Parser) (isFirst : Bool) (since : Mark) :
    Except Fault (NodeEvent × Parser) := do
  let token ← parser.peek
  if token.kind = .flowSequenceEnd then return (⟨.sequenceEnd, token.mark⟩, parser.skip)
  else
    let parser ← parser.skipComma isFirst .missingCommaOrBracket .flowSequence since
    let token ← parser.peek
    match token.kind with
    | .key =>
        return (⟨.mappingStart .none, token.mark⟩,
          (parser.skip.expect (.flowItem false since)).expect .pairKey)
    | .flowSequenceEnd => return (⟨.sequenceEnd, token.mark⟩, parser.skip)
    | _ => (parser.expect (.flowItem false since)).readNode false false

/-- Read the key of a mapping of one entry. Where the key is absent, the token in its place counts
for nothing. -/
def readPairKey (parser : Parser) : Except Fault (NodeEvent × Parser) := do
  let token ← parser.peek
  match token.kind with
  | .value | .flowEntry | .flowSequenceEnd =>
      return (emptyScalar token.mark, parser.skip.expect .pairValue)
  | _ => (parser.expect .pairValue).readNode false false

/-- Read the value of a mapping of one entry. -/
def readPairValue (parser : Parser) : Except Fault (NodeEvent × Parser) := do
  let token ← parser.peek
  match token.kind with
  | .value =>
      let next ← parser.skip.peek
      match next.kind with
      | .flowEntry | .flowSequenceEnd =>
          return (emptyScalar next.mark, parser.skip.expect .pairEnd)
      | _ => (parser.skip.expect .pairEnd).readNode false false
  | _ => return (emptyScalar token.mark, parser.expect .pairEnd)

/-- Read a key or the end of a flow mapping. -/
def readFlowKey (parser : Parser) (isFirst : Bool) (since : Mark) :
    Except Fault (NodeEvent × Parser) := do
  let token ← parser.peek
  if token.kind = .flowMappingEnd then return (⟨.mappingEnd, token.mark⟩, parser.skip)
  else
    let parser ← parser.skipComma isFirst .missingCommaOrBrace .flowMapping since
    let token ← parser.peek
    match token.kind with
    | .key => parser.readAfter (.flowValue since) [.value, .flowEntry, .flowMappingEnd] false false
    | .flowMappingEnd => return (⟨.mappingEnd, token.mark⟩, parser.skip)
    | _ => (parser.expect (.absentValue since)).readNode false false

/-- Read a value of a flow mapping. -/
def readFlowValue (parser : Parser) (since : Mark) : Except Fault (NodeEvent × Parser) := do
  let token ← parser.peek
  match token.kind with
  | .value => parser.readAfter (.flowKey false since) [.flowEntry, .flowMappingEnd] false false
  | _ => return (emptyScalar token.mark, parser.expect (.flowKey false since))

/-- Take the nearest goal and read one event for it. There is none at the end of the text. -/
def step (parser : Parser) : Except Fault (Option (NodeEvent × Parser)) :=
  match parser.goals with
  | [] => .ok none
  | goal :: goals =>
      let parser := { parser with goals := goals }
      match goal with
      | .document isFirst => parser.readDocument isFirst
      | .root => some <$> parser.readRoot
      | .documentEnd => do
          let token ← parser.peek
          let after := if token.kind = .documentEnd then parser.skip else parser
          return some (⟨.documentEnd, token.mark⟩,
            { after with handles := [] }.expect (.document false))
      | .blockNode => some <$> parser.readNode true false
      | .blockItem since => some <$> parser.readBlockItem since
      | .indentlessItem => some <$> parser.readIndentlessItem
      | .blockKey since => some <$> parser.readBlockKey since
      | .blockValue since => some <$> parser.readBlockValue since
      | .flowItem isFirst since => some <$> parser.readFlowItem isFirst since
      | .pairKey => some <$> parser.readPairKey
      | .pairValue => some <$> parser.readPairValue
      | .pairEnd => do
          let token ← parser.peek
          return some (⟨.mappingEnd, token.mark⟩, parser)
      | .flowKey isFirst since => some <$> parser.readFlowKey isFirst since
      | .flowValue since => some <$> parser.readFlowValue since
      | .absentValue since => do
          let token ← parser.peek
          return some (emptyScalar token.mark, parser.expect (.flowKey false since))

/-- Read events until the end of the text or a fault. -/
def run : Nat → Parser → List NodeEvent × Option Fault
  | 0, _ => ([], none)
  | fuel + 1, parser =>
      match parser.step with
      | .error fault => ([], some fault)
      | .ok none => ([], none)
      | .ok (some (event, parser)) =>
          let (events, fault) := run fuel parser
          (event :: events, fault)

end Parser

/-- The events of a token sequence, and the fault that ends them early. No more than four events
come before each token is past. -/
def events (tokens : List Token) (fault : Option Fault) : List NodeEvent × Option Fault :=
  let parser : Parser :=
    { tokens := tokens, fault := fault, handles := [], goals := [.document true] }
  parser.run (4 * tokens.length + 16)

end ConfigFill.Yaml
