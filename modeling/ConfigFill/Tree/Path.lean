import ConfigFill.Failure
import ConfigFill.Text.Digits
import ConfigFill.Text.Segments
import ConfigFill.Tree.Basic

/-!
# Paths into a tree

A path is a list of steps, each into a mapping by key or into a sequence by position. Its text joins
the keys by dots and puts each position in brackets: `servers[0].name`. `Path.text` writes a path
and `Path.ofText` reads one; `Tree.follow?` walks it and `Tree.select` does both for a text.
-/

namespace ConfigFill.Tree

/-- One step down a tree. -/
inductive Step where
  | key (name : String)
  | position (index : Nat)
  deriving DecidableEq, Repr

/-- The steps from the root of a tree to one of its nodes. -/
abbrev Path := List Step

/-- Why a text leads to no node of a tree. -/
inductive PathFault where
  | strayBracket
  | unclosedBracket
  | badIndex (text : String)
  | missing
  deriving DecidableEq, Repr

namespace Path

/-- The text of a path with one more step. A key comes after a dot, unless nothing is before it. -/
def extended (text : String) : Step → String
  | .key name => if text.isEmpty then name else text ++ "." ++ name
  | .position index => text ++ "[" ++ toString index ++ "]"

/-- The text of a path. -/
def text (path : Path) : String :=
  path.foldl extended ""

/-- The text of a path as messages show it: the root has a name of its own. -/
def shown (path : Path) : String :=
  if path.text.isEmpty then "<root>" else path.text

/-- The number that a text between brackets stands for: digits after an optional plus sign, and
less than 2^64. -/
def index? (text : List Char) : Option Nat :=
  let digits :=
    match text with
    | '+' :: digits => digits
    | digits => digits
  (Text.number? 10 digits).filter (· < Nat.pow 2 64)

/-- The steps of the bracketed positions that end a part of a path. -/
def positions (brackets : List Char) : Except PathFault Path :=
  match brackets with
  | [] => .ok []
  | '[' :: rest =>
      if ']' ∈ rest then
        let inside := rest.takeWhile (· ≠ ']')
        match index? inside with
        | none => .error (.badIndex (String.ofList inside))
        | some index => (positions (rest.drop (inside.length + 1))).map (.position index :: ·)
      else .error .unclosedBracket
  | _ => .error .unclosedBracket
termination_by brackets.length

/-- The steps of one part of a path: a key, if there is text before the first bracket, and the
positions after it. -/
def ofPart (part : List Char) : Except PathFault Path :=
  let name := part.takeWhile (· ≠ '[')
  if ']' ∈ name then .error .strayBracket
  else
    (positions (part.dropWhile (· ≠ '['))).map fun steps ↦
      if name.isEmpty then steps else .key (String.ofList name) :: steps

/-- The steps of the parts in turn, up to the first part that cannot be read. -/
def ofParts : List (List Char) → Except PathFault Path
  | [] => .ok []
  | part :: rest => do
      let steps ← ofPart part
      return steps ++ (← ofParts rest)

/-- Read a path. Empty parts between dots count for nothing. -/
def ofText (text : String) : Except PathFault Path :=
  ofParts ((Text.segments '.' text.toList).filter fun part ↦ !part.isEmpty)

end Path

namespace PathFault

/-- The report of a path that leads nowhere. -/
def failure (path : String) : PathFault → Failure
  | strayBracket => .of (.parse s!"Unexpected ']' in path: {path}")
  | unclosedBracket => .of (.parse s!"Unclosed '[' in path: {path}")
  | badIndex text => .of (.parse s!"Invalid sequence index in path: {text}")
  | missing =>
      (Failure.of (.parse s!"Path '{path}' not found in configuration")).advised
        s!"Check that '{path}' exists in the configuration"

end PathFault

/-- The node one step down. -/
def step? (tree : Tree) : Step → Option Tree
  | .key name => tree.child? name
  | .position index => tree.items?.bind (·[index]?)

/-- The node at the end of a path. -/
def follow? (tree : Tree) : Path → Option Tree
  | [] => some tree
  | step :: rest => (tree.step? step).bind (·.follow? rest)

/-- The node at a path given as text, or why there is none. -/
def find (tree : Tree) (path : String) : Except PathFault Tree := do
  match tree.follow? (← Path.ofText path) with
  | some node => return node
  | none => throw .missing

/-- The node at a path given as text. The empty path is the tree itself. -/
def select (tree : Tree) (path : String) : Except Failure Tree :=
  (tree.find path).mapError (·.failure path)

end ConfigFill.Tree
