import ConfigFill.Decimal.Binary64
import ConfigFill.Tree.Entries

/-!
# Configuration trees

A configuration document is a tree: a scalar, a sequence of trees or a mapping from texts to trees
in insertion order. Numbers are 64-bit integers or binary64 words, and the two never compare equal.
-/

namespace ConfigFill

open Decimal (Binary64)

/-- A node of a configuration document. -/
inductive Tree where
  | null
  | bool (value : Bool)
  | int (value : Int64)
  | float (value : Binary64)
  | string (value : String)
  | sequence (items : List Tree)
  | mapping (entries : List (String × Tree))
  deriving Inhabited, Repr

namespace Tree

/-- The word for a node's kind in messages. -/
def kind : Tree → String
  | null => "null"
  | bool _ => "boolean"
  | int _ => "integer"
  | float _ => "float"
  | string _ => "string"
  | sequence _ => "sequence"
  | mapping _ => "mapping"

def isNull : Tree → Bool
  | null => true
  | _ => false

def bool? : Tree → Option Bool
  | bool value => some value
  | _ => none

def int? : Tree → Option Int64
  | int value => some value
  | _ => none

def string? : Tree → Option String
  | string value => some value
  | _ => none

def items? : Tree → Option (List Tree)
  | sequence items => some items
  | _ => none

def entries? : Tree → Option (Entries Tree)
  | mapping entries => some entries
  | _ => none

/-- An empty string or an empty mapping: what a look-up leaves when it met nothing. -/
def isVacant : Tree → Bool
  | string value => value.isEmpty
  | mapping entries => entries.isEmpty
  | _ => false

/-- The value under a key of a mapping. -/
def child? (key : String) : Tree → Option Tree
  | mapping entries => Entries.get? key entries
  | _ => none

mutual

/-- Every mapping of the tree has distinct keys. -/
def KeysDistinct : Tree → Prop
  | sequence items => ItemsDistinct items
  | mapping entries => Entries.Distinct entries ∧ EntriesDistinct entries
  | _ => True

/-- Every mapping in the items has distinct keys. -/
def ItemsDistinct : List Tree → Prop
  | [] => True
  | item :: rest => KeysDistinct item ∧ ItemsDistinct rest

/-- Every mapping in the values of the entries has distinct keys. -/
def EntriesDistinct : List (String × Tree) → Prop
  | [] => True
  | (_, value) :: rest => KeysDistinct value ∧ EntriesDistinct rest

end

end Tree

end ConfigFill
