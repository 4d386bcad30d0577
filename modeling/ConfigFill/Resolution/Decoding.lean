import ConfigFill.Failure
import ConfigFill.Json.Reader
import ConfigFill.Tree.Text

/-!
# Parameters that hold JSON

A parameter may hold a JSON document instead of a plain text. A document that is null counts as
malformed. An object whose entry `key` is one of the texts `true` and `false` is a switch: it stands
for that entry alone, as a boolean.
-/

namespace ConfigFill.Resolution

/-- The state of a switch, if the tree is one. -/
def switch? (tree : Tree) : Option Bool :=
  match tree.child? "key" with
  | some (.string "true") => some true
  | some (.string "false") => some false
  | _ => none

/-- The tree with a switch brought into its plain form. -/
def normalized (tree : Tree) : Tree :=
  match switch? tree with
  | some state => .mapping [("key", .bool state)]
  | none => tree

/-- The document that the text of a parameter holds. -/
def decodedText (path raw : String) : Except Failure Tree :=
  match Json.parse raw with
  | .error reason => .error (.of (.malformedJson path raw reason))
  | .ok .null => .error (.of (.malformedJson path raw "Decoded to null"))
  | .ok tree => .ok (normalized tree)

/-- The document that the value of a parameter path holds. Only a text holds one. -/
def decoded (path : String) (value : Tree) : Except Failure Tree :=
  match value with
  | .string raw => decodedText path raw
  | other =>
      .error (.of
        (.malformedJson path other.text s!"Expected a JSON string, got {other.kind}"))

end ConfigFill.Resolution
