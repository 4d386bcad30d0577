import ConfigFill.Yaml.Style

/-!
# Writing YAML

A tree as a YAML document in block style. A sequence under a key is not indented further than the
key; every other collection is, by two spaces. After a dash, after a question mark and after the
colon of a key that took a question mark, a collection begins on the same line.
-/

namespace ConfigFill.Yaml

/-- The text ends in a line break. -/
def endsInBreak (text : String) : Bool :=
  (text.toList.getLast?.map isBreak).getD false

/-- The break between a text and a line after it; a text can bring it along. -/
def lineAfter (text : String) (indent : Nat) : String :=
  (if endsInBreak text then "" else "\n") ++ String.ofList (List.replicate indent ' ')

/-- A tree that takes no line of its own: a scalar or an empty collection. -/
def inlineText (indent : Nat) : Tree → String
  | .null => "null"
  | .bool true => "true"
  | .bool false => "false"
  | .int value => toString value.toInt
  | .float value => floatLayout.text value
  | .string value => stringText indent value
  | .sequence _ => "[]"
  | .mapping _ => "\x7b\x7d"

/-- The key can be written before a colon on one line. -/
def isSimpleKey (key : String) : Bool :=
  !key.toList.any isBreak && key.utf8ByteSize ≤ 128

/-- A key with the colon after it, in a mapping of this indentation. -/
def keyText (indent : Nat) (key : String) : String :=
  let written := stringText (indent + 2) key
  if isSimpleKey key then written ++ ":"
  else "? " ++ written ++ lineAfter written indent ++ ":"

mutual

/-- A tree after a dash, or after the colon of a key that took a question mark. -/
def afterIndicator (indent : Nat) : Tree → String
  | .sequence (item :: rest) => " " ++ itemsText (indent + 2) (item :: rest)
  | .mapping (entry :: rest) => " " ++ entriesText (indent + 2) (entry :: rest)
  | tree => " " ++ inlineText (indent + 2) tree

/-- A tree after a key and its colon. -/
def afterKey (indent : Nat) (key : String) (tree : Tree) : String :=
  match isSimpleKey key, tree with
  | true, .sequence (item :: rest) =>
      lineAfter "" indent ++ itemsText indent (item :: rest)
  | true, .mapping (entry :: rest) =>
      lineAfter "" (indent + 2) ++ entriesText (indent + 2) (entry :: rest)
  | _, tree => afterIndicator indent tree

/-- The items of a sequence. -/
def itemsText (indent : Nat) : List Tree → String
  | [] => ""
  | [item] => "-" ++ afterIndicator indent item
  | item :: rest =>
      let first := "-" ++ afterIndicator indent item
      first ++ lineAfter first indent ++ itemsText indent rest

/-- The entries of a mapping. -/
def entriesText (indent : Nat) : List (String × Tree) → String
  | [] => ""
  | [(key, value)] => keyText indent key ++ afterKey indent key value
  | (key, value) :: rest =>
      let first := keyText indent key ++ afterKey indent key value
      first ++ lineAfter first indent ++ entriesText indent rest

end

/-- The tree as a document, ended by a line break. -/
def render (tree : Tree) : String :=
  let text :=
    match tree with
    | .sequence (item :: rest) => itemsText 0 (item :: rest)
    | .mapping (entry :: rest) => entriesText 0 (entry :: rest)
    | tree => inlineText 2 tree
  text ++ lineAfter text 0

end ConfigFill.Yaml
