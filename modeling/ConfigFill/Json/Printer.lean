import ConfigFill.Decimal.Layout
import ConfigFill.Tree.Basic

/-!
# Writing JSON

A tree as a JSON text, in one line (`compact`) or with one value a line and two spaces for each
level (`pretty`). Strings escape quotes, backslashes and the controls below the space, and nothing
else. A number that is not finite has no JSON form and is written as null.
-/

namespace ConfigFill.Json

open Decimal (Layout)

/-- Floating-point numbers in JSON: positional for leading exponents from -5 to 15, always with a
fraction, and with an explicit sign on other exponents. A tie goes to the even digit. -/
def floatLayout : Layout where
  tie := .even
  positional := some (-5, 16)
  wholeTail := ".0"
  exponentSign := "+"
  notANumber := "null"
  infinity := "null"
  negativeInfinity := "null"

/-- The two low hexadecimal digits of a code point, in lower case. -/
def lowHex (code : Nat) : List Char :=
  [Nat.digitChar (code / 16 % 16), Nat.digitChar (code % 16)]

/-- One character inside a string. -/
def escapedChar (character : Char) : List Char :=
  match character with
  | '"' => ['\\', '"']
  | '\\' => ['\\', '\\']
  | '\x08' => ['\\', 'b']
  | '\t' => ['\\', 't']
  | '\n' => ['\\', 'n']
  | '\x0c' => ['\\', 'f']
  | '\r' => ['\\', 'r']
  | other =>
      if other.toNat < 32 then ['\\', 'u', '0', '0'] ++ lowHex other.toNat else [other]

/-- A string with its quotes. -/
def quoted (text : String) : String :=
  String.ofList ('"' :: text.toList.flatMap escapedChar ++ ['"'])

/-- A scalar; sequences and mappings have no text here. -/
def scalarText : Tree → String
  | .null => "null"
  | .bool true => "true"
  | .bool false => "false"
  | .int value => toString value.toInt
  | .float value => floatLayout.text value
  | .string value => quoted value
  | _ => ""

mutual

/-- The tree in one line without blanks. -/
def compact : Tree → String
  | .sequence items => "[" ++ compactItems items ++ "]"
  | .mapping entries => "\x7b" ++ compactEntries entries ++ "\x7d"
  | scalar => scalarText scalar

/-- Items with commas between them. -/
def compactItems : List Tree → String
  | [] => ""
  | [item] => compact item
  | item :: rest => compact item ++ "," ++ compactItems rest

/-- Entries with commas between them. -/
def compactEntries : List (String × Tree) → String
  | [] => ""
  | [(key, value)] => quoted key ++ ":" ++ compact value
  | (key, value) :: rest => quoted key ++ ":" ++ compact value ++ "," ++ compactEntries rest

end

/-- The start of a line at a level. -/
def newLine (level : Nat) : String :=
  "\n" ++ String.ofList (List.replicate (2 * level) ' ')

mutual

/-- The tree at a level, over several lines where it has items or entries. -/
def prettyAt (level : Nat) : Tree → String
  | .sequence [] => "[]"
  | .sequence items => "[" ++ prettyItems (level + 1) items ++ newLine level ++ "]"
  | .mapping [] => "\x7b\x7d"
  | .mapping entries => "\x7b" ++ prettyEntries (level + 1) entries ++ newLine level ++ "\x7d"
  | scalar => scalarText scalar

/-- Items, each on a line of its own. -/
def prettyItems (level : Nat) : List Tree → String
  | [] => ""
  | [item] => newLine level ++ prettyAt level item
  | item :: rest => newLine level ++ prettyAt level item ++ "," ++ prettyItems level rest

/-- Entries, each on a line of its own. -/
def prettyEntries (level : Nat) : List (String × Tree) → String
  | [] => ""
  | [(key, value)] => newLine level ++ quoted key ++ ": " ++ prettyAt level value
  | (key, value) :: rest =>
      newLine level ++ quoted key ++ ": " ++ prettyAt level value ++ "," ++
        prettyEntries level rest

end

/-- The tree over several lines, without a line break at the end. -/
def pretty (tree : Tree) : String :=
  prettyAt 0 tree

end ConfigFill.Json
