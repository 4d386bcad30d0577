import ConfigFill.Json.Printer

/-!
# Trees as plain text

The text of a tree in messages and where a string is asked for: a scalar bare, without quotes, and
anything else as JSON in one line.
-/

namespace ConfigFill.Tree

/-- The plain text of a tree. -/
def text : Tree → String
  | null => "null"
  | bool true => "true"
  | bool false => "false"
  | int value => toString value.toInt
  | float value => Decimal.plainLayout.text value
  | string value => value
  | tree => Json.compact tree

end ConfigFill.Tree
