import ConfigFill.Text.Printable

/-!
# Quoted texts

The quoted form in which messages and log lines show a text: double quotes around it, a backslash
before quotes and backslashes, short escapes for the common controls, and the code point in braces
for every other character that does not print as itself.
-/

namespace ConfigFill.Text

/-- One character inside a quoted text. -/
def quotedChar (character : Char) : List Char :=
  match character with
  | '\x00' => ['\\', '0']
  | '\t' => ['\\', 't']
  | '\r' => ['\\', 'r']
  | '\n' => ['\\', 'n']
  | '\\' => ['\\', '\\']
  | '"' => ['\\', '"']
  | other =>
      if isPrintable other then [other]
      else ['\\', 'u', '\x7b'] ++ Nat.toDigits 16 other.toNat ++ ['\x7d']

/-- The text in double quotes, with every character that does not print as itself escaped. -/
def quoted (text : String) : String :=
  String.ofList ('"' :: text.toList.flatMap quotedChar ++ ['"'])

end ConfigFill.Text
