/-!
# Texts for a terminal

A terminal obeys some control characters instead of showing them. `terminalText` spells these out,
so that a text from outside can neither move the cursor nor change what was printed before. Tabs,
line breaks and the other controls stay as they are.
-/

namespace ConfigFill.Text

/-- One character of a text for a terminal: bell, backspace, form feed, escape, delete and the
controls of the second block are spelled out. -/
def terminalChar (character : Char) : List Char :=
  match character with
  | '\x07' => ['\\', 'x', '0', '7']
  | '\x08' => ['\\', 'x', '0', '8']
  | '\x0c' => ['\\', 'x', '0', 'c']
  | '\x1b' => ['\\', 'x', '1', 'b']
  | '\x7f' => ['\\', 'x', '7', 'f']
  | other =>
      if 0x80 ≤ other.toNat ∧ other.toNat ≤ 0x9F then
        ['\\', 'u', '\x7b'] ++ Nat.toDigits 16 other.toNat ++ ['\x7d']
      else [other]

/-- The text with the control characters that a terminal obeys spelled out. -/
def terminalText (text : String) : String :=
  String.ofList (text.toList.flatMap terminalChar)

end ConfigFill.Text
