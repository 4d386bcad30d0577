import ConfigFill.Decimal.Layout
import ConfigFill.Yaml.Cursor
import ConfigFill.Yaml.Scalar

/-!
# How strings are written in YAML

A string is written plain if it then reads back as the same string, between single quotes or as a
literal block where that serves, and between double quotes if nothing else keeps it. Lines after
the first are indented, which `indented_append` and `indented_breaks` say of the parts of a text.
-/

namespace ConfigFill.Yaml

/-- A way to write a string. -/
inductive Style where
  | plain
  | singleQuoted
  | doubleQuoted
  | literal
  deriving DecidableEq, Repr

/-- The character can stand for itself in a written text. -/
def isVisible (character : Char) : Bool :=
  let code := character.toNat
  code == 0x0A || (0x20 ≤ code && code ≤ 0x7E) ||
    (0xA0 ≤ code && code ≤ 0xFFFD && code != 0xFEFF) || 0x10000 ≤ code

/-- A character that can stand for itself is none that cannot. -/
theorem ne_of_is_visible {character other : Char} (h : isVisible character = true)
    (hother : isVisible other = false) : character ≠ other := by
  intro heq
  rw [heq, hother] at h
  cases h

/-- A break that can stand for itself is taken as itself. -/
theorem take_break_of_is_visible {cursor : Cursor} {character : Char} {rest : List Char}
    (hvisible : isVisible character = true) (hbreak : isBreak character = true)
    (h : cursor.rest = character :: rest) :
    cursor.takeBreak = ([character], ⟨rest, cursor.mark.nextLine [character]⟩) := by
  have hreturn : character ≠ '\r' := ne_of_is_visible hvisible (by decide)
  have hnext : character ≠ '\x85' := ne_of_is_visible hvisible (by decide)
  obtain rfl | rfl | rfl : character = '\n' ∨ character = '\u2028' ∨ character = '\u2029' := by
    simpa [isBreak, hreturn, hnext, or_assoc] using hbreak
  all_goals simp [Cursor.takeBreak, h, isBreak]

/-- A character of the first class stands directly before one of the second. -/
def hasPair (first second : Char → Bool) : List Char → Bool
  | before :: after :: rest =>
      (first before && second after) || hasPair first second (after :: rest)
  | _ => false

/-- A text without such a pair has none in its parts. -/
theorem has_pair_append {first second : Char → Bool} {front rest : List Char}
    (h : hasPair first second (front ++ rest) = false) :
    hasPair first second front = false ∧ hasPair first second rest = false := by
  induction front with
  | nil => exact ⟨rfl, h⟩
  | cons before others ih =>
      cases others with
      | nil =>
          cases rest with
          | nil => exact ⟨rfl, rfl⟩
          | cons after more => exact ⟨rfl, (Bool.or_eq_false_iff.1 h).2⟩
      | cons after others =>
          obtain ⟨hpair, htail⟩ := Bool.or_eq_false_iff.1 h
          obtain ⟨hothers, hrest⟩ := ih htail
          exact ⟨Bool.or_eq_false_iff.2 ⟨hpair, hothers⟩, hrest⟩

namespace Style

/-- Nothing, a blank, a break or a zero byte is next. -/
def isFollowedByBlank : List Char → Bool
  | [] => true
  | next :: _ => isSpacing next || next == '\x00'

/-- Beyond its first character, a text holds a colon before a blank or a number sign after one. -/
def hasInnerIndicator : List Char → Bool
  | before :: next :: rest =>
      (next == ':' && isFollowedByBlank rest) ||
        (next == '#' && isFollowedByBlank [before]) || hasInnerIndicator (next :: rest)
  | _ => false

/-- The text holds something that would not read as part of a plain scalar. -/
def hasIndicator : List Char → Bool
  | [] => false
  | first :: rest =>
      let text := first :: rest
      ['-', '-', '-'].isPrefixOf text || ['.', '.', '.'].isPrefixOf text ||
        "#,[]\x7b\x7d&*!|>'\"%@\x60".toList.contains first ||
        ("?:-".toList.contains first && isFollowedByBlank rest) || hasInnerIndicator text

/-- A blank or a break begins or ends the text. -/
def hasOuterSpace (text : List Char) : Bool :=
  let isSpace (character : Char) : Bool := character == ' ' || isBreak character
  (text.head?.map isSpace).getD false || (text.getLast?.map isSpace).getD false

/-- The text holds a space before a break or a character that cannot stand for itself. -/
def needsEscapes (text : List Char) : Bool :=
  hasPair (· == ' ') isBreak text || text.any (!isVisible ·)

/-- A text without such things has only characters that can stand for themselves, and no space in it
stands before a break. -/
theorem of_needs_escapes_eq_false {text : List Char} (h : needsEscapes text = false) :
    hasPair (· == ' ') isBreak text = false ∧
      ∀ character ∈ text, isVisible character = true := by
  simpa [needsEscapes] using h

/-- The text holds a space after a break. -/
def hasIndentedLine (text : List Char) : Bool :=
  hasPair isBreak (· == ' ') text

/-- A plain scalar can hold the text. -/
def allowsPlain (text : List Char) : Bool :=
  !hasOuterSpace text && !text.any isBreak && !needsEscapes text && !hasIndicator text

/-- A single-quoted scalar can hold the text. -/
def allowsSingleQuoted (text : List Char) : Bool :=
  !hasIndentedLine text && !needsEscapes text

/-- A literal block can hold the text. -/
def allowsLiteral (text : List Char) : Bool :=
  text.getLast? != some ' ' && !needsEscapes text

/-- A plain scalar with this text means something other than the text, or looks like a number to
some readers. -/
def isAmbiguous (text : String) : Bool :=
  Meaning.of text != .text || Meaning.hasLeadingZero text.toList

/-- The style of a string. -/
def of (text : String) : Style :=
  let characters := text.toList
  if characters.contains '\n' then
    if allowsLiteral characters then literal else doubleQuoted
  else if !isAmbiguous text && allowsPlain characters then plain
  else if allowsSingleQuoted characters then singleQuoted
  else doubleQuoted

end Style

/-- Floating-point numbers in YAML: positional for leading exponents from -5 to 15, always with a
fraction, and without a sign on other exponents that are not negative. A tie goes to the even
digit. -/
def floatLayout : Decimal.Layout where
  tie := .even
  positional := some (-5, 16)
  wholeTail := ".0"
  exponentSign := ""
  notANumber := ".nan"
  infinity := ".inf"
  negativeInfinity := "-.inf"

/-- The upper-case hexadecimal digits of a number, with zeros in front up to a width. -/
def hexText (width number : Nat) : List Char :=
  let digits := (Nat.toDigits 16 number).map Char.toUpper
  List.replicate (width - digits.length) '0' ++ digits

/-- The escape of a character between double quotes. -/
def escape (character : Char) : List Char :=
  '\\' ::
    match character with
    | '\x00' => ['0']
    | '\x07' => ['a']
    | '\x08' => ['b']
    | '\t' => ['t']
    | '\n' => ['n']
    | '\x0b' => ['v']
    | '\x0c' => ['f']
    | '\r' => ['r']
    | '\x1b' => ['e']
    | '"' => ['"']
    | '\\' => ['\\']
    | '\x85' => ['N']
    | '\xa0' => ['_']
    | '\u2028' => ['L']
    | '\u2029' => ['P']
    | other =>
        let code := other.toNat
        if code ≤ 0xFF then 'x' :: hexText 2 code
        else if code ≤ 0xFFFF then 'u' :: hexText 4 code
        else 'U' :: hexText 8 code

/-- A character as it stands between double quotes. -/
def quotedChar (character : Char) : List Char :=
  if !isVisible character || isBreak character || character == '"' || character == '\\' then
    escape character
  else [character]

/-- The text between double quotes. -/
def doubleQuoted (text : List Char) : String :=
  String.ofList ('"' :: text.flatMap quotedChar ++ ['"'])

/-- Characters with the indentation put in after breaks, before the next character that is no
break. -/
def indented (padding : List Char) : (broken : Bool) → List Char → List Char
  | _, [] => []
  | broken, next :: rest =>
      if isBreak next then next :: indented padding true rest
      else if broken then padding ++ next :: indented padding false rest
      else next :: indented padding false rest

/-- Characters that are no breaks need no indentation among themselves. -/
theorem indented_append {front : List Char} (h : ∀ character ∈ front, isBreak character = false)
    (padding rest : List Char) :
    indented padding false (front ++ rest) = front ++ indented padding false rest := by
  induction front with
  | nil => rfl
  | cons next others ih =>
      have hnext := h next List.mem_cons_self
      have hothers := ih fun other hmem ↦ h other (List.mem_cons_of_mem next hmem)
      simp only [List.cons_append, indented, hnext, Bool.false_eq_true, if_false, hothers]

/-- After breaks, the next character that is none is indented. -/
theorem indented_breaks {breaks : List Char} (h : ∀ character ∈ breaks, isBreak character = true)
    (hne : breaks ≠ []) (padding : List Char) (broken : Bool) (rest : List Char) :
    indented padding broken (breaks ++ rest) = breaks ++ indented padding true rest := by
  induction breaks generalizing broken with
  | nil => exact absurd rfl hne
  | cons next others ih =>
      have hnext := h next List.mem_cons_self
      cases others with
      | nil => simp only [List.cons_append, List.nil_append, indented, hnext, if_true]
      | cons after others =>
          have hothers := ih (fun other hmem ↦ h other (List.mem_cons_of_mem next hmem))
            (List.cons_ne_nil _ _) true
          rw [List.cons_append, indented, if_pos hnext, hothers]
          rfl

/-- A character that is indented stands after the padding. -/
theorem indented_cons {next : Char} (h : isBreak next = false) (padding rest : List Char) :
    indented padding true (next :: rest) = padding ++ indented padding false (next :: rest) := by
  simp [indented, h]

/-- A character as it stands between single quotes. -/
def doubledQuote (character : Char) : List Char :=
  if character = '\'' then ['\'', '\''] else [character]

/-- What stands before the closing single quote: the indentation, if a break is last. -/
def quotedEnding (indent : Nat) (text : List Char) : List Char :=
  if (text.getLast?.map isBreak).getD false then List.replicate indent ' ' else []

/-- What stands between single quotes for a text, with lines after the first indented. -/
def singleQuotedLines (indent : Nat) (text : List Char) : List Char :=
  indented (List.replicate indent ' ') false (text.flatMap doubledQuote) ++ quotedEnding indent text

/-- The text between single quotes. -/
def singleQuoted (indent : Nat) (text : List Char) : String :=
  String.ofList ('\'' :: singleQuotedLines indent text ++ ['\''])

/-- The indicator of what the text of a literal block ends in: no break, or more than one. -/
def chompingMark (text : List Char) : String :=
  match text.reverse with
  | last :: before =>
      if !isBreak last then "-"
      else if (before.head?.map isBreak).getD true then "+"
      else ""
  | [] => "-"

/-- The text begins with a space or a break, so that its indentation does not show. -/
def needsHint : List Char → Bool
  | first :: _ => first == ' ' || isBreak first
  | [] => false

/-- The text as a literal block with its header. The indentation is given if it does not show. -/
def literal (indent : Nat) (text : List Char) : String :=
  "|" ++ (if needsHint text then "2" else "") ++ chompingMark text ++ "\n" ++
    String.ofList (indented (List.replicate indent ' ') true text)

/-- A string as it is written in a block whose content is indented this far. -/
def stringText (indent : Nat) (text : String) : String :=
  match Style.of text with
  | .plain => text
  | .singleQuoted => singleQuoted indent text.toList
  | .doubleQuoted => doubleQuoted text.toList
  | .literal => literal indent text.toList

end ConfigFill.Yaml
