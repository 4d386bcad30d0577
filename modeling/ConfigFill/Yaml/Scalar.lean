import ConfigFill.Text.Digits
import ConfigFill.Tree.Basic

/-!
# What plain scalars mean

A plain scalar is a null, a boolean, an integer, a floating-point number or, failing these, a text.
Integers may be written in base ten, two, eight or sixteen with a sign; in base ten, a digit after a
leading zero makes the scalar a text. An integer beyond 64 bits is a number that no tree can hold,
or beyond 128 bits a floating-point number.
-/

namespace ConfigFill.Yaml

open Decimal (Binary64)

/-- What a plain scalar means. -/
inductive Meaning where
  | null
  | bool (value : Bool)
  /-- A whole number of at most 64 bits, with a sign only if it is negative. -/
  | int (value : Int)
  /-- A whole number of more than 64 and at most 128 bits. -/
  | wideInt (value : Int)
  | float (value : Binary64)
  | text
  deriving DecidableEq, Repr

namespace Meaning

/-- The spellings of null. -/
def isNull (text : String) : Bool :=
  ["~", "null", "Null", "NULL"].contains text

/-- The boolean of a spelling. -/
def bool? (text : String) : Option Bool :=
  if ["true", "True", "TRUE"].contains text then some true
  else if ["false", "False", "FALSE"].contains text then some false
  else none

/-- The base and the digits of an integer without its sign. -/
def basedDigits : List Char → Nat × List Char
  | '0' :: 'x' :: digits => (16, digits)
  | '0' :: 'o' :: digits => (8, digits)
  | '0' :: 'b' :: digits => (2, digits)
  | digits => (10, digits)

/-- The sign of a number, and the text after it. -/
def splitSign : List Char → Bool × List Char
  | '-' :: rest => (true, rest)
  | '+' :: rest => (false, rest)
  | rest => (false, rest)

/-- The text is a zero with digits after it, with or without a sign. -/
def hasLeadingZero (text : List Char) : Bool :=
  match (splitSign text).2 with
  | '0' :: next :: rest => (next :: rest).all Char.isDigit
  | _ => false

/-- The integer of a text. -/
def int? (text : List Char) : Option Int :=
  if hasLeadingZero text then none
  else
    let (negative, digits) := splitSign text
    let (base, digits) := basedDigits digits
    (Text.number? base digits).map fun value ↦ if negative then -value else value

/-- The digits of the exponent that ends a number, with the sign of the exponent. -/
def exponent? : List Char → Option Int
  | [] => some 0
  | mark :: rest =>
      if mark = 'e' ∨ mark = 'E' then
        let (negative, digits) := splitSign rest
        (Text.number? 10 digits).map fun value ↦ if negative then -value else value
      else none

/-- The number of digits with or without a point and an exponent. There is a digit before or after
the point. -/
def decimal? (negative : Bool) (text : List Char) : Option Binary64 :=
  let whole := text.takeWhile Char.isDigit
  let rest := text.dropWhile Char.isDigit
  let (fraction, rest) :=
    match rest with
    | '.' :: rest => (rest.takeWhile Char.isDigit, rest.dropWhile Char.isDigit)
    | rest => ([], rest)
  match Text.number? 10 (whole ++ fraction), exponent? rest with
  | some digits, some exponent =>
      some (.ofDecimal negative digits (exponent - fraction.length))
  | _, _ => none

/-- The floating-point number of a text. A decimal too large for a finite number is none. -/
def float? (text : String) : Option Binary64 :=
  if [".inf", ".Inf", ".INF", "+.inf", "+.Inf", "+.INF"].contains text then some (.infinity false)
  else if ["-.inf", "-.Inf", "-.INF"].contains text then some (.infinity true)
  else if [".nan", ".NaN", ".NAN"].contains text then some .nan
  else
    let (negative, rest) := splitSign text.toList
    (decimal? negative rest).filter (!·.isInfinite)

/-- The meaning of an integer by its size. Beyond 128 bits it is read as a decimal, if it is one. -/
def ofInt (text : String) (value : Int) : Meaning :=
  if -Int.pow 2 63 ≤ value ∧ value < Int.pow 2 64 then int value
  else if -Int.pow 2 127 ≤ value ∧ value < Int.pow 2 128 then wideInt value
  else
    match float? text with
    | some number => float number
    | none => Meaning.text

/-- The meaning of a plain scalar. -/
def of (scalar : String) : Meaning :=
  if scalar.isEmpty || isNull scalar then null
  else
    match bool? scalar with
    | some value => bool value
    | none =>
        match int? scalar.toList with
        | some value => ofInt scalar value
        | none =>
            if hasLeadingZero scalar.toList then text
            else
              match float? scalar with
              | some number => float number
              | none => text

end Meaning

end ConfigFill.Yaml
