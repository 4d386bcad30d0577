import ConfigFill.Decimal.Shortest

/-!
# Layouts of floating-point numbers

The shortest digits of a number can be laid out in more than one way. A `Layout` holds the
decisions: where ties go, which decimal exponents are written positionally, what follows a whole
number, the sign of a positive exponent, and the words for the values that are no finite numbers.
-/

namespace ConfigFill.Decimal

/-- How the digits of a floating-point number are laid out. -/
structure Layout where
  /-- Which of two shortest decimals is taken where both are equally near. -/
  tie : Tie
  /-- The leading exponents written positionally, from the first up to and without the second;
  all of them if there is no bound. -/
  positional : Option (Int × Int)
  /-- The text after a positional number that has no fraction. -/
  wholeTail : String
  /-- The sign before an exponent that is not negative. -/
  exponentSign : String
  notANumber : String
  infinity : String
  negativeInfinity : String

namespace Layout

/-- The exponent is written positionally. -/
def isPositional (layout : Layout) (exponent : Int) : Bool :=
  match layout.positional with
  | none => true
  | some (first, last) => first ≤ exponent && exponent < last

/-- The digits around a decimal point, with zeros filled in on either side. -/
def positionalText (layout : Layout) (decimal : Scientific) : String :=
  let digits := decimal.digits
  if 0 ≤ decimal.exponent then
    String.ofList (digits ++ List.replicate decimal.exponent.toNat '0') ++ layout.wholeTail
  else
    let places := (-decimal.exponent).toNat
    let padded := List.replicate (places + 1 - digits.length) '0' ++ digits
    let whole := padded.length - places
    String.ofList (padded.take whole ++ '.' :: padded.drop whole)

/-- One digit, the point if more digits follow, and the exponent. -/
def scientificText (layout : Layout) (decimal : Scientific) : String :=
  let exponent := decimal.leadingExponent
  let sign := if exponent < 0 then "" else layout.exponentSign
  let mantissa :=
    match decimal.digits with
    | first :: second :: more => first :: '.' :: second :: more
    | few => few
  String.ofList mantissa ++ "e" ++ sign ++ toString exponent

/-- The text of a floating-point number. -/
def text (layout : Layout) (x : Binary64) : String :=
  if x.isNaN then layout.notANumber
  else if x.isInfinite then
    if x.isNegative then layout.negativeInfinity else layout.infinity
  else
    let sign := if x.isNegative then "-" else ""
    if x.isZero then sign ++ "0" ++ layout.wholeTail
    else
      let decimal := shortest layout.tie x
      sign ++
        if layout.isPositional decimal.leadingExponent then layout.positionalText decimal
        else layout.scientificText decimal

end Layout

/-- The layout for people: always positional, nothing after a whole number, and halves go away from
zero. -/
def plainLayout : Layout where
  tie := .away
  positional := none
  wholeTail := ""
  exponentSign := ""
  notANumber := "NaN"
  infinity := "inf"
  negativeInfinity := "-inf"

end ConfigFill.Decimal
