/-!
# Binary64 numbers as words

A floating-point number is kept as its 64-bit word, so that equality is equality of words and every
computation on it is exact natural-number arithmetic. A finite word stands for
`mantissa * 2 ^ scale`, up to its sign. `ofRatio` rounds a quotient of natural numbers to the
nearest number, a tie going to the even mantissa; multiplication and division of finite numbers
are that rounding of the exact result.
-/

namespace ConfigFill.Decimal

/-- A binary64 floating-point number, as the word that encodes it. -/
structure Binary64 where
  bits : UInt64
  deriving DecidableEq, Repr, Inhabited

namespace Binary64

/-- The sign bit is set. -/
def isNegative (x : Binary64) : Bool :=
  Nat.pow 2 63 ≤ x.bits.toNat

/-- The word without its sign bit. -/
def magnitude (x : Binary64) : Nat :=
  x.bits.toNat % Nat.pow 2 63

/-- The eleven exponent bits. -/
def exponentField (x : Binary64) : Nat :=
  x.magnitude / Nat.pow 2 52

/-- The fifty-two fraction bits. -/
def fraction (x : Binary64) : Nat :=
  x.magnitude % Nat.pow 2 52

/-- The number is infinite or is not a number. -/
def isSpecial (x : Binary64) : Bool :=
  x.exponentField == 2047

/-- The word stands for no number. -/
def isNaN (x : Binary64) : Bool :=
  x.isSpecial && x.fraction != 0

/-- The word stands for an infinity. -/
def isInfinite (x : Binary64) : Bool :=
  x.isSpecial && x.fraction == 0

/-- The word stands for zero, of either sign. -/
def isZero (x : Binary64) : Bool :=
  x.magnitude == 0

/-- The integer `m` of a finite number `m * 2 ^ scale`. -/
def mantissa (x : Binary64) : Nat :=
  if x.exponentField = 0 then x.fraction else Nat.pow 2 52 + x.fraction

/-- The exponent of two of a finite number. -/
def scale (x : Binary64) : Int :=
  if x.exponentField = 0 then -1074 else (x.exponentField : Int) - 1075

/-- The word with this sign and magnitude. -/
def ofMagnitude (negative : Bool) (magnitude : Nat) : Binary64 :=
  ⟨UInt64.ofNat (if negative then Nat.pow 2 63 + magnitude else magnitude)⟩

/-- Zero of the given sign. -/
def zero (negative : Bool) : Binary64 :=
  ofMagnitude negative 0

/-- Infinity of the given sign. -/
def infinity (negative : Bool) : Binary64 :=
  ofMagnitude negative (2047 * Nat.pow 2 52)

/-- The word written for every value that is not a number. -/
def nan : Binary64 :=
  ofMagnitude false (2047 * Nat.pow 2 52 + Nat.pow 2 51)

/-- The number with its sign turned. -/
def neg (x : Binary64) : Binary64 :=
  ofMagnitude (!x.isNegative) x.magnitude

/-- The quotient rounded to the nearest integer, a half going to the even one. -/
def roundHalfEven (numerator denominator : Nat) : Nat :=
  let quotient := numerator / denominator
  let remainder := numerator % denominator
  if 2 * remainder < denominator then quotient
  else if denominator < 2 * remainder then quotient + 1
  else quotient + quotient % 2

/-- The quotient as numerator and denominator after multiplication by a power of two. -/
def shifted (numerator denominator : Nat) (power : Int) : Nat × Nat :=
  if 0 ≤ power then (numerator * Nat.pow 2 power.toNat, denominator)
  else (numerator, denominator * Nat.pow 2 (-power).toNat)

/-- The scale at which the positive quotient has a mantissa of fifty-three bits, or the least scale
there is. -/
def scaleOf (numerator denominator : Nat) : Int :=
  let guess : Int := (numerator.log2 : Int) - denominator.log2 - 52
  let (top, bottom) := shifted numerator denominator (-guess)
  max (if top / bottom < Nat.pow 2 52 then guess - 1 else guess) (-1074)

/-- The number nearest to the quotient, a tie going to the even mantissa. A quotient that rounds
past the greatest finite number becomes infinity. -/
def ofRatio (negative : Bool) (numerator denominator : Nat) : Binary64 :=
  if numerator = 0 then zero negative
  else
    let scale := scaleOf numerator denominator
    let (top, bottom) := shifted numerator denominator (-scale)
    -- A mantissa of exactly `2 ^ 53` carries into the exponent field by itself.
    let magnitude := (scale + 1074).toNat * Nat.pow 2 52 + roundHalfEven top bottom
    if 2047 * Nat.pow 2 52 ≤ magnitude then infinity negative else ofMagnitude negative magnitude

/-- The number nearest to a natural number. -/
def ofNat (value : Nat) : Binary64 :=
  ofRatio false value 1

/-- The number nearest to an integer. -/
def ofInt (value : Int) : Binary64 :=
  ofRatio (value < 0) value.natAbs 1

/-- The exact value of a finite number, without its sign, as a quotient. -/
def toRatio (x : Binary64) : Nat × Nat :=
  shifted x.mantissa 1 x.scale

/-- The number nearest to `digits * 10 ^ exponent`. Exponents so far out that the digits cannot
matter are decided before any power is computed. -/
def ofDecimal (negative : Bool) (digits : Nat) (exponent : Int) : Binary64 :=
  let length : Int := (Nat.toDigits 10 digits).length
  if digits = 0 ∨ exponent + length < -330 then zero negative
  else if 330 < exponent + length then infinity negative
  else if 0 ≤ exponent then ofRatio negative (digits * Nat.pow 10 exponent.toNat) 1
  else ofRatio negative digits (Nat.pow 10 (-exponent).toNat)

/-- The rounded product of two finite numbers. -/
def mul (x y : Binary64) : Binary64 :=
  let (xTop, xBottom) := x.toRatio
  let (yTop, yBottom) := y.toRatio
  ofRatio (x.isNegative != y.isNegative) (xTop * yTop) (xBottom * yBottom)

/-- The rounded quotient of two finite numbers, the second not zero. -/
def div (x y : Binary64) : Binary64 :=
  let (xTop, xBottom) := x.toRatio
  let (yTop, yBottom) := y.toRatio
  ofRatio (x.isNegative != y.isNegative) (xTop * yBottom) (xBottom * yTop)

end Binary64

end ConfigFill.Decimal
