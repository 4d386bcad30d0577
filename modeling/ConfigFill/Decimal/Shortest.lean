import ConfigFill.Decimal.Binary64

/-!
# The shortest decimal that reads back

A finite number is shown by the fewest digits that still read back as the same number, and among
those by the digits nearest to it; a `Tie` says which of two equally near ones is taken. `shortest`
tries one digit, two digits and so on; at each count the two neighbours of the number on that
decimal grid are the only candidates, because a grid point in the interval of quotients that round
to the number lies at or beyond one of them.
-/

namespace ConfigFill.Decimal

/-- What becomes of a number halfway between two decimals. -/
inductive Tie where
  /-- The one whose last digit is even. -/
  | even
  /-- The one that is farther from zero. -/
  | away
  deriving DecidableEq, Repr

/-- A positive decimal `coefficient * 10 ^ exponent`. -/
structure Scientific where
  coefficient : Nat
  exponent : Int
  deriving DecidableEq, Repr

namespace Scientific

/-- The decimal digits of the coefficient. -/
def digits (value : Scientific) : List Char :=
  Nat.toDigits 10 value.coefficient

/-- The decimal exponent when one digit stands before the point. -/
def leadingExponent (value : Scientific) : Int :=
  value.exponent + value.digits.length - 1

/-- The same value with up to `fuel` trailing zeros of the coefficient moved to the exponent. -/
def strip : Nat → Scientific → Scientific
  | 0, value => value
  | fuel + 1, value =>
      if value.coefficient % 10 = 0 then
        strip fuel ⟨value.coefficient / 10, value.exponent + 1⟩
      else value

end Scientific

/-- The quotients that round to one number lie between two ends; both belong when the mantissa is
even. All four quotients share one denominator. -/
structure RoundingInterval where
  low : Nat
  value : Nat
  high : Nat
  denominator : Nat
  closed : Bool

namespace RoundingInterval

/-- The rounding interval of a finite number other than zero. Below a power of two the numbers lie
twice as dense as above it, so the lower end is nearer there. -/
def of (x : Binary64) : RoundingInterval :=
  let m := x.mantissa
  let below := if x.fraction = 0 ∧ 1 < x.exponentField then 1 else 2
  let (unit, denominator) := Binary64.shifted 1 4 x.scale
  { low := (4 * m - below) * unit
    value := 4 * m * unit
    high := (4 * m + 2) * unit
    denominator := denominator
    closed := m % 2 == 0 }

/-- The decimal `coefficient * 10 ^ exponent` lies in the interval. -/
def contains (interval : RoundingInterval) (decimal : Scientific) : Bool :=
  let (top, bottom) :=
    if 0 ≤ decimal.exponent then
      (decimal.coefficient * Nat.pow 10 decimal.exponent.toNat * interval.denominator, 1)
    else (decimal.coefficient * interval.denominator, Nat.pow 10 (-decimal.exponent).toNat)
  if interval.closed then interval.low * bottom ≤ top && top ≤ interval.high * bottom
  else interval.low * bottom < top && top < interval.high * bottom

/-- The number is at least the power of ten. -/
def reaches (interval : RoundingInterval) (power : Int) : Bool :=
  if 0 ≤ power then Nat.pow 10 power.toNat * interval.denominator ≤ interval.value
  else interval.denominator ≤ interval.value * Nat.pow 10 (-power).toNat

/-- The greatest power of ten that the number reaches. -/
def decade (interval : RoundingInterval) : Int :=
  let binary : Int := (interval.value.log2 : Int) - interval.denominator.log2
  let guess := binary * 30103 / 100000
  if interval.reaches (guess + 1) then guess + 1
  else if interval.reaches guess then guess
  else guess - 1

/-- The quotient rounds down to a whole number: its remainder is less than half the divisor, or
half of it and a tie goes down. -/
def roundsDown (tie : Tie) (top bottom : Nat) : Bool :=
  let twice := 2 * (top % bottom)
  twice < bottom || (twice == bottom && tie == .even && top / bottom % 2 == 0)

/-- The candidate with this many digits: of the two neighbours on the grid, the one in the interval,
and the nearer one where both are. -/
def candidate (interval : RoundingInterval) (tie : Tie) (count : Nat) : Option Scientific :=
  let exponent := interval.decade - count + 1
  let (top, bottom) :=
    if 0 ≤ exponent then (interval.value, interval.denominator * Nat.pow 10 exponent.toNat)
    else (interval.value * Nat.pow 10 (-exponent).toNat, interval.denominator)
  let lower : Scientific := ⟨top / bottom, exponent⟩
  let upper : Scientific := ⟨top / bottom + 1, exponent⟩
  match interval.contains lower, interval.contains upper with
  | true, true => some (if roundsDown tie top bottom then lower else upper)
  | true, false => some lower
  | false, true => some upper
  | false, false => none

end RoundingInterval

/-- The fewest digits that read back as the number, and of those the nearest, for a finite number
other than zero. Seventeen digits always suffice. -/
def shortest (tie : Tie) (x : Binary64) : Scientific :=
  let interval := RoundingInterval.of x
  match (List.range 17).findSome? fun count ↦ interval.candidate tie (count + 1) with
  | some decimal => decimal.strip 400
  | none => ⟨0, 0⟩

end ConfigFill.Decimal
