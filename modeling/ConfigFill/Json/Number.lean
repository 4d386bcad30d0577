import ConfigFill.Json.Fault
import ConfigFill.Text.Digits
import ConfigFill.Tree.Basic

/-!
# Numbers in JSON

A number is an integer if it has neither a fraction nor an exponent, is not a negative zero and fits
in 64 bits with a sign; every other number is a floating-point number. Its digits are gathered in a
64-bit significand, as many as fit, and the significand is then scaled by a power of ten in one
rounded multiplication or division. So the last bit can differ from that of the nearest number.
-/

namespace ConfigFill.Json

open Decimal (Binary64)
open Text (digitValue)

/-- The first number that a significand cannot hold. -/
def significandEnd : Nat :=
  Nat.pow 2 64

/-- The number `value * 10 ^ exponent`, with the digits that fit in a significand. -/
structure Significand where
  value : Nat
  exponent : Int
  deriving DecidableEq, Repr

namespace Significand

/-- The value with one more digit fits. -/
def takes (significand : Significand) (digit : Char) : Bool :=
  significand.value * 10 + digitValue digit < significandEnd

/-- One more digit before the point. From the first one that does not fit, each only counts. -/
def addWhole (significand : Significand) (digit : Char) : Significand :=
  if significand.exponent = 0 ∧ significand.takes digit then
    ⟨significand.value * 10 + digitValue digit, 0⟩
  else { significand with exponent := significand.exponent + 1 }

/-- The significand of the digits before the point. -/
def ofWhole (digits : List Char) : Significand :=
  digits.foldl addWhole ⟨0, 0⟩

/-- The significand with the digits after the point, up to the first one that does not fit. -/
def addFraction (significand : Significand) : List Char → Significand
  | [] => significand
  | digit :: rest =>
      if significand.takes digit then
        addFraction ⟨significand.value * 10 + digitValue digit, significand.exponent - 1⟩ rest
      else significand

/-- A number divided by a power of ten, in steps of at most `10 ^ 308`. -/
def divided (number : Binary64) (power : Nat) : Binary64 :=
  if power ≤ 308 then number.div (.ofNat (Nat.pow 10 power))
  else if number.isZero then number
  else divided (number.div (.ofNat (Nat.pow 10 308))) (power - 308)
termination_by power

/-- The floating-point number of a significand, without its sign, unless it is too large. -/
def number? (significand : Significand) : Option Binary64 :=
  let number := Binary64.ofNat significand.value
  if significand.exponent < 0 then some (divided number (-significand.exponent).toNat)
  else if significand.exponent ≤ 308 then
    let scaled := number.mul (.ofNat (Nat.pow 10 significand.exponent.toNat))
    if scaled.isInfinite then none else some scaled
  else if number.isZero then some number
  else none

end Significand

/-- A floating-point number with a sign put before it. -/
def signed (negative : Bool) (number : Binary64) : Tree :=
  .float (if negative then number.neg else number)

/-- The number of a significand and a sign, with the text after it. -/
def scaled (negative : Bool) (significand : Significand) (rest : List Char) :
    Except Fault (Tree × List Char) :=
  match significand.number? with
  | some number => .ok (signed negative number, rest)
  | none => .error (.before .numberOutOfRange rest)

/-- The digits of an exponent as a number below 2^31. If they go beyond, the digits after the one at
which they do. -/
def exponentValue (value : Nat) : List Char → Except (List Char) Nat
  | [] => .ok value
  | digit :: rest =>
      let value := value * 10 + digitValue digit
      if value < Nat.pow 2 31 then exponentValue value rest else .error rest

/-- The number of a significand and what follows the exponent mark. -/
def readExponent (negative : Bool) (significand : Significand) (text : List Char) :
    Except Fault (Tree × List Char) :=
  let (down, text) :=
    match text with
    | '+' :: rest => (false, rest)
    | '-' :: rest => (true, rest)
    | rest => (false, rest)
  let rest := text.dropWhile Char.isDigit
  match text.takeWhile Char.isDigit with
  | [] => .error (if text.isEmpty then .before .endInValue [] else .next .invalidNumber text)
  | digits =>
      match exponentValue 0 digits with
      | .ok value =>
          let shift : Int := if down then -value else value
          scaled negative { significand with exponent := significand.exponent + shift } rest
      | .error unread =>
          if significand.value ≠ 0 ∧ !down then
            .error (.before .numberOutOfRange (unread ++ rest))
          else .ok (signed negative (.zero false), rest)

/-- The number of a significand and what follows its digits. -/
def readScale (negative : Bool) (significand : Significand) (text : List Char) :
    Except Fault (Tree × List Char) :=
  match text with
  | 'e' :: rest => readExponent negative significand rest
  | 'E' :: rest => readExponent negative significand rest
  | rest => scaled negative significand rest

/-- The number of a significand and what follows the point. -/
def readFraction (negative : Bool) (significand : Significand) (text : List Char) :
    Except Fault (Tree × List Char) :=
  match text.takeWhile Char.isDigit with
  | [] => .error (.next (if text.isEmpty then .endInValue else .invalidNumber) text)
  | digits =>
      readScale negative (significand.addFraction digits) (text.dropWhile Char.isDigit)

/-- The tree of a whole number that fits in a significand. -/
def whole (negative : Bool) (value : Nat) : Tree :=
  if negative then
    if value = 0 ∨ Nat.pow 2 63 < value then signed true (.ofNat value)
    else .int (Int64.ofInt (-value))
  else if value < Nat.pow 2 63 then .int (Int64.ofNat value)
  else signed false (.ofNat value)

/-- The number of the digits before the point and what follows them. -/
def readAfterWhole (negative : Bool) (digits text : List Char) : Except Fault (Tree × List Char) :=
  let significand := Significand.ofWhole digits
  match text with
  | '.' :: rest => readFraction negative significand rest
  | 'e' :: _ => readScale negative significand text
  | 'E' :: _ => readScale negative significand text
  | _ =>
      if significand.exponent = 0 then .ok (whole negative significand.value, text)
      else scaled negative significand text

/-- Read a number whose sign, if it has one, has been read. -/
def readNumber (negative : Bool) (text : List Char) : Except Fault (Tree × List Char) :=
  match text.takeWhile Char.isDigit with
  | [] => .error (if text.isEmpty then .before .endInValue [] else .next .invalidNumber text)
  | '0' :: _ :: _ => .error (.next .invalidNumber (text.drop 1))
  | digits => readAfterWhole negative digits (text.dropWhile Char.isDigit)

end ConfigFill.Json
