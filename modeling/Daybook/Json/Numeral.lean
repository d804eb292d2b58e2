import Daybook.Decimal
import Daybook.Json.Basic

/-!
# What a number stands for

A whole number in the 64-bit range, signed or not, stands for itself.  Every other number is a
float, and so is `-0`.  The float of a number is reached in two steps: as many digits as a 64-bit
significand holds are taken, and the significand is multiplied or divided by the power of ten that
is left over.  A number too great for the floats stands for nothing.
-/

namespace Daybook.Json

/-- **The value of a number.** -/
inductive Numeral where
  /-- A whole number of the signed range. -/
  | integer (n : Int64)
  /-- A whole number above the signed range, but within the unsigned one. -/
  | large (n : Nat)
  /-- Any other number. -/
  | real (x : Float)

namespace Number

/-- The greatest significand. -/
def maxSignificand : Nat :=
  Nat.pow 2 64 - 1

/-- The greatest exponent that is read as a number. -/
def maxExponent : Int :=
  Int32.maxValue.toInt

/-- Appends digits to a significand as long as it stays in range.  Gives also how many digits are
left out. -/
def takeDigits (significand : Nat) : List Char → Nat × Nat
  | [] => (significand, 0)
  | d :: ds =>
    let longer := significand * 10 + (d.toNat - '0'.toNat)
    if maxSignificand < longer then (significand, ds.length + 1) else takeDigits longer ds

/-- A power of ten as a float. -/
def tenTo (n : Nat) : Float :=
  Float.ofScientific 1 false n

/-- The float `x · 10 ^ power` for an `x` below `2 ^ 64`; none if it is too great.  Two divisions by
the greatest power leave nothing of it. -/
def scale? (x : Float) (power : Int) : Option Float :=
  if 308 < power then if x == 0 then some x else none
  else if 0 ≤ power then
    let y := x * tenTo power.toNat
    if y.isInf then none else some y
  else if -308 ≤ power then some (x / tenTo (-power).toNat)
  else if -616 ≤ power then some (x / tenTo 308 / tenTo (-power - 308).toNat)
  else some 0

/-- The float that a number is read as; none if it is too great. -/
def float? (n : Number) : Option Float :=
  let (significand, left) := takeDigits 0 n.whole
  let (significand, leftBehind) := takeDigits significand n.fraction
  let power : Int := (left : Int) - (n.fraction.length - leftBehind)
  let exponent := n.exponent.getD 0
  let magnitude :=
    if maxExponent < exponent then if significand == 0 then some 0 else none
    else if exponent < -maxExponent then some 0
    else scale? significand.toUInt64.toFloat (power + exponent)
  magnitude.map fun x => if n.negative then -x else x

/-- **The value of a number**; none if it is too great for a float. -/
def numeral? (n : Number) : Option Numeral :=
  let value := Text.naturalOf n.whole
  if n.fraction.isEmpty ∧ n.exponent.isNone ∧ value ≤ maxSignificand then
    if n.negative then
      if 0 < value ∧ value ≤ Nat.pow 2 63 then some (.integer (Int64.ofInt (-value)))
      else n.float?.map .real
    else if value < Nat.pow 2 63 then some (.integer (Int64.ofInt value))
    else some (.large value)
  else n.float?.map .real

/-- Numbers in errors are positional up to 16 digits before the point and four zeros behind it, and
their ties go to the even digit. -/
def layout : Decimal.Layout :=
  { positional := fun point => decide (-4 ≤ point ∧ point ≤ 16), keepsPoint := true
    tie := .toEven }

end Number

end Daybook.Json
