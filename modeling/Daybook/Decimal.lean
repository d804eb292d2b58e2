import Daybook.Text.Digits

/-!
# Floating point numbers in decimal

A float is shown by the fewest decimal digits that still name it, and among those by the ones
nearest to it.  `Dyadic.shortest` finds these digits in exact arithmetic, for a positive number
`significand · 2 ^ exponent` of binary precision; `Decimal.text` sets them out as a `Layout` says.
Where two decimals are equally near, the layout says which of them it is (`Decimal.Tie`).

The reals that a float stands for form an interval around it, half way to its neighbours on both
sides; the two ends belong to it exactly if the significand is even.  Numbers of `n` digits form a
grid, and the two points of the grid around the float are the only ones of it that need a look.
-/

namespace Daybook

/-- **A positive binary number of limited precision**, `significand · 2 ^ exponent`. -/
structure Dyadic where
  significand : Nat
  /-- The power of two. -/
  exponent : Int
  /-- Whether the next float below is only half as far away as the one above. -/
  crowdedBelow : Bool

/-- **A positive decimal number**: `0.d₁d₂d₃… · 10 ^ point` for the digits `d₁d₂d₃…`. -/
structure Decimal where
  /-- The significant digits, without zeros at the end. -/
  digits : List Char
  /-- How many of the digits stand before the point; negative for zeros behind it. -/
  point : Int

/-- **Which of two decimals stands for a number half way between them.** -/
inductive Decimal.Tie where
  /-- The one whose last digit is even. -/
  | toEven
  /-- The greater one. -/
  | up
  deriving DecidableEq

/-- Whether a number half way between `low` and `low + 1` is shown by the greater of them. -/
def Decimal.Tie.goesUp (tie : Decimal.Tie) (low : Nat) : Bool :=
  match tie with
  | .toEven => low % 2 == 1
  | .up => true

namespace Dyadic

/-- The fraction `n · 2 ^ two / 10 ^ ten` as numerator and denominator. -/
def fraction (n : Nat) (two ten : Int) : Nat × Nat :=
  (n * Nat.pow 2 two.toNat * Nat.pow 10 (-ten).toNat,
    Nat.pow 2 (-two).toNat * Nat.pow 10 ten.toNat)

/-- The number of decimal digits before the point; zero or negative for numbers below one tenth,
where it counts the zeros behind the point. -/
def magnitude (x : Dyadic) : Int :=
  let (num, den) := fraction x.significand x.exponent 0
  if den ≤ num then (Text.natural (num / den)).length
  else
    match (List.range 400).find? fun zeros => den ≤ num * Nat.pow 10 (zeros + 1) with
    | some zeros => -(zeros : Int)
    | none => -400

/-- Whether the grid point `n · 10 ^ ten` lies among the reals that are rounded to `x`. -/
def names (x : Dyadic) (n : Nat) (ten : Int) : Bool :=
  let (pointNum, pointDen) := (n * Nat.pow 10 ten.toNat, Nat.pow 10 (-ten).toNat)
  let below := 4 * x.significand - (if x.crowdedBelow then 1 else 2)
  let above := 4 * x.significand + 2
  let compare (quarters : Nat) : Ordering :=
    let (num, den) := fraction quarters (x.exponent - 2) 0
    Ord.compare (num * pointDen) (pointNum * den)
  if x.significand % 2 == 0 then compare below != .gt && compare above != .lt
  else compare below == .lt && compare above == .gt

/-- The decimal of exactly `count` digits that names `x` and is nearest to it, if there is one. -/
def nearest? (tie : Decimal.Tie) (x : Dyadic) (count : Nat) : Option (Nat × Int) :=
  let ten := x.magnitude - count
  let (num, den) := fraction x.significand x.exponent ten
  let low := num / den
  let rest := num % den
  match x.names low ten, x.names (low + 1) ten with
  | true, true =>
    if 2 * rest < den || (2 * rest == den && !tie.goesUp low) then some (low, ten)
    else some (low + 1, ten)
  | true, false => some (low, ten)
  | false, true => some (low + 1, ten)
  | false, false => none

/-- The shortest decimal that names `x`.  Seventeen digits always do. -/
def shortest (tie : Decimal.Tie) (x : Dyadic) : Decimal :=
  match (List.range 17).findSome? fun i => x.nearest? tie (i + 1) with
  | some (n, ten) =>
    let digits := Text.natural n
    let kept := (digits.reverse.dropWhile (· == '0')).reverse
    { digits := kept, point := ten + digits.length }
  | none => { digits := [], point := 0 }

/-- The magnitude of a finite float that is not zero. -/
def ofFloat? (x : Float) : Option Dyadic :=
  let bits := x.toBits.toNat
  let fractionBits : Nat := bits % Nat.pow 2 52
  let exponentBits : Nat := bits / Nat.pow 2 52 % Nat.pow 2 11
  if exponentBits == 2047 || bits % Nat.pow 2 63 == 0 then none
  else if exponentBits == 0 then some ⟨fractionBits, -1074, false⟩
  else
    some ⟨fractionBits + Nat.pow 2 52, (exponentBits : Int) - 1075,
      fractionBits == 0 && exponentBits != 1⟩

end Dyadic

namespace Decimal

/-- **How a float is set out.** -/
structure Layout where
  /-- Whether a number with so many digits before its point is written without an exponent. -/
  positional : Int → Bool
  /-- Whether a whole number written without an exponent keeps `.0`. -/
  keepsPoint : Bool
  /-- Which way a tie goes. -/
  tie : Tie

/-- Digits with the point in its place, zeros filled in. -/
def plain (keepsPoint : Bool) (d : Decimal) : List Char :=
  let count : Int := d.digits.length
  if d.point ≤ 0 then ['0', '.'] ++ List.replicate (-d.point).toNat '0' ++ d.digits
  else if count ≤ d.point then
    d.digits ++ List.replicate (d.point - count).toNat '0' ++
      (if keepsPoint then ['.', '0'] else [])
  else d.digits.take d.point.toNat ++ '.' :: d.digits.drop d.point.toNat

/-- One digit before the point, and a signed exponent. -/
def scientific (d : Decimal) : List Char :=
  let power := d.point - 1
  let front := match d.digits with
    | [] => []
    | [c] => [c]
    | c :: cs => c :: '.' :: cs
  front ++ 'e' :: (if power < 0 then '-' else '+') :: Text.natural power.natAbs

/-- A float as text. -/
def text (layout : Layout) (x : Float) : List Char :=
  let sign := if Nat.pow 2 63 ≤ x.toBits.toNat then ['-'] else []
  if x.isNaN then ['N', 'a', 'N']
  else if x.isInf then sign ++ ['i', 'n', 'f']
  else
    match Dyadic.ofFloat? x with
    | none => sign ++ (if layout.keepsPoint then ['0', '.', '0'] else ['0'])
    | some d =>
      let d := d.shortest layout.tie
      sign ++ (if layout.positional d.point then d.plain layout.keepsPoint else d.scientific)

/-- The float nearest to `n · 10 ^ power`.  Far beyond the floats it is infinite or zero. -/
def toFloat (n : Nat) (power : Int) : Float :=
  let point := (Text.natural n).length + power
  if n = 0 then 0
  else if 400 < point then 1 / 0
  else if point < -400 then 0
  else if 0 ≤ power then Float.ofScientific n false power.toNat
  else Float.ofScientific n true (-power).toNat

end Decimal

end Daybook
