import Daybook.Calendar.Date
import Daybook.Decimal

/-!
# Words in TOML

Numbers, truth values, dates and times are words: runs of letters, digits and `+ - . _ :` that a
blank, a separator or the end of the line ends.  `Toml.Scalar.ofWord?` says what a word stands for.

Digits may be grouped by single underscores between them.  A whole number must fit 64 bits, and a
date or time of day must exist.  Of a date or time nothing more is kept.
-/

namespace Daybook.Toml

/-- **What a word stands for.** -/
inductive Scalar where
  | integer (n : Int64)
  /-- A number with a fraction or an exponent. -/
  | real (x : Float)
  | bool (b : Bool)
  /-- A date, a time of day or both. -/
  | moment

/-- Whether a character can belong to a word. -/
def isWordChar (c : Char) : Bool :=
  c.isAlphanum || c == '+' || c == '-' || c == '.' || c == '_' || c == ':'

/-! ### Digits -/

/-- The value of a digit up to base 16. -/
def digitValue (c : Char) : Nat :=
  if c.isDigit then c.toNat - '0'.toNat else c.toLower.toNat - 'a'.toNat + 10

/-- Whether a character is a digit in a base of at most 16. -/
def isDigitIn (base : Nat) (c : Char) : Bool :=
  (c.isDigit || ('a' ≤ c.toLower && c.toLower ≤ 'f')) && digitValue c < base

/-- The digits of a grouped number; none unless every underscore stands between two digits. -/
def ungroup? (base : Nat) : List Char → Option (List Char)
  | [] => none
  | [c] => if isDigitIn base c then some [c] else none
  | c :: '_' :: cs => if isDigitIn base c then (ungroup? base cs).map (c :: ·) else none
  | c :: cs => if isDigitIn base c then (ungroup? base cs).map (c :: ·) else none

/-- The value of digits. -/
def valueIn (base : Nat) (digits : List Char) : Nat :=
  digits.foldl (fun n c => n * base + digitValue c) 0

/-- The number, if it fits 64 bits. -/
def int64? (n : Int) : Option Int64 :=
  if Int64.minValue.toInt ≤ n ∧ n ≤ Int64.maxValue.toInt then some (Int64.ofInt n) else none

/-! ### Numbers -/

/-- The sign in front of a word, and the rest. -/
def splitSign : List Char → Int × List Char
  | '+' :: cs => (1, cs)
  | '-' :: cs => (-1, cs)
  | cs => (1, cs)

/-- Decimal digits without needless zeros in front. -/
def wholePart? (cs : List Char) : Option (List Char) :=
  match ungroup? 10 cs with
  | some ['0'] => some ['0']
  | some ('0' :: _) => none
  | digits => digits

/-- A whole number in a base, or in decimal with a sign. -/
def integer? (cs : List Char) : Option Int64 :=
  match cs with
  | '0' :: 'x' :: ds => (ungroup? 16 ds).bind fun ds => int64? (valueIn 16 ds)
  | '0' :: 'o' :: ds => (ungroup? 8 ds).bind fun ds => int64? (valueIn 8 ds)
  | '0' :: 'b' :: ds => (ungroup? 2 ds).bind fun ds => int64? (valueIn 2 ds)
  | cs =>
    let (sign, digits) := splitSign cs
    (wholePart? digits).bind fun ds => int64? (sign * valueIn 10 ds)

/-- An exponent. -/
def exponent? (cs : List Char) : Option Int :=
  let (sign, digits) := splitSign cs
  (ungroup? 10 digits).map fun ds => sign * valueIn 10 ds

/-- A number with a fraction, an exponent or both, or one of the words `inf` and `nan`.  One that is
too great is none, unless it is negative. -/
def real? (cs : List Char) : Option Float := do
  let (sign, magnitude) := splitSign cs
  let x ←
    if magnitude = ['i', 'n', 'f'] then some (1 / 0)
    else if magnitude = ['n', 'a', 'n'] then some (0 / 0)
    else
      let isMark (c : Char) : Bool := c == 'e' || c == 'E'
      let mantissa := magnitude.takeWhile (!isMark ·)
      let whole ← wholePart? (mantissa.takeWhile (· != '.'))
      let fraction ← match mantissa.dropWhile (· != '.') with
        | [] => some []
        | _ :: ds => ungroup? 10 ds
      let exponent ← match magnitude.dropWhile (!isMark ·) with
        | [] => if fraction.isEmpty then none else some 0
        | _ :: ds => exponent? ds
      let x := Decimal.toFloat (Text.naturalOf (whole ++ fraction)) (exponent - fraction.length)
      if x.isInf && sign == 1 then none else some x
  return if sign == 1 then x else -x

/-! ### Dates and times -/

/-- The value of exactly so many digits at the front of a text, and the rest. -/
def fixedDigits? (count : Nat) (cs : List Char) : Option (Nat × List Char) :=
  let digits := cs.take count
  if digits.length = count ∧ digits.all Char.isDigit then
    some (Text.naturalOf digits, cs.drop count)
  else none

/-- A separator at the front of a text. -/
def separator? (c : Char) : List Char → Option (List Char)
  | [] => none
  | d :: cs => if c == d then some cs else none

/-- A date at the front of a text, and the rest. -/
def date? (cs : List Char) : Option (List Char) := do
  let (year, cs) ← fixedDigits? 4 cs
  let cs ← separator? '-' cs
  let (month, cs) ← fixedDigits? 2 cs
  let cs ← separator? '-' cs
  let (day, cs) ← fixedDigits? 2 cs
  if Civil.Valid { year, month, day } then some cs else none

/-- Hours and minutes at the front of a text, and the rest. -/
def hourAndMinute? (cs : List Char) : Option (List Char) := do
  let (hour, cs) ← fixedDigits? 2 cs
  let cs ← separator? ':' cs
  let (minute, cs) ← fixedDigits? 2 cs
  if hour < 24 ∧ minute < 60 then some cs else none

/-- A time of day at the front of a text, and the rest. -/
def time? (cs : List Char) : Option (List Char) := do
  let cs ← hourAndMinute? cs
  let cs ← separator? ':' cs
  let (second, cs) ← fixedDigits? 2 cs
  if 60 < second then none
  else
    match cs with
    | '.' :: cs =>
      if (cs.takeWhile Char.isDigit).isEmpty then none else some (cs.dropWhile Char.isDigit)
    | cs => some cs

/-- Whether a text is empty or an offset from UTC. -/
def isOffset : List Char → Bool
  | [] => true
  | ['Z'] => true
  | ['z'] => true
  | '+' :: cs => hourAndMinute? cs == some []
  | '-' :: cs => hourAndMinute? cs == some []
  | _ => false

/-- Whether a word is a date, a time of day or both.  A blank may stand between the two. -/
def isMoment (cs : List Char) : Bool :=
  match date? cs with
  | some [] => true
  | some (c :: rest) =>
    (c == 'T' || c == 't' || c == ' ') && (time? rest).any isOffset
  | none => time? cs == some []

/-- **What a word stands for**, if it stands for anything. -/
def Scalar.ofWord? (word : List Char) : Option Scalar :=
  if word = ['t', 'r', 'u', 'e'] then some (.bool true)
  else if word = ['f', 'a', 'l', 's', 'e'] then some (.bool false)
  else if isMoment word then some .moment
  else
    match integer? word with
    | some n => some (.integer n)
    | none => (real? word).map .real

theorem Scalar.ofWord?_nil : ofWord? [] = none :=
  rfl

end Daybook.Toml
