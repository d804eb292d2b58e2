import Daybook.Text.Digits

/-!
# Reading dates and times from text

The small readers that dates and instants are read with, and what can go wrong.  Each takes its part
off the front of a text and gives the rest.  A number is checked for its range at once, so the first
fault in the text is the one reported.
-/

namespace Daybook

/-- **Why a date or an instant cannot be read.** -/
inductive TimeFault where
  /-- The text ends where something has to follow. -/
  | tooShort
  /-- Something stands where it does not belong. -/
  | invalid
  /-- A number is out of its range, or there is no such date. -/
  | outOfRange
  /-- Something follows the end. -/
  | trailing
  /-- The instant lies outside the range of dates. -/
  | impossible
  deriving DecidableEq

/-- The text of a fault. -/
def TimeFault.message : TimeFault → String
  | .tooShort => "premature end of input"
  | .invalid => "input contains invalid characters"
  | .outOfRange => "input is out of range"
  | .trailing => "trailing input"
  | .impossible => "no possible date and time matching input"

namespace TimeScan

/-- A reader of the front of a text. -/
abbrev Scan (α : Type) := List Char → Except TimeFault (α × List Char)

/-- The greatest number that is read. -/
def maxNumber : Nat := Nat.pow 2 63 - 1

/-- Reads on through at most `limit` digits, from the value of those before.  A value that gets too
great is out of range at the digit where it does. -/
def digits : (limit : Nat) → (value : Nat) → Scan Nat
  | 0, value, cs => .ok (value, cs)
  | _ + 1, value, [] => .ok (value, [])
  | limit + 1, value, c :: cs =>
    if c.isDigit then
      let value := value * 10 + (c.toNat - '0'.toNat)
      if maxNumber < value then .error .outOfRange else digits limit value cs
    else .ok (value, c :: cs)

/-- A number of one digit at least and `limit` at most. -/
def number (limit : Nat) : Scan Nat
  | [] => .error .tooShort
  | c :: cs => if c.isDigit then digits limit 0 (c :: cs) else .error .invalid

/-- A number in a range. -/
def numberWithin (limit low high : Nat) : Scan Nat := fun cs => do
  let (n, cs) ← number limit cs
  if low ≤ n ∧ n ≤ high then return (n, cs) else throw .outOfRange

/-- A character that has to be there. -/
def literal (expected : Char) : Scan Unit
  | [] => .error .tooShort
  | c :: cs => if c == expected then .ok ((), cs) else .error .invalid

/-- A year: four digits at most, or a sign and any number of digits. -/
def year : Scan Int := fun cs => do
  let (n, cs) ← match Text.skipBlanks cs with
    | '-' :: cs => do
      let (n, cs) ← number cs.length cs
      pure (-(n : Int), cs)
    | '+' :: cs => do
      let (n, cs) ← number cs.length cs
      pure ((n : Int), cs)
    | cs => do
      let (n, cs) ← number 4 cs
      pure ((n : Int), cs)
  if Int32.minValue.toInt ≤ n ∧ n ≤ Int32.maxValue.toInt then return (n, cs)
  else throw .outOfRange

/-- A month, with blanks before it. -/
def month : Scan Nat := fun cs => numberWithin 2 1 12 (Text.skipBlanks cs)

/-- A day of the month, with blanks before it. -/
def day : Scan Nat := fun cs => numberWithin 2 1 31 (Text.skipBlanks cs)

end TimeScan

end Daybook
