import Daybook.Text.Digits

/-!
# Durations as text

A duration is a number of seconds, minutes or hours: `90`, `90s`, `15m`, `2 h`.  Blanks may stand at
the ends and before the unit.  `Duration.ofText` gives the seconds.

The digits of all scripts have the form of a number, but only ASCII digits have a value here.  Both
the number and the seconds have to fit 64 bits.
-/

namespace Daybook.Duration

/-- **A unit of time.** -/
inductive Scale where
  | second
  | minute
  | hour

/-- The seconds of a unit. -/
def Scale.seconds : Scale → Nat
  | .second => 1
  | .minute => 60
  | .hour => 3600

/-- The unit that stands behind a number, seconds if nothing does. -/
def Scale.ofText? : List Char → Option Scale
  | [] => some .second
  | ['s'] => some .second
  | ['m'] => some .minute
  | ['h'] => some .hour
  | _ => none

/-- **Why a text gives no duration.** -/
inductive Fault where
  /-- The text has not the form of a duration. -/
  | form (text : String)
  /-- A digit of the number is not an ASCII digit. -/
  | foreignDigit
  /-- The number is too great. -/
  | numberTooLarge
  /-- The seconds are too many. -/
  | tooLong (text : String)
  deriving DecidableEq

/-- What is wrong, without the reason. -/
def Fault.summary : Fault → String
  | .form text =>
    s!"Invalid duration: {text}. Use seconds (e.g., 90) or a unit (e.g., 15m, 1h)"
  | .foreignDigit => "failed to parse number in duration"
  | .numberTooLarge => "failed to parse number in duration"
  | .tooLong text => s!"duration too large: {text}"

/-- What is wrong, with the reason. -/
def Fault.message : Fault → String
  | .foreignDigit => s!"{Fault.foreignDigit.summary}: invalid digit found in string"
  | .numberTooLarge =>
    s!"{Fault.numberTooLarge.summary}: number too large to fit in target type"
  | fault => fault.summary

/-- The greatest number of seconds. -/
def maxSeconds : Nat := Nat.pow 2 63 - 1

/-- The value of digits behind others of the given value.  The first digit that is not ASCII or
makes the value too great is at fault. -/
def valueOf (value : Nat) : List Char → Except Fault Nat
  | [] => .ok value
  | c :: cs =>
    if c.isDigit then
      let value := value * 10 + (c.toNat - '0'.toNat)
      if maxSeconds < value then .error .numberTooLarge else valueOf value cs
    else .error .foreignDigit

/-- **Reads a duration** in seconds. -/
def ofText (text : String) : Except Fault Int64 := do
  let cs := Text.trim text.toList
  let digits := cs.takeWhile Text.isDecimalDigit
  let some scale := Scale.ofText? (Text.skipBlanks (cs.dropWhile Text.isDecimalDigit))
    | throw (.form text)
  if digits.isEmpty then throw (.form text)
  let n ← valueOf 0 digits
  let seconds := n * scale.seconds
  if seconds ≤ maxSeconds then return Int64.ofNat seconds else throw (.tooLong text)

end Daybook.Duration
