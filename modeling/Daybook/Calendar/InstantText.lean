import Daybook.Calendar.Instant
import Daybook.Calendar.DateText

/-!
# Instants as text

An instant is written as date and time of day in UTC, `2024-05-06T09:00:00Z`, with three, six or
nine digits of a fraction if the second is not whole.  A leap second is written as second 60.

Reading is more generous.  Blanks may stand around the numbers, a blank may take the place of the
`T`, numbers may have a single digit, and the time may be given at an offset from UTC.  The parts
are put together only after the whole text has been read, so a date that does not exist is reported
after everything that is wrong with the text.
-/

namespace Daybook

/-! ### Writing -/

/-- Hours, minutes and seconds of a second of the day. -/
def clockText (second : Nat) : List Char :=
  Text.padded 2 (second / 3600) ++ ':' :: Text.padded 2 (second / 60 % 60) ++
    ':' :: Text.padded 2 (second % 60)

/-- The fraction of a second, in as many groups of three digits as it needs. -/
def fractionText (nanos : Nat) : List Char :=
  if nanos = 0 then []
  else if nanos % 1000000 = 0 then '.' :: Text.padded 3 (nanos / 1000000)
  else if nanos % 1000 = 0 then '.' :: Text.padded 6 (nanos / 1000)
  else '.' :: Text.padded 9 nanos

namespace Instant

/-- An instant as text. -/
def text (t : Instant) : List Char :=
  let second := t.secondOfDay.toNat
  t.date.text ++ 'T' ::
    (if t.isLeap then
      Text.padded 2 (second / 3600) ++ ':' :: Text.padded 2 (second / 60 % 60) ++ [':', '6', '0'] ++
        fractionText (t.nanos - 1000000000)
    else clockText second ++ fractionText t.nanos) ++ ['Z']

end Instant

/-! ### Reading -/

namespace TimeScan

/-- The fraction of a second at the front of a text, in nanoseconds.  Digits behind the ninth are
dropped. -/
def fraction : Scan Nat
  | '.' :: cs => do
    let (n, rest) ← number 9 cs
    let count := cs.length - rest.length
    return (n * Nat.pow 10 (9 - count), rest.dropWhile Char.isDigit)
  | cs => .ok (0, cs)

/-- The value of two digits.  Two characters have to follow; one that is not ASCII counts as two. -/
def twoDigits : Scan (Nat × Nat)
  | [] => .error .tooShort
  | [c] => .error (if c.toNat < 0x80 then .tooShort else .invalid)
  | c :: d :: cs =>
    if c.isDigit && d.isDigit then .ok ((c.toNat - '0'.toNat, d.toNat - '0'.toNat), cs)
    else .error .invalid

/-- An offset by hours and minutes, in seconds. -/
def hoursAndMinutes (sign : Int) : Scan Int := fun cs => do
  let ((h, h'), cs) ← twoDigits cs
  let ((m, m'), cs) ← twoDigits (cs.dropWhile fun c => c == ':' || Text.isBlank c)
  if 6 ≤ m then throw .outOfRange
  return (sign * ((h * 10 + h') * 3600 + (m * 10 + m') * 60 : Nat), cs)

/-- An offset from UTC in seconds: `UTC`, `Z`, or a sign with hours and minutes. -/
def offset : Scan Int
  | [] => .error .tooShort
  | c :: cs =>
    match c.toUpper, cs with
    | 'U', t :: u :: rest =>
      if t.toUpper == 'T' && u.toUpper == 'C' then .ok (0, rest) else .error .invalid
    | 'Z', rest => .ok (0, rest)
    | '+', rest => hoursAndMinutes 1 rest
    | '-', rest => hoursAndMinutes (-1) rest
    | '\u2212', rest => hoursAndMinutes (-1) rest
    | _, _ => .error .invalid

end TimeScan

namespace Instant

/-- **A date and time of day as it is read**, before it is known if there is such an instant. -/
structure Written where
  date : Civil
  hour : Nat
  minute : Nat
  /-- The second; 60 for a leap second. -/
  second : Nat
  /-- The fraction of the second. -/
  nanos : Nat
  /-- Seconds that the clock is ahead of UTC. -/
  offset : Int

/-- The parts of a text that tells date, time of day and offset. -/
def Written.ofText (cs : List Char) : Except TimeFault Written := do
  let (year, cs) ← TimeScan.year cs
  let (_, cs) ← TimeScan.literal '-' (Text.skipBlanks cs)
  let (month, cs) ← TimeScan.month cs
  let (_, cs) ← TimeScan.literal '-' (Text.skipBlanks cs)
  let (day, cs) ← TimeScan.day cs
  let cs ← match cs with
    | [] => throw .tooShort
    | c :: cs => if c == 'T' || c == 't' || c == ' ' then pure cs else throw .invalid
  let (hour, cs) ← TimeScan.numberWithin 2 0 23 (Text.skipBlanks cs)
  let (_, cs) ← TimeScan.literal ':' (Text.skipBlanks cs)
  let (minute, cs) ← TimeScan.numberWithin 2 0 59 (Text.skipBlanks cs)
  let (_, cs) ← TimeScan.literal ':' (Text.skipBlanks cs)
  let (second, cs) ← TimeScan.numberWithin 2 0 60 (Text.skipBlanks cs)
  let (nanos, cs) ← TimeScan.fraction cs
  let (offset, cs) ← TimeScan.offset (Text.skipBlanks cs)
  if !(Text.skipBlanks cs).isEmpty then throw .trailing
  return { date := { year, month, day }, hour, minute, second, nanos, offset }

/-- The instant of a date and time of day. -/
def Written.toInstant (w : Written) : Except TimeFault Instant := do
  let some date := Date.ofCivil? w.date | throw .outOfRange
  if secondsPerDay ≤ w.offset.natAbs then throw .outOfRange
  let (second, nanos) := if w.second = 60 then (59, w.nanos + 1000000000) else (w.second, w.nanos)
  let clock : Int := date.day * secondsPerDay + (w.hour * 3600 + w.minute * 60 + second : Nat)
  match ofParts? (clock - w.offset) nanos with
  | some t => return t
  | none => throw .impossible

/-- Reads an instant. -/
def ofText (cs : List Char) : Except TimeFault Instant := do
  (← Written.ofText cs).toInstant

end Instant

end Daybook
