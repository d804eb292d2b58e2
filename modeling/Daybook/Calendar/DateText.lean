import Daybook.Calendar.Date
import Daybook.Calendar.Scan
import Daybook.Text.Quoted

/-!
# Dates as text

A date is written as year, month and day with hyphens between them.  Years from 0 to 9999 have four
digits, all others a sign and at least four digits.  The same is read back, with fewer digits and
with blanks before the numbers if need be.

`Date.ofWords` also knows the words `today`, `yesterday` and `tomorrow`, as seen from a given day.
-/

namespace Daybook

/-! ### Writing -/

/-- A year as text. -/
def yearText (year : Int) : List Char :=
  if 0 ≤ year ∧ year ≤ 9999 then Text.padded 4 year.natAbs
  else (if year < 0 then '-' else '+') :: Text.padded 4 year.natAbs

/-- A date as it is written. -/
def Civil.text (c : Civil) : List Char :=
  yearText c.year ++ '-' :: Text.padded 2 c.month ++ '-' :: Text.padded 2 c.day

namespace Date

/-- A date as text. -/
def text (d : Date) : List Char :=
  d.civil.text

/-- The short names of the days of the week, from Monday on. -/
def weekdayNames : List String :=
  ["Mon", "Tue", "Wed", "Thu", "Fri", "Sat", "Sun"]

/-- The short name of the day of the week. -/
def weekdayName (d : Date) : String :=
  weekdayNames.getD d.weekday ""

/-! ### Reading -/

/-- Reads a date. -/
def ofText (cs : List Char) : Except TimeFault Date := do
  let (year, cs) ← TimeScan.year cs
  let (_, cs) ← TimeScan.literal '-' cs
  let (month, cs) ← TimeScan.month cs
  let (_, cs) ← TimeScan.literal '-' cs
  let (day, cs) ← TimeScan.day cs
  if !cs.isEmpty then throw .trailing
  match ofCivil? { year, month, day } with
  | some d => return d
  | none => throw .outOfRange

/-- **Why a text names no date.** -/
inductive WordFault where
  /-- The date that a word stands for is out of range. -/
  | outOfRange (word : String)
  /-- The text is neither a word nor a date. -/
  | unreadable (text : String) (why : TimeFault)

/-- Reads a date, or a word for a date relative to `today`. -/
def ofWords (today : Date) (text : String) : Except WordFault Date :=
  let relative (date : Option Date) : Except WordFault Date :=
    match date with
    | some d => .ok d
    | none => .error (.outOfRange text)
  if text = "today" then .ok today
  else if text = "yesterday" then relative today.previous?
  else if text = "tomorrow" then relative today.next?
  else (ofText text.toList).mapError (.unreadable text)

/-- What is wrong, without the reason. -/
def WordFault.summary : WordFault → String
  | .outOfRange word => s!"date out of range: {word}"
  | .unreadable text _ =>
    s!"invalid date {Text.quote text}, expected YYYY-MM-DD, today, yesterday or tomorrow"

/-- What is wrong, with the reason. -/
def WordFault.message : WordFault → String
  | .outOfRange word => (WordFault.outOfRange word).summary
  | .unreadable text why => s!"{(WordFault.unreadable text why).summary}: {why.message}"

end Date

end Daybook
