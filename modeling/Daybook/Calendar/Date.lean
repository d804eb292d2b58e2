import Daybook.Text.Digits

/-!
# Calendar dates

A `Date` is a day of the proleptic Gregorian calendar, counted from the first of January 1970.  The
years go from -262143 to 262142.  `Civil` is the same day as year, month and day of the month.

The two are tied by counting: `Civil.dayNumber` adds up the days of the years and months before a
day, and `Civil.ofDayNumber` finds the year that a day number falls into and walks through its
months.
-/

namespace Daybook

/-! ### Years and months -/

/-- Whether a year has a leap day. -/
def isLeapYear (year : Int) : Bool :=
  year % 4 == 0 && (year % 100 != 0 || year % 400 == 0)

/-- The lengths of the months of a year, from January on. -/
def monthLengths (leap : Bool) : List Nat :=
  [31, if leap then 29 else 28, 31, 30, 31, 30, 31, 31, 30, 31, 30, 31]

/-- The day number of the first of January.  Years before count 365 days each, and one more for each
leap year among them. -/
def firstDayOfYear (year : Int) : Int :=
  let before := year - 1
  365 * before + before / 4 - before / 100 + before / 400 - 719162

/-- The year that a day number falls into.  The mean length of a year gives it up to one. -/
def yearOfDay (day : Int) : Int :=
  let guess := day * 400 / 146097 + 1970
  if day < firstDayOfYear guess then guess - 1
  else if firstDayOfYear (guess + 1) ≤ day then guess + 1
  else guess

/-! ### Year, month and day -/

/-- **A date as it is written.** -/
structure Civil where
  year : Int
  /-- The month, from 1. -/
  month : Nat
  /-- The day of the month, from 1. -/
  day : Nat
  deriving DecidableEq

namespace Civil

/-- The number of days in the month. -/
def monthLength (c : Civil) : Nat :=
  (monthLengths (isLeapYear c.year)).getD (c.month - 1) 0

/-- Whether the calendar has the date. -/
def Valid (c : Civil) : Prop :=
  1 ≤ c.month ∧ c.month ≤ 12 ∧ 1 ≤ c.day ∧ c.day ≤ c.monthLength

instance (c : Civil) : Decidable c.Valid :=
  inferInstanceAs (Decidable (_ ∧ _))

/-- Days since the first of January 1970. -/
def dayNumber (c : Civil) : Int :=
  let before := (monthLengths (isLeapYear c.year)).take (c.month - 1)
  firstDayOfYear c.year + before.foldl Nat.add 0 + (c.day - 1)

/-- Month and day of a day of the year, counted from 0, if `month` is the first of the months with
the given lengths. -/
def monthAndDay (month : Nat) : (lengths : List Nat) → (dayOfYear : Nat) → Nat × Nat
  | [], dayOfYear => (month, dayOfYear + 1)
  | length :: lengths, dayOfYear =>
    if dayOfYear < length then (month, dayOfYear + 1)
    else monthAndDay (month + 1) lengths (dayOfYear - length)

/-- The date with the given day number. -/
def ofDayNumber (day : Int) : Civil :=
  let year := yearOfDay day
  let (month, day) :=
    monthAndDay 1 (monthLengths (isLeapYear year)) (day - firstDayOfYear year).toNat
  { year, month, day }

end Civil

/-! ### Dates -/

namespace Date

/-- The day number of the first date, in the year -262143. -/
def firstDay : Int := -96465292

/-- The day number of the last date, in the year 262142. -/
def lastDay : Int := 95026236

end Date

/-- **A calendar date.** -/
structure Date where
  /-- Days since the first of January 1970. -/
  day : Int
  /-- No date comes before the first. -/
  firstDay_le : Date.firstDay ≤ day
  /-- No date comes after the last. -/
  le_lastDay : day ≤ Date.lastDay
  deriving DecidableEq

namespace Date

/-- The date with a day number, if it is in range. -/
def ofDay? (day : Int) : Option Date :=
  if h : firstDay ≤ day ∧ day ≤ lastDay then some ⟨day, h.1, h.2⟩ else none

/-- Year, month and day of a date. -/
def civil (d : Date) : Civil :=
  .ofDayNumber d.day

/-- The date of a year, month and day, if the calendar has it and it is in range. -/
def ofCivil? (c : Civil) : Option Date :=
  if c.Valid then ofDay? c.dayNumber else none

/-- The next date, if there is one. -/
def next? (d : Date) : Option Date :=
  ofDay? (d.day + 1)

/-- The date before, if there is one. -/
def previous? (d : Date) : Option Date :=
  ofDay? (d.day - 1)

/-- The day of the week, from 0 for Monday.  The first of January 1970 was a Thursday. -/
def weekday (d : Date) : Nat :=
  ((d.day + 3) % 7).toNat

example : (ofCivil? ⟨-262143, 1, 1⟩).map Date.day = some firstDay := by decide

example : (ofCivil? ⟨262142, 12, 31⟩).map Date.day = some lastDay := by decide

example : Civil.ofDayNumber 19782 = ⟨2024, 2, 29⟩ := by decide

end Date

end Daybook
