import Daybook.Calendar.Instant

/-!
# Time zones

A `Zone` says how far its clocks are ahead of UTC: an offset to begin with, and the seconds at which
it changes.  A clock shows `second + offset`, so clock times are seconds on a line of their own.  A
clock time that a change skips belongs to no second, and one that a change repeats to several; these
seconds are its `readings`.

`Zone.day?` gives the stretch of time that a date covers.  It begins at the first reading of
midnight.  A midnight that is skipped is replaced by one o'clock, and if that is skipped as well, by
midnight in UTC.
-/

namespace Daybook

/-- **A change of a zone's offset.** -/
structure Zone.Change where
  /-- The first second with the new offset. -/
  second : Int
  /-- Seconds that clocks are ahead of UTC from then on. -/
  offset : Int
  deriving DecidableEq

/-- **A time zone.** -/
structure Zone where
  /-- Seconds that clocks are ahead of UTC before the first change. -/
  initial : Int
  /-- The changes, in ascending order. -/
  changes : List Zone.Change
  deriving DecidableEq

/-- **The stretch of time that a date covers**, with its start and without its end. -/
structure DayBounds where
  /-- The first instant of the day. -/
  start : Instant
  /-- The first instant behind the day. -/
  finish : Instant
  deriving DecidableEq

namespace Zone

/-- The zone of UTC. -/
def utc : Zone := ⟨0, []⟩

/-- A zone without changes. -/
def fixed (offset : Int) : Zone := ⟨offset, []⟩

/-! ### From seconds to clock times -/

/-- The offset at a second, from the offset before the first of some changes. -/
def offsetFrom (offset : Int) : List Change → Int → Int
  | [], _ => offset
  | change :: changes, second =>
    if second < change.second then offset else offsetFrom change.offset changes second

/-- The offset in force at a second. -/
def offsetAt (z : Zone) (second : Int) : Int :=
  offsetFrom z.initial z.changes second

/-- What clocks show at a second. -/
def clockAt (z : Zone) (second : Int) : Int :=
  second + z.offsetAt second

/-! ### From clock times to seconds -/

/-- The seconds, no earlier than `since`, at which clocks show a time, in the order of the stretches
between changes. -/
def readingsFrom (since : Option Int) (offset : Int) (clock : Int) : List Change → List Int
  | [] => if since.all (· ≤ clock - offset) then [clock - offset] else []
  | change :: changes =>
    let here :=
      if since.all (· ≤ clock - offset) ∧ clock - offset < change.second then [clock - offset]
      else []
    here ++ readingsFrom (some change.second) change.offset clock changes

/-- The seconds at which clocks show a time. -/
def readings (z : Zone) (clock : Int) : List Int :=
  readingsFrom none z.initial clock z.changes

/-- The first second at which clocks show a time.  If the first or the last of these seconds is out
of range, so is the clock time. -/
def earliest? (z : Zone) (clock : Int) : Option Instant :=
  match z.readings clock with
  | [] => none
  | first :: others =>
    (Instant.ofSeconds? ((first :: others).getLast (by simp))).bind
      fun _ => Instant.ofSeconds? first

/-! ### Days -/

/-- The first instant of a date. -/
def startOf (z : Zone) (d : Date) : Instant :=
  let midnight := d.day * secondsPerDay
  match z.earliest? midnight with
  | some t => t
  | none => (z.earliest? (midnight + 3600)).getD (Instant.startOf d)

/-- **The stretch of time that a date covers.**  It ends where the next date starts.  The last date
has no next one and ends after 24 hours; these 24 hours must be in range for every date, or there is
no answer. -/
def day? (z : Zone) (d : Date) : Option DayBounds :=
  let start := z.startOf d
  (Instant.ofSeconds? (start.seconds + secondsPerDay)).map fun later =>
    { start
      finish := match d.next? with
        | some next => z.startOf next
        | none => later }

end Zone

namespace DayBounds

/-- The length of a day in seconds. -/
def length (b : DayBounds) : Int :=
  b.finish.secondsSince b.start

end DayBounds

end Daybook
