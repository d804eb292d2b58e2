import Daybook.Calendar.Date

/-!
# Instants

An `Instant` is a point on the UTC time line, in seconds since the start of 1970 and nanoseconds
within the second.  The second that ends with a leap second is twice as long: it has the number of
second 59 of its minute, and its nanoseconds go on from `10 ^ 9` inside the leap second.

Instants are compared by second and nanosecond.  Their difference is counted in nanoseconds by the
clock, in which every day has 86400 seconds; see `nanosecondsSince` for what a leap second adds.
-/

namespace Daybook

/-- Seconds of a day by the clock. -/
def secondsPerDay : Int := 86400

/-- Nanoseconds of a second. -/
def nanosecondsPerSecond : Int := 1000000000

namespace Instant

/-- The first second of the first date. -/
def firstSecond : Int := Date.firstDay * secondsPerDay

/-- The last second of the last date. -/
def lastSecond : Int := Date.lastDay * secondsPerDay + (secondsPerDay - 1)

end Instant

/-- **A point on the time line.** -/
structure Instant where
  /-- Seconds since the start of 1970. -/
  seconds : Int
  /-- Nanoseconds within the second. -/
  nanos : Nat
  /-- No instant comes before the first date. -/
  firstSecond_le : Instant.firstSecond ≤ seconds
  /-- No instant comes after the last date. -/
  le_lastSecond : seconds ≤ Instant.lastSecond
  /-- At most one leap second follows a second. -/
  nanos_lt : nanos < 2000000000
  /-- A leap second follows second 59 only. -/
  leap_at_end : 1000000000 ≤ nanos → seconds % 60 = 59
  deriving DecidableEq

namespace Instant

/-- Whether the instant lies in a leap second. -/
def isLeap (t : Instant) : Bool :=
  decide (1000000000 ≤ t.nanos)

/-- The start of a second in range. -/
def ofSeconds (seconds : Int) (h : firstSecond ≤ seconds ∧ seconds ≤ lastSecond) : Instant :=
  ⟨seconds, 0, h.1, h.2, by decide, fun h => absurd h (by decide)⟩

/-- The start of a second, if it is in range. -/
def ofSeconds? (seconds : Int) : Option Instant :=
  if h : firstSecond ≤ seconds ∧ seconds ≤ lastSecond then some (ofSeconds seconds h) else none

/-- The instant of a second and nanoseconds within it, if there is one. -/
def ofParts? (seconds : Int) (nanos : Nat) : Option Instant :=
  if h : (firstSecond ≤ seconds ∧ seconds ≤ lastSecond) ∧
      nanos < 2000000000 ∧ (1000000000 ≤ nanos → seconds % 60 = 59) then
    some ⟨seconds, nanos, h.1.1, h.1.2, h.2.1, h.2.2⟩
  else none

/-- The start of a date in UTC. -/
def startOf (d : Date) : Instant where
  seconds := d.day * secondsPerDay
  nanos := 0
  firstSecond_le := by
    have := d.firstDay_le
    simp only [firstSecond, secondsPerDay]; omega
  le_lastSecond := by
    have := d.le_lastDay
    simp only [lastSecond, secondsPerDay]; omega
  nanos_lt := by decide
  leap_at_end := fun h => absurd h (by decide)

/-- The UTC date of an instant. -/
def date (t : Instant) : Date where
  day := t.seconds / secondsPerDay
  firstDay_le := by
    have := t.firstSecond_le
    simp only [firstSecond, secondsPerDay] at this ⊢; omega
  le_lastDay := by
    have := t.le_lastSecond
    simp only [lastSecond, secondsPerDay] at this ⊢; omega

/-- The second of the UTC day. -/
def secondOfDay (t : Instant) : Int :=
  t.seconds % secondsPerDay

/-! ### Order -/

instance : LT Instant where
  lt a b := a.seconds < b.seconds ∨ a.seconds = b.seconds ∧ a.nanos < b.nanos

instance : LE Instant where
  le a b := ¬ b < a

instance (a b : Instant) : Decidable (a < b) :=
  inferInstanceAs (Decidable (_ ∨ _))

instance (a b : Instant) : Decidable (a ≤ b) :=
  inferInstanceAs (Decidable (¬ _))

/-! ### Difference -/

/-- What leap seconds take from or add to the difference in seconds.  Of two instants the one that
is earlier within its day does not have the extra second of a leap second counted. -/
def leapCorrection (a b : Instant) : Int :=
  if b.secondOfDay < a.secondOfDay ∧ b.isLeap then 1
  else if a.secondOfDay < b.secondOfDay ∧ a.isLeap then -1
  else 0

/-- Nanoseconds from `b` to `a`. -/
def nanosecondsSince (a b : Instant) : Int :=
  (a.seconds - b.seconds + leapCorrection a b) * nanosecondsPerSecond + (a.nanos - b.nanos)

/-- Whole seconds from `b` to `a`; a part of a second is dropped, toward zero. -/
def secondsSince (a b : Instant) : Int :=
  (nanosecondsSince a b).tdiv nanosecondsPerSecond

end Instant

end Daybook
