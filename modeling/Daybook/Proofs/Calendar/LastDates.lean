import Mathlib
import Daybook.Proofs.Calendar.Days

/-!
# Days at the end of the calendar

A date has a day only if the 24 hours behind its start are in range (`day?_eq_none_iff`).  These
hours are the end of the last date alone, but they are asked for with every date.

A time is read less than a day away from the same time in UTC, whatever the changes of the zone are
(`Bounded.near_of_mem_readings`).  So a date that starts at midnight has room for its 24 hours
unless it is the last one, and so has a date that starts at one o'clock unless it is one of the last
two.  The date before the last one is lost if its midnight is skipped and one o'clock is shown 24
hours late or more (`day?_eq_none_iff_of_next`).
-/

namespace Daybook.Zone

variable {z : Zone}

/-! ### Readings are less than a day off -/

/-- A reading is off by one of the offsets, in whatever order the changes come. -/
theorem exists_sub_offset_of_mem_readingsFrom {since : Option ℤ} {offset clock second : ℤ}
    {changes : List Change} (h : second ∈ readingsFrom since offset clock changes) :
    ∃ o ∈ offset :: changes.map Change.offset, second = clock - o := by
  induction changes generalizing since offset with
  | nil =>
    rw [readingsFrom, List.mem_ite_nil_right, List.mem_singleton] at h
    exact ⟨offset, List.mem_cons_self .., h.2⟩
  | cons change changes ih =>
    rw [readingsFrom, List.mem_append] at h
    rcases h with h | h
    · rw [List.mem_ite_nil_right, List.mem_singleton] at h
      exact ⟨offset, List.mem_cons_self .., h.2⟩
    · obtain ⟨o, ho, hsecond⟩ := ih h
      exact ⟨o, List.mem_cons_of_mem _ ho, hsecond⟩

theorem Bounded.near_of_mem_readings (hb : z.Bounded) {clock second : ℤ}
    (h : second ∈ z.readings clock) :
    clock - secondsPerDay < second ∧ second < clock + secondsPerDay := by
  obtain ⟨o, ho, hsecond⟩ := exists_sub_offset_of_mem_readingsFrom h
  have hbounds := hb o ho
  omega

theorem Bounded.near_of_earliest? (hb : z.Bounded) {clock : ℤ} {t : Instant}
    (h : z.earliest? clock = some t) :
    clock - secondsPerDay < t.seconds ∧ t.seconds < clock + secondsPerDay :=
  hb.near_of_mem_readings (mem_readings_of_earliest? h)

/-- A time that is a day away from the ends of the range is shown in range, or not at all. -/
theorem earliest?_eq_none_iff (hb : z.Bounded) {clock : ℤ}
    (hlow : Instant.firstSecond ≤ clock - secondsPerDay)
    (hhigh : clock + secondsPerDay ≤ Instant.lastSecond) :
    z.earliest? clock = none ↔ z.readings clock = [] := by
  constructor
  · intro h
    rcases exists_out_of_range_of_earliest? h with hnil | ⟨second, hsecond, hrange⟩
    · exact hnil
    · have hnear := hb.near_of_mem_readings hsecond
      omega
  · intro h
    rw [Option.eq_none_iff_forall_ne_some]
    intro t ht
    have hmem := mem_readings_of_earliest? ht
    rw [h] at hmem
    exact List.not_mem_nil hmem

/-! ### The 24 hours behind the start of a date -/

variable {d next : Date}

theorem day?_eq_none_iff :
    z.day? d = none ↔ Instant.lastSecond < (z.startOf d).seconds + secondsPerDay := by
  have hfirst := (z.startOf d).firstSecond_le
  have hpos : 0 < secondsPerDay := by decide
  simp only [day?, Option.map_eq_none_iff]
  rw [← Option.not_isSome_iff_eq_none, Instant.ofSeconds?_isSome_iff]
  omega

theorem start_eq_of_day? {b : DayBounds} (h : z.day? d = some b) : b.start = z.startOf d := by
  obtain ⟨later, -, rfl⟩ := Option.map_eq_some_iff.mp h
  rfl

/-- A day that is followed by another one ends where that one starts. -/
theorem finish_eq_of_day? (hnext : d.next? = some next) {b : DayBounds} (h : z.day? d = some b) :
    b.finish = z.startOf next := by
  obtain ⟨later, -, rfl⟩ := Option.map_eq_some_iff.mp h
  simp only [hnext]

/-- The last day ends after 24 hours. -/
theorem seconds_finish_of_day? (hlast : d.next? = none) {b : DayBounds} (h : z.day? d = some b) :
    b.finish.seconds = b.start.seconds + secondsPerDay := by
  obtain ⟨later, hlater, rfl⟩ := Option.map_eq_some_iff.mp h
  simp only [hlast]
  exact (Instant.ofSeconds?_eq_some_iff.mp hlater).1

/-- A date starts before it is the next date in UTC, or at one o'clock. -/
theorem startOf_lt_or_eq_one (hb : z.Bounded) (d : Date) :
    (z.startOf d).seconds < d.day * secondsPerDay + secondsPerDay ∨
      z.earliest? (d.day * secondsPerDay) = none ∧
        z.earliest? (d.day * secondsPerDay + 3600) = some (z.startOf d) := by
  rcases z.startOf_cases d with hmidnight | ⟨hskipped, hone | ⟨-, hutc⟩⟩
  · exact Or.inl (hb.near_of_earliest? hmidnight).2
  · exact Or.inr ⟨hskipped, hone⟩
  · left
    rw [hutc]
    simp only [Instant.startOf, secondsPerDay]
    omega

/-- Whether a date starts when it is the next date in UTC already: its midnight is skipped, and one
o'clock is shown 24 hours late or more. -/
def StartsLate (z : Zone) (d : Date) : Prop :=
  z.readings (d.day * secondsPerDay) = [] ∧
    ∃ second ∈ (z.readings (d.day * secondsPerDay + 3600)).head?,
      d.day * secondsPerDay + secondsPerDay ≤ second

theorem startsLate_iff (hb : z.Bounded)
    (hlow : Instant.firstSecond ≤ d.day * secondsPerDay - secondsPerDay)
    (hhigh : d.day * secondsPerDay + 3600 + secondsPerDay ≤ Instant.lastSecond) :
    z.StartsLate d ↔ d.day * secondsPerDay + secondsPerDay ≤ (z.startOf d).seconds := by
  rw [StartsLate, ← earliest?_eq_none_iff hb hlow (by omega)]
  constructor
  · rintro ⟨hskipped, second, hsecond, hlate⟩
    rcases z.startOf_cases d with hmidnight | ⟨-, hone | ⟨hnone, -⟩⟩
    · rw [hskipped] at hmidnight
      contradiction
    · rw [Option.mem_def, (head?_readings_of_earliest? hone).1] at hsecond
      rwa [Option.some.inj hsecond]
    · -- One o'clock is in range if it is shown at all.
      rw [earliest?_eq_none_iff hb (by omega) hhigh] at hnone
      rw [hnone] at hsecond
      contradiction
  · intro hlate
    rcases startOf_lt_or_eq_one hb d with hlt | ⟨hskipped, hone⟩
    · omega
    · exact ⟨hskipped, _, (head?_readings_of_earliest? hone).1, hlate⟩

/-- **Of the dates before the last one, only the one next to it can be lost**, if it starts late. -/
theorem day?_eq_none_iff_of_next (hb : z.Bounded) (hnext : next.day = d.day + 1) :
    z.day? d = none ↔ next.day = Date.lastDay ∧ z.StartsLate d := by
  have hle := next.le_lastDay
  rw [day?_eq_none_iff]
  rcases hle.lt_or_eq with hlt | heq
  · -- With two more dates to come, even one o'clock leaves 24 hours.
    have hstart : (z.startOf d).seconds < d.day * secondsPerDay + 3600 + secondsPerDay := by
      rcases startOf_lt_or_eq_one hb d with hstart | ⟨-, hone⟩
      · omega
      · exact (hb.near_of_earliest? hone).2
    simp only [Instant.lastSecond, Date.lastDay, secondsPerDay] at *
    omega
  · have hlow : Instant.firstSecond ≤ d.day * secondsPerDay - secondsPerDay := by
      simp only [Instant.firstSecond, Date.firstDay, Date.lastDay, secondsPerDay] at *
      omega
    have hhigh : d.day * secondsPerDay + 3600 + secondsPerDay ≤ Instant.lastSecond := by
      simp only [Instant.lastSecond, Date.lastDay, secondsPerDay] at *
      omega
    rw [startsLate_iff hb hlow hhigh]
    simp only [Instant.lastSecond, Date.lastDay, secondsPerDay] at *
    omega

theorem day_eq_lastDay_of_next? (h : d.next? = none) : d.day = Date.lastDay := by
  by_contra hne
  have hle := d.le_lastDay
  obtain ⟨next, hnext⟩ := Date.exists_next (d := d) (by omega)
  rw [Date.next?_eq_some_iff.mpr hnext] at h
  contradiction

/-- **The days at the end of the calendar.** A date that is followed by another one has a day,
which ends where that one starts; unless it is the one before the last and starts late.  The last
date has a day if that starts before the date does in UTC, and its day ends after 24 hours. -/
theorem days_at_calendar_end (z : Zone) (hb : z.Bounded) (d : Date) :
    (∀ next ∈ d.next?,
      (z.day? d = none ↔ next.day = Date.lastDay ∧ z.StartsLate d) ∧
      ∀ b ∈ z.day? d, b.start = z.startOf d ∧ b.finish = z.startOf next) ∧
    (d.next? = none →
      (z.day? d = none ↔ d.day * secondsPerDay ≤ (z.startOf d).seconds) ∧
      ∀ b ∈ z.day? d, b.finish.seconds = b.start.seconds + secondsPerDay) := by
  constructor
  · intro next hnext
    refine ⟨day?_eq_none_iff_of_next hb (Date.next?_eq_some_iff.mp hnext), fun b hday => ?_⟩
    exact ⟨start_eq_of_day? hday, finish_eq_of_day? hnext hday⟩
  · intro hlast
    refine ⟨?_, fun b hday => seconds_finish_of_day? hlast hday⟩
    have hend : Instant.lastSecond = Date.lastDay * secondsPerDay + (secondsPerDay - 1) := rfl
    rw [day?_eq_none_iff, hend, ← day_eq_lastDay_of_next? hlast]
    omega

/-- The date before the last one in a zone whose clocks go forward over its midnight, from almost 24
hours behind to 23 and a half; and in the same zone without the change. -/
theorem days_at_calendar_end_late :
    let z : Zone := ⟨-86399, [⟨8210266790399, -84600⟩]⟩
    let z' : Zone := ⟨-86399, []⟩
    let d : Date := ⟨95026235, by decide, by decide⟩
    let last : Date := ⟨95026236, by decide, by decide⟩
    z.Bounded ∧ z'.Bounded ∧ d.next? = some last ∧ z.StartsLate d ∧ z.day? d = none ∧
      ¬ z'.StartsLate d ∧ z'.day? d ≠ none := by
  intro z z' d last
  have hb : z.Bounded := by decide
  have hb' : z'.Bounded := by decide
  have hnext : d.next? = some last := by decide
  have hlate : z.StartsLate d := ⟨by decide, 8210266792200, by decide, by decide⟩
  have hlate' : ¬ z'.StartsLate d := fun h => absurd h.1 (by decide)
  have hlost := ((days_at_calendar_end z hb d).1 last hnext).1
  have hlost' := ((days_at_calendar_end z' hb' d).1 last hnext).1
  refine ⟨hb, hb', hnext, hlate, hlost.mpr ⟨rfl, hlate⟩, hlate', fun h => ?_⟩
  exact hlate' (hlost'.mp h).2

/-- **A date that is not the last one can be lost**: the 24 hours behind its start are out of range,
though the next date starts in range. -/
theorem lost_before_last_date :
    let z : Zone := ⟨-86399, [⟨8210266790399, -84600⟩]⟩
    let d : Date := ⟨95026235, by decide, by decide⟩
    let last : Date := ⟨95026236, by decide, by decide⟩
    z.Bounded ∧ z.Spaced ∧ d.next? = some last ∧ z.day? d = none ∧
      z.startOf d < z.startOf last := by
  decide

end Daybook.Zone
