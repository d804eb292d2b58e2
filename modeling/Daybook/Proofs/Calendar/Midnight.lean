import Mathlib
import Daybook.Proofs.Calendar.Days

/-!
# Where a day begins

An instant belongs to a date by what clocks show at it (`localDay`), and a day is meant to hold the
instants of its date.  For that its start has to be the first instant at which clocks show its
midnight or later.

It is, if clocks treat the midnight well (`BeginsWell`): they show it once, or are set back to it
exactly, or go forward over it to one o'clock (`startOf_le_iff`).  Between two such midnights a day
holds exactly the instants of its date (`mem_day_iff_localDay_eq`).

In general the day of a skipped midnight begins when clocks show one o'clock, unless that is skipped
as well (`seconds_startOf_of_skipsAt`).

All this depends on the offsets of a day to each side of the midnight, so one change is all there is
to look at.
-/

namespace Daybook.Zone

/-! ### What clocks do at a second -/

/-- What clocks would show at a second if they did not change then. -/
def clockBefore (z : Zone) (second : ℤ) : ℤ :=
  second + z.offsetAt (second - 1)

/-- Whether clocks go forward at a second, over the given time. -/
def SkipsAt (z : Zone) (second clock : ℤ) : Prop :=
  z.clockBefore second ≤ clock ∧ clock < z.clockAt second

/-- Whether clocks are set back at a second, to the given time exactly. -/
def SetBackAt (z : Zone) (second clock : ℤ) : Prop :=
  z.clockAt second = clock ∧ clock < z.clockBefore second

instance (z : Zone) (second clock : ℤ) : Decidable (z.SkipsAt second clock) :=
  inferInstanceAs (Decidable (_ ∧ _))

instance (z : Zone) (second clock : ℤ) : Decidable (z.SetBackAt second clock) :=
  inferInstanceAs (Decidable (_ ∧ _))

/-- **A midnight at which a day can begin**: clocks show it once, or are set back to it exactly and
show it twice, or skip it and go on from one o'clock. -/
def BeginsWell (z : Zone) (midnight : ℤ) : Prop :=
  (∃! second, z.clockAt second = midnight) ∨ (∃ second, z.SetBackAt second midnight) ∨
    ∃ second, z.SkipsAt second midnight ∧ z.clockAt second = midnight + 3600

/-- The number of the day that clocks show at an instant. -/
def localDay (z : Zone) (t : Instant) : ℤ :=
  z.clockAt t.seconds / secondsPerDay

variable {z z' : Zone} {clock second t : ℤ}

/-! ### The offsets that matter -/

/-- Whether two zones have the same offsets for a day to each side of a time. -/
def AgreeAround (z z' : Zone) (clock : ℤ) : Prop :=
  ∀ second, clock - secondsPerDay ≤ second → second < clock + secondsPerDay →
    z.offsetAt second = z'.offsetAt second

namespace AgreeAround

theorem clockAt_eq_iff (h : AgreeAround z z' clock) (hb : z.Bounded) (hb' : z'.Bounded) :
    z.clockAt t = clock ↔ z'.clockAt t = clock := by
  have hoff := hb.offsetAt t
  have hoff' := hb'.offsetAt t
  have hsame := h t
  rw [clockAt, clockAt]
  omega

theorem le_clockAt_iff (h : AgreeAround z z' clock) (hb : z.Bounded) (hb' : z'.Bounded) :
    clock ≤ z.clockAt t ↔ clock ≤ z'.clockAt t := by
  have hoff := hb.offsetAt t
  have hoff' := hb'.offsetAt t
  have hsame := h t
  rw [clockAt, clockAt]
  omega

theorem clocks_eq (h : AgreeAround z z' clock) (hlow : clock - secondsPerDay < second)
    (hhigh : second < clock + secondsPerDay) :
    z.clockBefore second = z'.clockBefore second ∧ z.clockAt second = z'.clockAt second := by
  rw [clockBefore, clockBefore, clockAt, clockAt, h second (by omega) hhigh,
    h (second - 1) (by omega) (by omega)]
  exact ⟨rfl, rfl⟩

theorem clocks_eq_of_skipsAt (h : AgreeAround z z' clock) (hb : z.Bounded)
    (hskips : z.SkipsAt second clock) :
    z.clockBefore second = z'.clockBefore second ∧ z.clockAt second = z'.clockAt second := by
  -- A change over the time comes less than a day before or after.
  have hoff := hb.offsetAt (second - 1)
  have hoff' := hb.offsetAt second
  rw [SkipsAt, clockBefore, clockAt] at hskips
  exact h.clocks_eq (by omega) (by omega)

theorem skipsAt (h : AgreeAround z z' clock) (hb : z.Bounded) (hskips : z.SkipsAt second clock) :
    z'.SkipsAt second clock := by
  obtain ⟨hbefore, hat⟩ := h.clocks_eq_of_skipsAt hb hskips
  rw [SkipsAt, ← hbefore, ← hat]
  exact hskips

theorem setBackAt (h : AgreeAround z z' clock) (hb : z.Bounded)
    (hback : z.SetBackAt second clock) : z'.SetBackAt second clock := by
  have hoff := hb.offsetAt second
  have hclock := hback.1
  rw [clockAt] at hclock
  obtain ⟨hbefore, hat⟩ : z.clockBefore second = z'.clockBefore second ∧
      z.clockAt second = z'.clockAt second := h.clocks_eq (by omega) (by omega)
  rw [SetBackAt, ← hbefore, ← hat]
  exact hback

theorem beginsWell (h : AgreeAround z z' clock) (hb : z.Bounded) (hb' : z'.Bounded)
    (hwell : z.BeginsWell clock) : z'.BeginsWell clock := by
  rcases hwell with ⟨s, hs, hunique⟩ | ⟨s, hback⟩ | ⟨s, hskips, hone⟩
  · left
    refine ⟨s, (h.clockAt_eq_iff hb hb').mp hs, fun s' hs' => ?_⟩
    exact hunique s' ((h.clockAt_eq_iff hb hb').mpr hs')
  · exact Or.inr (Or.inl ⟨s, h.setBackAt hb hback⟩)
  · right; right
    refine ⟨s, h.skipsAt hb hskips, ?_⟩
    rw [← (h.clocks_eq_of_skipsAt hb hskips).2]
    exact hone

end AgreeAround

/-- The start of a date is found in a zone with a single change, which has the same offsets from a
day before its midnight to an hour and a day after. -/
theorem exists_single_startOf_eq (hb : z.Bounded) (hz : z.Spaced) (d : Date) :
    ∃ before second after, (single before second after).Bounded ∧
      AgreeAround z (single before second after) (d.day * secondsPerDay) ∧
      AgreeAround z (single before second after) (d.day * secondsPerDay + 3600) ∧
      z.startOf d = (single before second after).startOf d := by
  obtain ⟨before, second, after, hbounded, hoff⟩ :=
    exists_single_of_spaced hb hz (d.day * secondsPerDay - secondsPerDay)
  have hday : secondsPerDay = 86400 := rfl
  have hmidnight : AgreeAround z (single before second after) (d.day * secondsPerDay) :=
    fun t ht ht' => hoff t ht (by omega)
  have hone : AgreeAround z (single before second after) (d.day * secondsPerDay + 3600) :=
    fun t ht ht' => hoff t (by omega) (by omega)
  refine ⟨before, second, after, hbounded, hmidnight, hone, startOf_congr ?_ ?_⟩
  · exact readings_congr hz.ascending (ascending_single ..) hb hbounded
      fun t ht ht' => hmidnight t ht.le ht'
  · exact readings_congr hz.ascending (ascending_single ..) hb hbounded
      fun t ht ht' => hone t ht.le ht'

/-! ### Around a single change -/

variable {before after : ℤ}

theorem clockAt_single :
    (single before second after).clockAt t = if t < second then t + before else t + after := by
  rw [clockAt, offsetAt_single]
  split_ifs <;> rfl

theorem clockBefore_single : (single before second after).clockBefore t =
    if t ≤ second then t + before else t + after := by
  rw [clockBefore, offsetAt_single]
  split_ifs <;> omega

theorem skipsAt_single (h : (single before second after).SkipsAt t clock) :
    t = second ∧ second + before ≤ clock ∧ clock < second + after := by
  rw [SkipsAt, clockBefore_single, clockAt_single] at h
  split_ifs at h <;> omega

theorem setBackAt_single (h : (single before second after).SetBackAt t clock) :
    second + after = clock ∧ clock < second + before := by
  rw [SetBackAt, clockBefore_single, clockAt_single] at h
  split_ifs at h <;> omega

/-- A time that is shown once is past after the change, or not yet reached before it. -/
theorem existsUnique_clockAt_single (h : ∃! t, (single before second after).clockAt t = clock) :
    clock - before < second ∧ clock - after < second ∨
      second ≤ clock - before ∧ second ≤ clock - after := by
  obtain ⟨t, ht, hunique⟩ := h
  have hbefore := hunique (clock - before)
  have hafter := hunique (clock - after)
  simp only [clockAt_single] at ht hbefore hafter
  split_ifs at ht hbefore hafter <;> omega

theorem beginsWell_single (h : (single before second after).BeginsWell clock) :
    (clock - before < second ∧ clock - after < second ∨
      second ≤ clock - before ∧ second ≤ clock - after) ∨
    (second + after = clock ∧ clock < second + before) ∨
    second + before ≤ clock ∧ second + after = clock + 3600 := by
  rcases h with hunique | ⟨t, hback⟩ | ⟨t, hskips, hone⟩
  · exact Or.inl (existsUnique_clockAt_single hunique)
  · exact Or.inr (Or.inl (setBackAt_single hback))
  · obtain ⟨rfl, hbefore, -⟩ := skipsAt_single hskips
    rw [clockAt_single, if_neg (lt_irrefl t)] at hone
    exact Or.inr (Or.inr ⟨hbefore, hone⟩)

/-- A day around midnight of a date that is not at the ends of the calendar is in range. -/
theorem midnight_in_range {d : Date} (hfirst : Date.firstDay + 1 ≤ d.day)
    (hlast : d.day + 1 ≤ Date.lastDay) :
    Instant.firstSecond ≤ d.day * secondsPerDay - secondsPerDay ∧
      d.day * secondsPerDay + 3600 + secondsPerDay ≤ Instant.lastSecond := by
  simp only [Instant.firstSecond, Instant.lastSecond, Date.firstDay, Date.lastDay,
    secondsPerDay] at *
  omega

theorem startOf_single_le_iff (hb : (single before second after).Bounded) {d : Date}
    (hfirst : Date.firstDay + 1 ≤ d.day) (hlast : d.day + 1 ≤ Date.lastDay)
    (hwell : (single before second after).BeginsWell (d.day * secondsPerDay)) :
    ((single before second after).startOf d).seconds ≤ t ↔
      d.day * secondsPerDay ≤ (single before second after).clockAt t := by
  obtain ⟨hbefore, hafter⟩ := bounded_single_iff.mp hb
  have hrange := midnight_in_range hfirst hlast
  have hstart := startOf_single_cases before second after d
  have hwell := beginsWell_single hwell
  have hday : secondsPerDay = 86400 := rfl
  simp only [ReadsAt, Unreadable] at hstart
  rw [clockAt_single]
  generalize d.day * secondsPerDay = midnight at *
  rcases hwell with honce | hback | hskips
  · -- The date starts at the only reading of midnight, before the change or after it.
    split_ifs <;> omega
  · -- It starts at the first reading, before the change, and clocks do not go back past midnight.
    split_ifs <;> omega
  · -- Midnight has no reading, and the one of one o'clock is the change.
    split_ifs <;> omega

/-- If clocks skip midnight, the date starts when they show one o'clock, or if they skip that too,
at midnight in UTC. -/
theorem seconds_startOf_single_of_skips (hb : (single before second after).Bounded) {d : Date}
    (hfirst : Date.firstDay + 1 ≤ d.day) (hlast : d.day + 1 ≤ Date.lastDay)
    (hbefore : second + before ≤ d.day * secondsPerDay)
    (hafter : d.day * secondsPerDay < second + after) :
    ((single before second after).startOf d).seconds =
      if second + after ≤ d.day * secondsPerDay + 3600 then d.day * secondsPerDay + 3600 - after
      else d.day * secondsPerDay := by
  obtain ⟨hbounds, hbounds'⟩ := bounded_single_iff.mp hb
  have hrange := midnight_in_range hfirst hlast
  have hstart := startOf_single_cases before second after d
  have hday : secondsPerDay = 86400 := rfl
  simp only [ReadsAt, Unreadable] at hstart
  generalize d.day * secondsPerDay = midnight at *
  split_ifs with hone
  · -- Clocks reach one o'clock at the change or after it.
    omega
  · -- One o'clock has no reading either, before the change or after it.
    omega

/-! ### The start of a date -/

variable {d : Date}

/-- **Clocks show a midnight or a later time from the start of its date on**, if it is one at which
a day can begin. -/
theorem startOf_le_iff (hb : z.Bounded) (hz : z.Spaced) (hfirst : Date.firstDay + 1 ≤ d.day)
    (hlast : d.day + 1 ≤ Date.lastDay) (hwell : z.BeginsWell (d.day * secondsPerDay)) :
    (z.startOf d).seconds ≤ t ↔ d.day * secondsPerDay ≤ z.clockAt t := by
  obtain ⟨before, second, after, hbounded, hagree, -, hstart⟩ := exists_single_startOf_eq hb hz d
  rw [hstart, hagree.le_clockAt_iff hb hbounded]
  exact startOf_single_le_iff hbounded hfirst hlast (hagree.beginsWell hb hbounded hwell)

/-- What a skipped midnight says of the single change around it. -/
theorem exists_single_of_skipsAt (hb : z.Bounded) (hz : z.Spaced)
    (hskips : z.SkipsAt second (d.day * secondsPerDay)) :
    ∃ before after, (single before second after).Bounded ∧
      AgreeAround z (single before second after) (d.day * secondsPerDay + 3600) ∧
      z.startOf d = (single before second after).startOf d ∧
      second + before ≤ d.day * secondsPerDay ∧ d.day * secondsPerDay < second + after ∧
      z.clockAt second = second + after := by
  obtain ⟨before, change, after, hbounded, hagree, hagree', hstart⟩ :=
    exists_single_startOf_eq hb hz d
  obtain ⟨rfl, hbefore, hafter⟩ := skipsAt_single (hagree.skipsAt hb hskips)
  refine ⟨before, after, hbounded, hagree', hstart, hbefore, hafter, ?_⟩
  rw [(hagree.clocks_eq_of_skipsAt hb hskips).2, clockAt_single, if_neg (lt_irrefl second)]

/-- **The start of a date whose midnight is skipped.** -/
theorem seconds_startOf_of_skipsAt (hb : z.Bounded) (hz : z.Spaced)
    (hfirst : Date.firstDay + 1 ≤ d.day) (hlast : d.day + 1 ≤ Date.lastDay)
    (hskips : z.SkipsAt second (d.day * secondsPerDay)) :
    (z.startOf d).seconds =
      if z.clockAt second ≤ d.day * secondsPerDay + 3600 then
        second + (d.day * secondsPerDay + 3600 - z.clockAt second)
      else d.day * secondsPerDay := by
  obtain ⟨before, after, hbounded, -, hstart, hbefore, hafter, hclock⟩ :=
    exists_single_of_skipsAt hb hz hskips
  rw [hstart, seconds_startOf_single_of_skips hbounded hfirst hlast hbefore hafter, hclock]
  split_ifs <;> omega

/-- From there on clocks show one o'clock or a later time, if they do not skip that too. -/
theorem startOf_le_iff_of_skipsAt (hb : z.Bounded) (hz : z.Spaced)
    (hfirst : Date.firstDay + 1 ≤ d.day) (hlast : d.day + 1 ≤ Date.lastDay)
    (hskips : z.SkipsAt second (d.day * secondsPerDay))
    (hone : z.clockAt second ≤ d.day * secondsPerDay + 3600) :
    (z.startOf d).seconds ≤ t ↔ d.day * secondsPerDay + 3600 ≤ z.clockAt t := by
  obtain ⟨before, after, hbounded, hagree, hstart, hbefore, hafter, hclock⟩ :=
    exists_single_of_skipsAt hb hz hskips
  rw [hclock] at hone
  rw [hstart, hagree.le_clockAt_iff hb hbounded, clockAt_single,
    seconds_startOf_single_of_skips hbounded hfirst hlast hbefore hafter, if_pos hone]
  split_ifs <;> omega

/-! ### The day of a date -/

/-- **A day holds exactly the instants of its date**, if it begins and ends with a midnight at which
a day can begin. -/
theorem mem_day_iff_localDay_eq (z : Zone) (hb : z.Bounded) (hz : z.Spaced) (d : Date)
    (hfirst : Date.firstDay + 2 ≤ d.day) (hlast : d.day + 2 ≤ Date.lastDay)
    (hstart : z.BeginsWell (d.day * secondsPerDay))
    (hfinish : z.BeginsWell ((d.day + 1) * secondsPerDay)) :
    ∃ b ∈ z.day? d, ∀ t : Instant, b.start ≤ t ∧ t < b.finish ↔ z.localDay t = d.day := by
  obtain ⟨next, hnext⟩ := Date.exists_next (d := d) (by omega)
  rw [← hnext] at hfinish
  refine ⟨_, day?_eq_some hb hz.ascending hnext (by omega), fun t => ?_⟩
  rw [Instant.le_iff_seconds_le (nanos_startOf z d),
    Instant.lt_iff_seconds_lt (nanos_startOf z next), ← not_le,
    startOf_le_iff hb hz (by omega) (by omega) hstart,
    startOf_le_iff hb hz (by omega) (by omega) hfinish, hnext, localDay]
  simp only [secondsPerDay]
  omega

/-- A Sunday whose midnight is skipped. -/
theorem mem_day_iff_localDay_eq_skipped_midnight :
    let z : Zone := ⟨-14400, [⟨1725768000, -10800⟩]⟩
    let sunday : Date := ⟨19974, by decide, by decide⟩
    z.Bounded ∧ z.Spaced ∧ Date.firstDay + 2 ≤ sunday.day ∧ sunday.day + 2 ≤ Date.lastDay ∧
      z.BeginsWell (sunday.day * secondsPerDay) ∧ z.BeginsWell ((sunday.day + 1) * secondsPerDay) ∧
      ∃ b ∈ z.day? sunday,
        ∀ t : Instant, b.start ≤ t ∧ t < b.finish ↔ z.localDay t = sunday.day := by
  intro z sunday
  have hb : z.Bounded := by decide
  have hz : z.Spaced := by decide
  have hstart : z.BeginsWell (sunday.day * secondsPerDay) :=
    Or.inr (Or.inr ⟨1725768000, by decide, by decide⟩)
  have hfinish : z.BeginsWell ((sunday.day + 1) * secondsPerDay) := by
    refine Or.inl ⟨1725850800, by decide, fun t ht => ?_⟩
    have ht : (single (-14400) 1725768000 (-10800)).clockAt t = 1725840000 := ht
    rw [clockAt_single] at ht
    split_ifs at ht <;> omega
  exact ⟨hb, hz, by decide, by decide, hstart, hfinish,
    mem_day_iff_localDay_eq z hb hz sunday (by decide) (by decide) hstart hfinish⟩

end Daybook.Zone
