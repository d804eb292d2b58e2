import Mathlib
import Daybook.Proofs.Calendar.Midnight
import Daybook.Proofs.DayView.Selection

/-!
# Days whose midnight is skipped

When clocks go forward over a midnight, the day begins as soon as they show one o'clock.  If they go
on from one o'clock exactly, that is at the change, and what was done before it and after it is
shown on different dates.  If they go on from an earlier time, what is done until one o'clock is
still shown on the date before (`half_hour_gap`).  If they skip one o'clock too, the day begins with
midnight in UTC (`day_of_skipped_midnight`).
-/

namespace Daybook.DayView

variable {z : Zone} {least : Int64} {entries : List Entry} {d previous : Date} {e : Entry}

/-- An entry that a day shows starts in it, and ends before it is over. -/
theorem Shows.seconds {b : DayBounds} (h : Shows z least entries d e) (hday : z.day? d = some b) :
    b.start.seconds ≤ e.start.seconds ∧ e.finish.seconds < b.finish.seconds := by
  obtain ⟨hstart, hfinish⟩ := Zone.nanos_of_day? hday
  obtain ⟨-, b', hb', hle, hlt⟩ := shows_iff.mp h
  obtain rfl := Option.mem_unique hday hb'
  exact ⟨(Instant.le_iff_seconds_le hstart).mp hle, (Instant.lt_iff_seconds_lt hfinish).mp hlt⟩

/-- **A skipped midnight starts the day at one o'clock.** The day begins with the first instant at
which clocks show one o'clock or later, if they do not skip that as well, and nothing that was begun
before the change is shown on it.  If clocks go on from one o'clock exactly, it is the first instant
of the date too, and nothing that ends after the change is shown on the date before.  If they skip
one o'clock, the day begins with midnight in UTC. -/
theorem day_of_skipped_midnight (z : Zone) (hb : z.Bounded) (hz : z.Spaced) (d : Date)
    (hfirst : Date.firstDay + 2 ≤ d.day) (hlast : d.day + 2 ≤ Date.lastDay) (change : ℤ)
    (hskips : z.SkipsAt change (d.day * secondsPerDay)) :
    ∃ b ∈ z.day? d,
      (z.clockAt change ≤ d.day * secondsPerDay + 3600 →
        (∀ t : Instant, b.start ≤ t ↔ d.day * secondsPerDay + 3600 ≤ z.clockAt t.seconds) ∧
        b.start.seconds = change + (d.day * secondsPerDay + 3600 - z.clockAt change) ∧
        ∀ least entries e, Shows z least entries d e → change ≤ e.start.seconds) ∧
      (z.clockAt change = d.day * secondsPerDay + 3600 →
        (∀ t : Instant, b.start ≤ t ↔ d.day * secondsPerDay ≤ z.clockAt t.seconds) ∧
        ∀ previous : Date, d.day = previous.day + 1 →
          ∀ least entries e, Shows z least entries previous e → e.finish.seconds < change) ∧
      (d.day * secondsPerDay + 3600 < z.clockAt change → b.start = Instant.startOf d) := by
  obtain ⟨next, hnext⟩ := Date.exists_next (d := d) (by omega)
  have hday := Zone.day?_eq_some hb hz.ascending hnext (by omega)
  have hstart := Zone.seconds_startOf_of_skipsAt hb hz (by omega) (by omega) hskips
  have hnanos := Zone.nanos_startOf z d
  refine ⟨_, hday, fun hone => ?_, fun hone => ?_, fun hone => ?_⟩
  · rw [if_pos hone] at hstart
    refine ⟨fun t => ?_, hstart, fun least entries e he => ?_⟩
    · rw [Instant.le_iff_seconds_le hnanos]
      exact Zone.startOf_le_iff_of_skipsAt hb hz (by omega) (by omega) hskips hone
    · have hshown : (z.startOf d).seconds ≤ e.start.seconds := (he.seconds hday).1
      omega
  · rw [if_pos hone.le] at hstart
    refine ⟨fun t => ?_, fun previous hprevious least entries e he => ?_⟩
    · rw [Instant.le_iff_seconds_le hnanos]
      exact Zone.startOf_le_iff hb hz (by omega) (by omega)
        (Or.inr (Or.inr ⟨change, hskips, hone⟩))
    · -- The date before ends where this one starts, at the change.
      have hbefore := Zone.day?_eq_some hb hz.ascending hprevious (by omega)
      have hshown : e.finish.seconds < (z.startOf d).seconds := (he.seconds hbefore).2
      omega
  · rw [if_neg (not_le.mpr hone)] at hstart
    exact Instant.eq_iff.mpr ⟨hstart, hnanos⟩

/-- A change in the half hour before midnight, from half past eleven to half past twelve. -/
theorem day_of_skipped_midnight_across :
    let z : Zone := ⟨0, [⟨1714951800, 3600⟩]⟩
    let d : Date := ⟨19849, by decide, by decide⟩
    z.Bounded ∧ z.Spaced ∧ Date.firstDay + 2 ≤ d.day ∧ d.day + 2 ≤ Date.lastDay ∧
      z.SkipsAt 1714951800 (d.day * secondsPerDay) ∧
      z.clockAt 1714951800 ≤ d.day * secondsPerDay + 3600 ∧
      ∃ b ∈ z.day? d, b.start.seconds = 1714951800 + 1800 ∧
        ∀ t : Instant, b.start ≤ t ↔ d.day * secondsPerDay + 3600 ≤ z.clockAt t.seconds := by
  intro z d
  have hb : z.Bounded := by decide
  have hz : z.Spaced := by decide
  have hskips : z.SkipsAt 1714951800 (d.day * secondsPerDay) := by decide
  have hone : z.clockAt 1714951800 ≤ d.day * secondsPerDay + 3600 := by decide
  obtain ⟨b, hday, h, -, -⟩ :=
    day_of_skipped_midnight z hb hz d (by decide) (by decide) 1714951800 hskips
  obtain ⟨hfirst, hstart, -⟩ := h hone
  exact ⟨hb, hz, by decide, by decide, hskips, hone, b, hday, hstart, hfirst⟩

/-- **A day can begin after the change that skips its midnight.** Clocks go on from half past
twelve, the day begins half an hour later, and what is done in between is shown on the date
before. -/
theorem half_hour_gap :
    let z : Zone := ⟨0, [⟨1714953600, 1800⟩]⟩
    let before : Date := ⟨19848, by decide, by decide⟩
    let d : Date := ⟨19849, by decide, by decide⟩
    let start := Instant.ofSeconds 1714953660 (by decide)
    let finish := Instant.ofSeconds 1714954200 (by decide)
    let e := entryBetween start finish
    z.Bounded ∧ z.Spaced ∧ Date.firstDay + 2 ≤ d.day ∧ d.day + 2 ≤ Date.lastDay ∧
      z.SkipsAt 1714953600 (d.day * secondsPerDay) ∧
      (∃ b ∈ z.day? d, b.start.seconds ≠ 1714953600) ∧
      z.localDay start = d.day ∧ Shows z 0 [e] before e := by
  intro z before d start finish e
  have hday : ∃ b ∈ z.day? d, b.start.seconds ≠ 1714953600 := by decide
  exact ⟨by decide, by decide, by decide, by decide, by decide, hday, by decide,
    shows_iff.mpr ⟨by decide, by decide⟩⟩

end Daybook.DayView
