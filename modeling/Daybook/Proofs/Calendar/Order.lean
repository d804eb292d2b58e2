import Mathlib
import Daybook.Calendar.Zone

/-!
# Dates and instants in order

Dates are ordered by their day, and instants by second and then by nanosecond.  Both orders are
linear, so a run of consecutive dates is an interval of them.
-/

namespace Daybook

/-! ### Dates -/

namespace Date

theorem day_injective : Function.Injective Date.day := by
  rintro ⟨day, _, _⟩ ⟨_, _, _⟩ rfl
  rfl

instance : LinearOrder Date :=
  LinearOrder.lift' Date.day day_injective

theorem le_iff {d d' : Date} : d ≤ d' ↔ d.day ≤ d'.day :=
  Iff.rfl

theorem lt_iff {d d' : Date} : d < d' ↔ d.day < d'.day :=
  Iff.rfl

/-- The next date is a day later. -/
theorem next?_eq_some_iff {d next : Date} : d.next? = some next ↔ next.day = d.day + 1 := by
  rw [next?, ofDay?, Option.dite_none_right_eq_some]
  constructor
  · rintro ⟨h, hnext⟩
    rw [← Option.some.inj hnext]
  · intro hnext
    refine ⟨hnext ▸ ⟨next.firstDay_le, next.le_lastDay⟩, ?_⟩
    exact congrArg some (day_injective hnext.symm)

/-- The date before is the one that this is the next date of. -/
theorem previous?_eq_some_iff {d previous : Date} :
    d.previous? = some previous ↔ previous.next? = some d := by
  rw [next?_eq_some_iff, previous?, ofDay?, Option.dite_none_right_eq_some]
  constructor
  · rintro ⟨h, hprevious⟩
    rw [← Option.some.inj hprevious, Int.sub_add_cancel]
  · intro hd
    have hprevious : d.day - 1 = previous.day := by omega
    refine ⟨hprevious ▸ ⟨previous.firstDay_le, previous.le_lastDay⟩, ?_⟩
    exact congrArg some (day_injective hprevious)

theorem exists_next {d : Date} (h : d.day < lastDay) : ∃ next : Date, next.day = d.day + 1 := by
  have hfirst := d.firstDay_le
  exact ⟨⟨d.day + 1, by omega, by omega⟩, rfl⟩

theorem exists_previous {first d : Date} (h : first < d) :
    ∃ previous : Date, d.day = previous.day + 1 := by
  have hfirst := first.firstDay_le
  have hlast := d.le_lastDay
  rw [lt_iff] at h
  exact ⟨⟨d.day - 1, by omega, by omega⟩, (Int.sub_add_cancel d.day 1).symm⟩

end Date

/-! ### Instants -/

namespace Instant

theorem lt_iff {a b : Instant} :
    a < b ↔ a.seconds < b.seconds ∨ a.seconds = b.seconds ∧ a.nanos < b.nanos :=
  Iff.rfl

theorem le_iff {a b : Instant} :
    a ≤ b ↔ a.seconds < b.seconds ∨ a.seconds = b.seconds ∧ a.nanos ≤ b.nanos := by
  show ¬ b < a ↔ _
  rw [lt_iff]
  omega

theorem eq_iff {a b : Instant} : a = b ↔ a.seconds = b.seconds ∧ a.nanos = b.nanos := by
  constructor
  · rintro rfl
    exact ⟨rfl, rfl⟩
  · obtain ⟨_, _, _, _, _, _⟩ := a
    obtain ⟨_, _, _, _, _, _⟩ := b
    rintro ⟨rfl, rfl⟩
    rfl

instance : LinearOrder Instant where
  le_refl a := by rw [le_iff]; omega
  le_trans a b c hab hbc := by rw [le_iff] at *; omega
  le_antisymm a b hab hba := by rw [le_iff] at *; rw [eq_iff]; omega
  le_total a b := by rw [le_iff, le_iff]; omega
  lt_iff_le_not_ge a b := by rw [lt_iff, le_iff, le_iff]; omega
  toDecidableLE := fun _ _ => inferInstance

/-- The start of a second comes no later than an instant if its second does. -/
theorem le_iff_seconds_le {a b : Instant} (h : a.nanos = 0) : a ≤ b ↔ a.seconds ≤ b.seconds := by
  rw [le_iff]
  omega

theorem lt_iff_seconds_lt {a b : Instant} (h : b.nanos = 0) : a < b ↔ a.seconds < b.seconds := by
  rw [lt_iff]
  omega

theorem ofSeconds?_eq_some_iff {second : ℤ} {t : Instant} :
    ofSeconds? second = some t ↔ t.seconds = second ∧ t.nanos = 0 := by
  rw [ofSeconds?, Option.dite_none_right_eq_some]
  constructor
  · rintro ⟨h, ht⟩
    rw [← Option.some.inj ht]
    exact ⟨rfl, rfl⟩
  · rintro ⟨rfl, hnanos⟩
    refine ⟨⟨t.firstSecond_le, t.le_lastSecond⟩, congrArg some ?_⟩
    rw [eq_iff]
    exact ⟨rfl, hnanos.symm⟩

theorem ofSeconds?_isSome_iff {second : ℤ} :
    (ofSeconds? second).isSome ↔ firstSecond ≤ second ∧ second ≤ lastSecond := by
  unfold ofSeconds?
  split <;> simp_all

end Instant

end Daybook
