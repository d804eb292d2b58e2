import Mathlib
import Daybook.Proofs.Calendar.Order

/-!
# Seconds between instants

The seconds from one instant to another are nanoseconds by the clock, cut to whole seconds toward
zero (`secondsSince_spec`).  A leap second of one of the two can add or take a second, and the
nanoseconds that it goes on to almost another two, so the result may differ from the difference of
the seconds; but never by more than two (`abs_secondsSince_sub_le`).

If the second instant is no later than the first, the nanoseconds between them can still be
negative, if one of them lies in a leap second, but not by a whole second.  So the seconds are not
(`secondsSince_nonneg`), and exceed the difference of the seconds by one at most
(`secondsSince_le`).
-/

namespace Daybook.Instant

variable {a b : Instant}

/-- A second is only taken or added for an instant in a leap second. -/
theorem leapCorrection_cases (a b : Instant) :
    leapCorrection a b = 0 ∨
      leapCorrection a b = 1 ∧ b.secondOfDay < a.secondOfDay ∧ 1000000000 ≤ b.nanos ∨
      leapCorrection a b = -1 ∧ a.secondOfDay < b.secondOfDay ∧ 1000000000 ≤ a.nanos := by
  unfold leapCorrection
  split_ifs with hb ha
  · exact Or.inr (Or.inl ⟨rfl, hb.1, of_decide_eq_true hb.2⟩)
  · exact Or.inr (Or.inr ⟨rfl, ha.1, of_decide_eq_true ha.2⟩)
  · exact Or.inl rfl

theorem nanosecondsSince_bounds (a b : Instant) :
    (a.seconds - b.seconds - 2) * nanosecondsPerSecond < a.nanosecondsSince b ∧
      a.nanosecondsSince b < (a.seconds - b.seconds + 2) * nanosecondsPerSecond := by
  have ha := a.nanos_lt
  have hb := b.nanos_lt
  rw [nanosecondsSince, nanosecondsPerSecond]
  -- With a correction, the nanoseconds of the leap second are a second at least.
  rcases leapCorrection_cases a b with h | ⟨h, -, hleap⟩ | ⟨h, -, hleap⟩
  · omega
  · omega
  · omega

/-- To a later instant it is less than a second backwards. -/
theorem neg_lt_nanosecondsSince (h : b ≤ a) :
    -nanosecondsPerSecond < a.nanosecondsSince b := by
  rw [le_iff] at h
  have hb := b.nanos_lt
  rw [nanosecondsSince, nanosecondsPerSecond]
  rcases leapCorrection_cases a b with hzero | ⟨hone, -, -⟩ | ⟨hneg, hday, hleap⟩
  · omega
  · omega
  · -- Of two instants of one second, neither is earlier within its day.
    have hne : a.seconds ≠ b.seconds := by
      intro heq
      rw [secondOfDay, secondOfDay, heq] at hday
      omega
    omega

/-- **Seconds are nanoseconds cut toward zero.** -/
theorem secondsSince_spec (a b : Instant) :
    0 ≤ a.nanosecondsSince b ∧
        a.secondsSince b * nanosecondsPerSecond ≤ a.nanosecondsSince b ∧
        a.nanosecondsSince b < (a.secondsSince b + 1) * nanosecondsPerSecond ∨
      a.nanosecondsSince b < 0 ∧
        a.nanosecondsSince b ≤ a.secondsSince b * nanosecondsPerSecond ∧
        (a.secondsSince b - 1) * nanosecondsPerSecond < a.nanosecondsSince b := by
  rw [secondsSince]
  generalize a.nanosecondsSince b = n
  have hcut := Int.tdiv_mul_add_tmod n nanosecondsPerSecond
  have hpos : 0 < nanosecondsPerSecond := by decide
  rcases le_or_gt 0 n with hn | hn
  · have hnonneg := Int.tmod_nonneg nanosecondsPerSecond hn
    have hlt := Int.tmod_lt_of_pos n hpos
    left
    rw [add_mul]
    omega
  · have hneg := Int.tmod_nonneg nanosecondsPerSecond (Int.neg_nonneg_of_nonpos hn.le)
    have hlt := Int.tmod_lt_of_pos (-n) hpos
    rw [Int.neg_tmod] at hneg hlt
    right
    rw [sub_mul]
    omega

/-- **The seconds between two instants are those of the clock**, up to two. -/
theorem abs_secondsSince_sub_le (a b : Instant) :
    |a.secondsSince b - (a.seconds - b.seconds)| ≤ 2 := by
  have hbounds := nanosecondsSince_bounds a b
  have hspec := secondsSince_spec a b
  rw [abs_le]
  simp only [nanosecondsPerSecond] at hbounds hspec
  omega

/-- **To a later instant the seconds are not negative.** -/
theorem secondsSince_nonneg (h : b ≤ a) : 0 ≤ a.secondsSince b := by
  have hlt := neg_lt_nanosecondsSince h
  have hspec := secondsSince_spec a b
  simp only [nanosecondsPerSecond] at hlt hspec
  omega

/-- **To a later instant it is one second more than by the clock at most.** -/
theorem secondsSince_le (h : b ≤ a) : a.secondsSince b ≤ a.seconds - b.seconds + 1 := by
  have hbounds := nanosecondsSince_bounds a b
  have hspec := secondsSince_spec a b
  rw [le_iff] at h
  simp only [nanosecondsPerSecond] at hbounds hspec
  omega

theorem secondsSince_of_nanos_eq_zero (ha : a.nanos = 0) (hb : b.nanos = 0) :
    a.secondsSince b = a.seconds - b.seconds := by
  have hcorrection : leapCorrection a b = 0 := by
    rcases leapCorrection_cases a b with h | ⟨-, -, hleap⟩ | ⟨-, -, hleap⟩
    · exact h
    · omega
    · omega
  rw [secondsSince, nanosecondsSince, hcorrection, ha, hb, add_zero, Nat.cast_zero, sub_zero,
    add_zero, Int.mul_tdiv_cancel _ (by decide)]

end Daybook.Instant
