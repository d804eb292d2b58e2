import Mathlib
import Daybook.Proofs.Calendar.Civil
import Daybook.Proofs.Calendar.Order

/-!
# The day after and the day before

`Civil.dayAfter` and `Civil.dayBefore` step through the calendar as it is written, over the ends of
months and years; the one undoes the other (`Civil.Valid.dayAfter_dayBefore`) and both count one day
(`Civil.Valid.dayNumber_dayAfter`).  The next date and the date before are these days, as long as
their years are in range (`Date.next?_eq_some_iff_civil`, `Date.next?_eq_none_iff`).
-/

namespace Daybook

namespace Civil

/-- The day after: the next day of the month, else the first of the next month, else the first of
January of the next year. -/
def dayAfter (c : Civil) : Civil :=
  if c.day < c.monthLength then { c with day := c.day + 1 }
  else if c.month < 12 then { c with month := c.month + 1, day := 1 }
  else { year := c.year + 1, month := 1, day := 1 }

/-- The last day of a month of a year. -/
def lastOfMonth (year : ℤ) (month : ℕ) : Civil where
  year := year
  month := month
  day := (monthLengths (isLeapYear year)).getD (month - 1) 0

/-- The day before: the one before in the month, else the last of the month before, else the last of
December of the year before. -/
def dayBefore (c : Civil) : Civil :=
  if 1 < c.day then { c with day := c.day - 1 }
  else if 1 < c.month then lastOfMonth c.year (c.month - 1)
  else lastOfMonth (c.year - 1) 12

variable {c : Civil}

theorem monthLength_pos (hmonth : 1 ≤ c.month) (hmonth' : c.month ≤ 12) : 1 ≤ c.monthLength := by
  have hall : ∀ leap, ∀ n < 12, 1 ≤ (monthLengths leap).getD n 0 := by decide
  exact hall _ _ (by omega)

theorem valid_lastOfMonth {year : ℤ} {month : ℕ} (hmonth : 1 ≤ month) (hmonth' : month ≤ 12) :
    (lastOfMonth year month).Valid :=
  ⟨hmonth, hmonth', monthLength_pos (c := lastOfMonth year month) hmonth hmonth', le_rfl⟩

theorem Valid.dayAfter (h : c.Valid) : c.dayAfter.Valid := by
  obtain ⟨hmonth, hmonth', hday, hday'⟩ := h
  rw [Civil.dayAfter]
  split_ifs with hshort hyear
  · exact ⟨hmonth, hmonth', Nat.le_add_left _ _, hshort⟩
  · exact ⟨Nat.le_add_left _ _, hyear, le_rfl, monthLength_pos (Nat.le_add_left _ _) hyear⟩
  · have hjanuary : 1 ≤ 12 := by decide
    exact ⟨le_rfl, hjanuary, le_rfl, monthLength_pos le_rfl hjanuary⟩

theorem Valid.dayBefore (h : c.Valid) : c.dayBefore.Valid := by
  obtain ⟨hmonth, hmonth', hday, hday'⟩ := h
  rw [Civil.dayBefore]
  split_ifs with hfirst hjanuary
  · exact ⟨hmonth, hmonth', Nat.le_sub_one_of_lt hfirst, (Nat.sub_le _ _).trans hday'⟩
  · exact valid_lastOfMonth (Nat.le_sub_one_of_lt hjanuary) ((Nat.sub_le _ _).trans hmonth')
  · exact valid_lastOfMonth (Nat.le_add_left 1 11) le_rfl

/-- After the last day of a month comes the first one of the next. -/
theorem dayAfter_lastOfMonth (year : ℤ) (month : ℕ) : (lastOfMonth year month).dayAfter =
    if month < 12 then ⟨year, month + 1, 1⟩ else ⟨year + 1, 1, 1⟩ :=
  if_neg (lt_irrefl _)

/-- **The day after the day before** is the day itself. -/
theorem Valid.dayAfter_dayBefore (h : c.Valid) : c.dayBefore.dayAfter = c := by
  obtain ⟨hmonth, hmonth', hday, hday'⟩ := h
  obtain ⟨year, month, day⟩ := c
  dsimp only at hmonth hmonth' hday
  rw [Civil.dayBefore]
  dsimp only
  split_ifs with hfirst hjanuary
  · have hshort : day - 1 < monthLength ⟨year, month, day - 1⟩ := by
      rw [monthLength] at hday' ⊢
      dsimp only at hday' ⊢
      omega
    rw [Civil.dayAfter, if_pos hshort]
    exact congrArg (Civil.mk year month) (Nat.sub_add_cancel hday)
  · have hnext : month - 1 < 12 := Nat.sub_one_lt_of_le hmonth hmonth'
    rw [dayAfter_lastOfMonth, if_pos hnext, Nat.sub_add_cancel hmonth, show day = 1 by omega]
  · rw [dayAfter_lastOfMonth, if_neg (lt_irrefl 12), Int.sub_add_cancel, show day = 1 by omega,
      show month = 1 by omega]

/-- **The day after counts one more day.** -/
theorem Valid.dayNumber_dayAfter (h : c.Valid) : c.dayAfter.dayNumber = c.dayNumber + 1 := by
  have hmonths := h.sum_monthsBefore_add_monthLength
  obtain ⟨hmonth, hmonth', hday, hday'⟩ := h
  rw [dayNumber_eq c, Civil.dayAfter]
  split_ifs with hshort hyear
  · rw [dayNumber_eq]
    simp only [monthsBefore]
    omega
  · rw [dayNumber_eq]
    simp only [monthsBefore, add_tsub_cancel_right] at hmonths ⊢
    omega
  · -- After December all the months of the year are over.
    have hdecember : c.month = 12 := by omega
    rw [hdecember, ← length_monthLengths (isLeapYear c.year), List.take_length,
      sum_monthLengths] at hmonths
    rw [dayNumber_eq, firstDayOfYear_succ]
    simp only [monthsBefore, Nat.sub_self, List.take_zero, List.sum_nil] at hmonths ⊢
    split_ifs at hmonths ⊢ <;> omega

theorem Valid.dayNumber_dayBefore (h : c.Valid) : c.dayBefore.dayNumber = c.dayNumber - 1 := by
  have hnext := h.dayBefore.dayNumber_dayAfter
  rw [h.dayAfter_dayBefore] at hnext
  omega

theorem Valid.dayBefore_dayAfter (h : c.Valid) : c.dayAfter.dayBefore = c := by
  rw [← h.dayAfter.dayBefore.dayNumber_inj h, h.dayAfter.dayNumber_dayBefore, h.dayNumber_dayAfter,
    add_sub_cancel_right]

theorem year_le_dayAfter (c : Civil) : c.year ≤ c.dayAfter.year := by
  rw [dayAfter]
  split_ifs
  · exact le_rfl
  · exact le_rfl
  · exact (lt_add_one c.year).le

theorem dayBefore_year_le (c : Civil) : c.dayBefore.year ≤ c.year := by
  rw [dayBefore]
  split_ifs
  · exact le_rfl
  · exact le_rfl
  · exact (sub_one_lt c.year).le

end Civil

namespace Date

variable {d d' : Date}

/-- **The next date is the day after.** -/
theorem next?_eq_some_iff_civil : d.next? = some d' ↔ d'.civil = d.civil.dayAfter := by
  rw [next?_eq_some_iff, ← d'.valid_civil.dayNumber_inj d.valid_civil.dayAfter,
    d.valid_civil.dayNumber_dayAfter, d.dayNumber_civil, d'.dayNumber_civil]

/-- **The date before is the day before.** -/
theorem previous?_eq_some_iff_civil : d.previous? = some d' ↔ d'.civil = d.civil.dayBefore := by
  rw [previous?_eq_some_iff, next?_eq_some_iff_civil]
  constructor
  · intro h
    rw [h, d'.valid_civil.dayBefore_dayAfter]
  · intro h
    rw [h, d.valid_civil.dayAfter_dayBefore]

theorem next?_eq_none_iff : d.next? = none ↔ 262142 < d.civil.dayAfter.year := by
  have hlow := (exists_civil_eq_iff.mp ⟨d, rfl⟩).2.1.trans d.civil.year_le_dayAfter
  have hvalid := d.valid_civil.dayAfter
  rw [← Option.not_isSome_iff_eq_none, Option.isSome_iff_exists]
  simp only [next?_eq_some_iff_civil, exists_civil_eq_iff]
  simp [hvalid, hlow]

theorem previous?_eq_none_iff : d.previous? = none ↔ d.civil.dayBefore.year < -262143 := by
  have hhigh := d.civil.dayBefore_year_le.trans (exists_civil_eq_iff.mp ⟨d, rfl⟩).2.2
  have hvalid := d.valid_civil.dayBefore
  rw [← Option.not_isSome_iff_eq_none, Option.isSome_iff_exists]
  simp only [previous?_eq_some_iff_civil, exists_civil_eq_iff]
  simp [hvalid, hhigh]

end Date

end Daybook
