import Mathlib
import Daybook.Calendar.Date

/-!
# Dates by year, month and day

A day number falls into the year that is found for it (`yearOfDay_spec`), and walking through the
months of that year finds the month whose days before it leave a day of that month
(`Civil.monthAndDay_spec`).  So the date that is found is one of the calendar, and counting the days
before it leads back to the day number (`Civil.ofDayNumber_spec`).

There is no other such date: years do not overlap (`yearOfDay_eq`), and neither do months
(`Civil.monthAndDay_sum`).  So the dates of the calendar and the day numbers are in one to one
correspondence, and a date is in range if its year is (`Date.exists_civil_eq_iff`).
-/

namespace Daybook

/-! ### Years -/

theorem isLeapYear_iff {year : ℤ} :
    isLeapYear year = true ↔ year % 4 = 0 ∧ (year % 100 ≠ 0 ∨ year % 400 = 0) := by
  simp [isLeapYear]

/-- A year has 365 days, and one more if it is a leap year. -/
theorem firstDayOfYear_succ (year : ℤ) :
    firstDayOfYear (year + 1) =
      firstDayOfYear year + if isLeapYear year then 366 else 365 := by
  simp only [firstDayOfYear, isLeapYear_iff]
  split <;> omega

/-- The mean length of a year is `146097 / 400` days, and no year begins far from the multiple of
it. -/
theorem firstDayOfYear_bounds (year : ℤ) :
    146097 * (year - 1970) - 506 ≤ 400 * firstDayOfYear year ∧
      400 * firstDayOfYear year ≤ 146097 * (year - 1970) + 589 := by
  simp only [firstDayOfYear]
  omega

/-- **A day number falls into its year.** -/
theorem yearOfDay_spec (day : ℤ) :
    firstDayOfYear (yearOfDay day) ≤ day ∧ day < firstDayOfYear (yearOfDay day + 1) := by
  rw [yearOfDay]
  generalize hguess : day * 400 / 146097 + 1970 = guess
  -- The guess is wrong by one year at most, and then it is put right.
  have hbefore := (firstDayOfYear_bounds (guess - 1)).2
  have hafter := (firstDayOfYear_bounds (guess + 2)).1
  split
  · next hlt =>
    rw [sub_add_cancel]
    exact ⟨by omega, hlt⟩
  · next hle =>
    split
    · next hle' =>
      rw [add_assoc, one_add_one_eq_two]
      exact ⟨hle', by omega⟩
    · next hlt => exact ⟨by omega, by omega⟩

theorem firstDayOfYear_strictMono : StrictMono firstDayOfYear := by
  refine strictMono_int_of_lt_succ fun year => ?_
  rw [firstDayOfYear_succ]
  split <;> omega

/-- A day number falls into no other year. -/
theorem yearOfDay_eq {year day : ℤ} (hfirst : firstDayOfYear year ≤ day)
    (hlast : day < firstDayOfYear (year + 1)) : yearOfDay day = year := by
  obtain ⟨hfirst', hlast'⟩ := yearOfDay_spec day
  have hle : yearOfDay day < year + 1 := firstDayOfYear_strictMono.lt_iff_lt.mp (by omega)
  have hge : year < yearOfDay day + 1 := firstDayOfYear_strictMono.lt_iff_lt.mp (by omega)
  omega

/-! ### Months -/

theorem length_monthLengths (leap : Bool) : (monthLengths leap).length = 12 :=
  rfl

theorem sum_monthLengths (leap : Bool) : (monthLengths leap).sum = if leap then 366 else 365 := by
  cases leap <;> rfl

/-- No month has more days than January. -/
theorem getD_monthLengths_le (leap : Bool) (month : ℕ) : (monthLengths leap).getD month 0 ≤ 31 := by
  by_cases h : month < 12
  · interval_cases month <;> cases leap <;> decide
  · rw [List.getD_eq_default _ _ (not_lt.mp h)]
    exact Nat.zero_le 31

namespace Civil

/-- Walking through months ends in the one that the day falls into. -/
theorem monthAndDay_spec {lengths : List ℕ} {dayOfYear : ℕ} (h : dayOfYear < lengths.sum)
    (month : ℕ) : ∃ before < lengths.length, ∃ day < lengths.getD before 0,
      monthAndDay month lengths dayOfYear = (month + before, day + 1) ∧
        dayOfYear = (lengths.take before).sum + day := by
  induction lengths generalizing month dayOfYear with
  | nil => simp at h
  | cons length lengths ih =>
    rw [monthAndDay]
    split
    · next hlt => exact ⟨0, Nat.succ_pos _, dayOfYear, hlt, rfl, (Nat.zero_add _).symm⟩
    · next hle =>
      have hrest : dayOfYear - length < lengths.sum := by
        rw [List.sum_cons] at h
        omega
      obtain ⟨before, hbefore, day, hday, heq, hsum⟩ := ih hrest (month + 1)
      refine ⟨before + 1, Nat.succ_lt_succ hbefore, day, hday, ?_, ?_⟩
      · rw [heq, add_assoc, add_comm 1 before]
      · rw [List.take_succ_cons, List.sum_cons]
        omega

/-- The month that a day falls into is the only one. -/
theorem monthAndDay_sum {lengths : List ℕ} {before day : ℕ} (h : day < lengths.getD before 0)
    (month : ℕ) : monthAndDay month lengths ((lengths.take before).sum + day) =
      (month + before, day + 1) := by
  induction lengths generalizing before month with
  | nil => simp at h
  | cons length lengths ih =>
    cases before with
    | zero =>
      rw [List.take_zero, List.sum_nil, Nat.zero_add, monthAndDay]
      exact if_pos h
    | succ before =>
      rw [List.take_succ_cons, List.sum_cons, monthAndDay, if_neg (by omega),
        show length + (lengths.take before).sum + day - length =
          (lengths.take before).sum + day by omega, ih h, add_assoc, add_comm 1 before]

/-- What the date of a day number is made of. -/
theorem ofDayNumber_spec (day : ℤ) :
    (ofDayNumber day).Valid ∧ (ofDayNumber day).dayNumber = day := by
  obtain ⟨hfirst, hlast⟩ := yearOfDay_spec day
  rw [firstDayOfYear_succ] at hlast
  have hdays : (day - firstDayOfYear (yearOfDay day)).toNat <
      (monthLengths (isLeapYear (yearOfDay day))).sum := by
    rw [sum_monthLengths]
    by_cases hleap : isLeapYear (yearOfDay day) = true
    · rw [if_pos hleap] at hlast ⊢
      omega
    · rw [if_neg hleap] at hlast ⊢
      omega
  obtain ⟨before, hbefore, rest, hrest, heq, hsum⟩ := monthAndDay_spec hdays 1
  have hdate : ofDayNumber day = ⟨yearOfDay day, 1 + before, rest + 1⟩ := by
    simp only [ofDayNumber, heq]
  rw [length_monthLengths] at hbefore
  rw [hdate]
  constructor
  · refine ⟨by simp, by simpa using (by omega : 1 + before ≤ 12), by simp, ?_⟩
    rw [monthLength, add_tsub_cancel_left]
    exact hrest
  · have hfold : ((monthLengths (isLeapYear (yearOfDay day))).take before).foldl Nat.add 0 =
        ((monthLengths (isLeapYear (yearOfDay day))).take before).sum :=
      List.sum_eq_foldl.symm
    simp only [dayNumber, add_tsub_cancel_left, hfold]
    omega

variable {c : Civil}

/-- The months of the year before that of a date. -/
def monthsBefore (c : Civil) : List ℕ :=
  (monthLengths (isLeapYear c.year)).take (c.month - 1)

theorem dayNumber_eq (c : Civil) :
    c.dayNumber = firstDayOfYear c.year + c.monthsBefore.sum + (c.day - 1) := by
  rw [monthsBefore, List.sum_eq_foldl]
  rfl

/-- The months up to that of a date. -/
theorem Valid.sum_monthsBefore_add_monthLength (h : c.Valid) :
    c.monthsBefore.sum + c.monthLength =
      ((monthLengths (isLeapYear c.year)).take c.month).sum := by
  obtain ⟨hmonth, hmonth', -, -⟩ := h
  have hlt : c.month - 1 < (monthLengths (isLeapYear c.year)).length := by
    rw [length_monthLengths]
    omega
  have hsum := List.sum_take_succ (monthLengths (isLeapYear c.year)) (c.month - 1) hlt
  rw [Nat.sub_add_cancel hmonth] at hsum
  rw [hsum, monthsBefore, monthLength, List.getD_eq_getElem _ _ hlt]

/-- The days of a year are those from its first of January to before the next one. -/
theorem Valid.dayNumber_bounds (h : c.Valid) :
    firstDayOfYear c.year ≤ c.dayNumber ∧ c.dayNumber < firstDayOfYear (c.year + 1) := by
  have hmonths := h.sum_monthsBefore_add_monthLength
  have hyear : ((monthLengths (isLeapYear c.year)).take c.month).sum ≤
      (monthLengths (isLeapYear c.year)).sum := (List.take_sublist _ _).sum_le_sum (by simp)
  obtain ⟨-, -, hday, hday'⟩ := h
  rw [sum_monthLengths] at hyear
  rw [firstDayOfYear_succ, dayNumber_eq]
  split_ifs at hyear ⊢ <;> omega

theorem Valid.firstDayOfYear_le_iff (h : c.Valid) {year : ℤ} :
    firstDayOfYear year ≤ c.dayNumber ↔ year ≤ c.year := by
  obtain ⟨hfirst, hlast⟩ := h.dayNumber_bounds
  constructor
  · intro hle
    have hlt : year < c.year + 1 := firstDayOfYear_strictMono.lt_iff_lt.mp (by omega)
    omega
  · intro hle
    exact (firstDayOfYear_strictMono.monotone hle).trans hfirst

/-- **A date is found again by the days before it.** -/
theorem Valid.ofDayNumber_dayNumber (h : c.Valid) : ofDayNumber c.dayNumber = c := by
  obtain ⟨hfirst, hlast⟩ := h.dayNumber_bounds
  obtain ⟨hmonth, -, hday, hday'⟩ := h
  have hdays : (c.dayNumber - firstDayOfYear c.year).toNat = c.monthsBefore.sum + (c.day - 1) := by
    rw [dayNumber_eq]
    omega
  have hwalk : monthAndDay 1 (monthLengths (isLeapYear c.year))
      (c.monthsBefore.sum + (c.day - 1)) = (1 + (c.month - 1), c.day - 1 + 1) :=
    monthAndDay_sum (Nat.sub_one_lt_of_le hday hday') 1
  simp only [ofDayNumber, yearOfDay_eq hfirst hlast, hdays, hwalk]
  rw [Nat.add_sub_cancel' hmonth, Nat.sub_add_cancel hday]

theorem Valid.dayNumber_inj {c' : Civil} (h : c.Valid) (h' : c'.Valid) :
    c.dayNumber = c'.dayNumber ↔ c = c' := by
  refine ⟨fun heq => ?_, congrArg dayNumber⟩
  rw [← h.ofDayNumber_dayNumber, heq, h'.ofDayNumber_dayNumber]

end Civil

/-! ### Dates -/

theorem Date.valid_civil (d : Date) : d.civil.Valid :=
  (Civil.ofDayNumber_spec d.day).1

theorem Date.dayNumber_civil (d : Date) : d.civil.dayNumber = d.day :=
  (Civil.ofDayNumber_spec d.day).2

/-- **A date is found again by its year, month and day.** -/
theorem Date.ofCivil?_civil (d : Date) : ofCivil? d.civil = some d := by
  rw [ofCivil?, if_pos d.valid_civil, d.dayNumber_civil, ofDay?,
    dif_pos ⟨d.firstDay_le, d.le_lastDay⟩]

theorem Date.ofCivil?_eq_some_iff {c : Civil} {d : Date} : ofCivil? c = some d ↔ d.civil = c := by
  constructor
  · intro h
    rw [ofCivil?, Option.ite_none_right_eq_some, ofDay?, Option.dite_none_right_eq_some] at h
    obtain ⟨hvalid, hrange, hd⟩ := h
    rw [← Option.some_inj.mp hd, civil]
    exact hvalid.ofDayNumber_dayNumber
  · rintro rfl
    exact d.ofCivil?_civil

/-- **The dates are those of the calendar whose years are in range.** -/
theorem Date.exists_civil_eq_iff {c : Civil} :
    (∃ d : Date, d.civil = c) ↔ c.Valid ∧ -262143 ≤ c.year ∧ c.year ≤ 262142 := by
  have hfirst : firstDay = firstDayOfYear (-262143) := by decide
  have hlast : lastDay + 1 = firstDayOfYear 262143 := by decide
  constructor
  · rintro ⟨d, rfl⟩
    have hvalid := d.valid_civil
    have hle := d.firstDay_le
    have hge := d.le_lastDay
    rw [← d.dayNumber_civil, hfirst, hvalid.firstDayOfYear_le_iff] at hle
    rw [← Int.lt_add_one_iff, hlast, ← not_le, ← d.dayNumber_civil,
      hvalid.firstDayOfYear_le_iff] at hge
    exact ⟨hvalid, hle, by omega⟩
  · rintro ⟨hvalid, hle, hge⟩
    have hlt : ¬ firstDayOfYear 262143 ≤ c.dayNumber := by
      rw [hvalid.firstDayOfYear_le_iff]
      omega
    rw [← hvalid.firstDayOfYear_le_iff, ← hfirst] at hle
    exact ⟨⟨c.dayNumber, hle, by omega⟩, hvalid.ofDayNumber_dayNumber⟩

/-- Years of dates have six digits at most. -/
theorem Date.natAbs_year_lt (d : Date) : d.civil.year.natAbs < 10 ^ 6 := by
  obtain ⟨-, hle, hge⟩ := exists_civil_eq_iff.mp ⟨d, rfl⟩
  omega

end Daybook
