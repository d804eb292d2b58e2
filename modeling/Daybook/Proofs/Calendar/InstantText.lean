import Mathlib
import Daybook.Calendar.InstantText
import Daybook.Proofs.Calendar.Civil
import Daybook.Proofs.Calendar.Scan

/-!
# Instants are read as they are written

Each part of a written instant is read back from the front of a text, whatever follows it, if digits
are not followed by further digits where there is no limit to them (`TimeScan.number_padded`,
`TimeScan.year_yearText`).  Put together, the text of a date with a time of day is read as this date
and time of day (`Instant.Written.ofText_text`), and the instant they belong to is the one that was
written (`Instant.ofText_text`).
-/

namespace Daybook

/-! ### Blanks -/

namespace Text

theorem skipBlanks_cons {c : Char} {cs : List Char} (hc : isBlank c = false) :
    skipBlanks (c :: cs) = c :: cs :=
  skipBlanks_eq_self (by simpa using hc)

theorem skipBlanks_padded (width n : ℕ) (rest : List Char) :
    skipBlanks (padded width n ++ rest) = padded width n ++ rest := by
  obtain ⟨d, ds, hpadded, hd⟩ := padded_eq_cons width n
  rw [hpadded, List.cons_append, skipBlanks_cons (isBlank_of_isDigit hd)]

end Text

/-! ### Parts of an instant -/

namespace TimeScan

variable {rest : List Char}

theorem literal_skipBlanks {c : Char} (hc : Text.isBlank c = false) :
    literal c (Text.skipBlanks (c :: rest)) = .ok ((), rest) := by
  rw [Text.skipBlanks_cons hc, literal, if_pos (beq_self_eq_true c)]

theorem numberWithin_skipBlanks {low high n : ℕ} (hlow : low ≤ n) (hhigh : n ≤ high)
    (hn : n < 100) :
    numberWithin 2 low high (Text.skipBlanks (Text.padded 2 n ++ rest)) = .ok (n, rest) := by
  rw [Text.skipBlanks_padded, numberWithin_padded hlow hhigh hn]

/-- A point and digits behind it, nine at most, are a fraction. -/
theorem fraction_padded {width n : ℕ} (hwidth : 0 < width) (hn : n < 10 ^ width)
    (hnine : width ≤ 9) (hrest : ∀ c ∈ rest.head?, c.isDigit = false) :
    fraction ('.' :: (Text.padded width n ++ rest)) = .ok (n * 10 ^ (9 - width), rest) := by
  have hlength := Text.length_padded hwidth hn
  have hmax : n ≤ maxNumber :=
    (hn.le.trans (Nat.pow_le_pow_right (by decide) hnine)).trans (by decide)
  have hdrop : rest.dropWhile Char.isDigit = rest := by
    cases rest with
    | nil => rfl
    | cons c rest => exact List.dropWhile_cons_of_neg (by simp [hrest c rfl])
  rw [fraction, Except.bind_eq_ok_iff]
  refine ⟨(n, rest), number_padded (hlength.trans_le hnine) (.inr hrest) hmax, ?_⟩
  simp [hlength, hdrop]

/-- **The fraction of a second is read back.** -/
theorem fraction_fractionText {nanos : ℕ} (hnanos : nanos < 10 ^ 9)
    (hrest : ∀ c ∈ rest.head?, c.isDigit = false ∧ c ≠ '.') :
    fraction (fractionText nanos ++ rest) = .ok (nanos, rest) := by
  have hdigits : ∀ c ∈ rest.head?, c.isDigit = false := fun c hc => (hrest c hc).1
  rw [fractionText]
  split
  · next hzero =>
    rw [hzero, List.nil_append]
    cases rest with
    | nil => rfl
    | cons c rest => simp [fraction, (hrest c rfl).2]
  · split
    · next hmilli =>
      have hwhole : nanos / 1000000 * 10 ^ (9 - 3) = nanos :=
        Nat.div_mul_cancel (Nat.dvd_of_mod_eq_zero hmilli)
      rw [List.cons_append, fraction_padded (by decide) (by omega) (by decide) hdigits, hwhole]
    · split
      · next hmicro =>
        have hwhole : nanos / 1000 * 10 ^ (9 - 6) = nanos :=
          Nat.div_mul_cancel (Nat.dvd_of_mod_eq_zero hmicro)
        rw [List.cons_append, fraction_padded (by decide) (by omega) (by decide) hdigits, hwhole]
      · rw [List.cons_append, fraction_padded (by decide) hnanos le_rfl hdigits, Nat.sub_self,
          pow_zero, mul_one]

end TimeScan

namespace Instant

/-! ### Date and time of day -/

namespace Written

/-- Whether the parts are within the bounds that they are read with, and in UTC. -/
structure InRange (w : Written) : Prop where
  natAbs_year_lt : w.date.year.natAbs < 10 ^ 6
  month_bounds : 1 ≤ w.date.month ∧ w.date.month ≤ 12
  day_bounds : 1 ≤ w.date.day ∧ w.date.day ≤ 31
  hour_le : w.hour ≤ 23
  minute_le : w.minute ≤ 59
  second_le : w.second ≤ 60
  nanos_lt : w.nanos < 10 ^ 9
  offset_eq : w.offset = 0

/-- A date and time of day in UTC as text. -/
def text (w : Written) : List Char :=
  w.date.text ++ 'T' ::
    (Text.padded 2 w.hour ++ ':' :: Text.padded 2 w.minute ++ ':' :: Text.padded 2 w.second ++
      fractionText w.nanos) ++ ['Z']

/-- **A date and time of day is read back.** -/
theorem ofText_text {w : Written} (h : w.InRange) : ofText w.text = .ok w := by
  obtain ⟨hyear, ⟨hmonth, hmonth'⟩, ⟨hday, hday'⟩, hhour, hminute, hsecond, hnanos, hoffset⟩ := h
  simp only [text, Civil.text, List.append_assoc, List.cons_append]
  -- Part by part, in the order of the text.
  refine Except.bind_eq_ok (TimeScan.year_yearText hyear (by simp)) ?_
  refine Except.bind_eq_ok (TimeScan.literal_skipBlanks (by decide)) ?_
  refine Except.bind_eq_ok (TimeScan.numberWithin_skipBlanks hmonth hmonth' (by omega)) ?_
  refine Except.bind_eq_ok (TimeScan.literal_skipBlanks (by decide)) ?_
  refine Except.bind_eq_ok (TimeScan.numberWithin_skipBlanks hday hday' (by omega)) ?_
  refine Except.bind_eq_ok rfl ?_
  refine Except.bind_eq_ok (TimeScan.numberWithin_skipBlanks (Nat.zero_le _) hhour (by omega)) ?_
  refine Except.bind_eq_ok (TimeScan.literal_skipBlanks (by decide)) ?_
  refine Except.bind_eq_ok (TimeScan.numberWithin_skipBlanks (Nat.zero_le _) hminute (by omega)) ?_
  refine Except.bind_eq_ok (TimeScan.literal_skipBlanks (by decide)) ?_
  refine Except.bind_eq_ok (TimeScan.numberWithin_skipBlanks (Nat.zero_le _) hsecond (by omega)) ?_
  refine Except.bind_eq_ok (TimeScan.fraction_fractionText hnanos (by simp)) ?_
  refine Except.bind_eq_ok_iff.mpr ⟨(0, []), rfl, ?_⟩
  rw [← hoffset]
  rfl

end Written

/-! ### Instants -/

/-- The date and time of day of an instant. -/
def written (t : Instant) : Written where
  date := t.date.civil
  hour := t.secondOfDay.toNat / 3600
  minute := t.secondOfDay.toNat / 60 % 60
  second := if t.isLeap then 60 else t.secondOfDay.toNat % 60
  nanos := if t.isLeap then t.nanos - 1000000000 else t.nanos
  offset := 0

variable (t : Instant)

/-- A leap second is written as second 60. -/
theorem written_of_isLeap (h : t.isLeap = true) :
    t.written.second = 60 ∧ t.written.nanos = t.nanos - 1000000000 :=
  ⟨if_pos h, if_pos h⟩

theorem written_of_not_isLeap (h : t.isLeap = false) :
    t.written.second = t.secondOfDay.toNat % 60 ∧ t.written.nanos = t.nanos :=
  have hleap : ¬ t.isLeap = true := by simp [h]
  ⟨if_neg hleap, if_neg hleap⟩

theorem text_written : t.written.text = t.text := by
  cases h : t.isLeap with
  | true =>
    obtain ⟨hsecond, hnanos⟩ := t.written_of_isLeap h
    rw [Written.text, text, h, if_pos rfl, hsecond, hnanos]
    rfl
  | false =>
    obtain ⟨hsecond, hnanos⟩ := t.written_of_not_isLeap h
    rw [Written.text, text, h, if_neg Bool.false_ne_true, hsecond, hnanos]
    rfl

theorem secondOfDay_bounds : 0 ≤ t.secondOfDay ∧ t.secondOfDay < 86400 := by
  rw [secondOfDay, secondsPerDay]
  omega

theorem inRange_written : t.written.InRange where
  natAbs_year_lt := t.date.natAbs_year_lt
  month_bounds := ⟨t.date.valid_civil.1, t.date.valid_civil.2.1⟩
  day_bounds :=
    ⟨t.date.valid_civil.2.2.1, t.date.valid_civil.2.2.2.trans (getD_monthLengths_le _ _)⟩
  hour_le := by
    have := t.secondOfDay_bounds
    show t.secondOfDay.toNat / 3600 ≤ 23
    omega
  minute_le := by
    show t.secondOfDay.toNat / 60 % 60 ≤ 59
    omega
  second_le := by
    show (if t.isLeap then 60 else t.secondOfDay.toNat % 60) ≤ 60
    split <;> omega
  nanos_lt := by
    have hlt := t.nanos_lt
    show (if t.isLeap then t.nanos - 1000000000 else t.nanos) < 10 ^ 9
    split
    · omega
    · next h =>
      rw [isLeap, decide_eq_true_eq] at h
      omega
  offset_eq := rfl

theorem ofParts?_eq_self : ofParts? t.seconds t.nanos = some t :=
  dif_pos ⟨⟨t.firstSecond_le, t.le_lastSecond⟩, t.nanos_lt, t.leap_at_end⟩

/-- A leap second is counted with second 59 again. -/
theorem second_nanos_written :
    (if t.written.second = 60 then (59, t.written.nanos + 1000000000)
      else (t.written.second, t.written.nanos)) = (t.secondOfDay.toNat % 60, t.nanos) := by
  have hbounds := t.secondOfDay_bounds
  cases h : t.isLeap with
  | true =>
    obtain ⟨hsecond, hnanos⟩ := t.written_of_isLeap h
    have hleap : 1000000000 ≤ t.nanos := of_decide_eq_true h
    have hlast := t.leap_at_end hleap
    rw [if_pos hsecond, hnanos, Nat.sub_add_cancel hleap, Prod.mk.injEq]
    refine ⟨?_, rfl⟩
    rw [secondOfDay, secondsPerDay] at hbounds ⊢
    omega
  | false =>
    obtain ⟨hsecond, hnanos⟩ := t.written_of_not_isLeap h
    rw [if_neg (by omega), hsecond, hnanos]

/-- The time of day is put together again. -/
theorem clock_written :
    t.date.day * secondsPerDay +
      (t.written.hour * 3600 + t.written.minute * 60 + t.secondOfDay.toNat % 60 : ℕ) =
        t.seconds := by
  have hbounds := t.secondOfDay_bounds
  have hday : t.date.day * secondsPerDay + t.secondOfDay = t.seconds :=
    Int.ediv_mul_add_emod _ _
  have hhour : t.written.hour = t.secondOfDay.toNat / 3600 := rfl
  have hminute : t.written.minute = t.secondOfDay.toNat / 60 % 60 := rfl
  rw [hhour, hminute]
  omega

/-- **A date and time of day leads back to its instant.** -/
theorem toInstant_written : t.written.toInstant = .ok t := by
  have hdate : Date.ofCivil? t.written.date = some t.date := t.date.ofCivil?_civil
  have hoffset : t.written.offset = 0 := rfl
  rw [Written.toInstant, hdate]
  simp only [t.second_nanos_written, hoffset, sub_zero, t.clock_written, t.ofParts?_eq_self]
  rfl

/-- **An instant is read back.** -/
theorem ofText_text : ofText t.text = .ok t := by
  rw [ofText, ← t.text_written, Written.ofText_text t.inRange_written]
  exact t.toInstant_written

/-- The middle of the leap second at the end of 2016. -/
example : text ⟨1483228799, 1500000000, by decide, by decide, by decide, by decide⟩ =
    "2016-12-31T23:59:60.500Z".toList := by decide

/-- The first instant whose year has five digits. -/
example : text ⟨253402300800, 0, by decide, by decide, by decide, by decide⟩ =
    "+10000-01-01T00:00:00Z".toList := by decide

end Instant

end Daybook
