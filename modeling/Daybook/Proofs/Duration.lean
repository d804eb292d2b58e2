import Mathlib
import Daybook.Duration
import Daybook.Proofs.Except
import Daybook.Proofs.Text.Blank
import Daybook.Proofs.Text.Digits

/-!
# The texts of durations

A text writes a duration (`Duration.Writes`) if it is made of ASCII digits and perhaps a unit, with
blanks in front, between the two and behind.  These are the texts that durations are read from, as
long as the seconds fit 64 bits (`Duration.ofText_eq_ok_iff_writes`).

Reading takes off the blanks at the ends first, so what it sees of a text is digits, blanks and a
unit without blanks around them (`writes_iff`).  It then goes by the digits of all scripts; neither
blanks nor units have any of these, so exactly the digits are taken (`takeWhile_digits`).
-/

namespace Daybook.Duration

open Text (isBlank isDecimalDigit)

/-! ### What is written -/

/-- The units as they are written, and the seconds of each.  A number without a unit is of
seconds. -/
def units : List (List Char × ℕ) :=
  [([], 1), (['s'], 1), (['m'], 60), (['h'], 3600)]

/-- **Whether a text writes a number of units** of the given seconds. -/
inductive Writes : (text : List Char) → (number seconds : ℕ) → Prop where
  | intro {before digits gap unit after : List Char} {seconds : ℕ}
    (hbefore : ∀ c ∈ before, isBlank c = true) (hne : digits ≠ [])
    (hdigits : ∀ d ∈ digits, d.isDigit = true) (hgap : ∀ c ∈ gap, isBlank c = true)
    (hunit : (unit, seconds) ∈ units) (hafter : ∀ c ∈ after, isBlank c = true) :
    Writes (before ++ (digits ++ (gap ++ (unit ++ after)))) (Text.naturalOf digits) seconds

variable {digits gap unit : List Char} {seconds : ℕ}

theorem exists_scale_iff : (∃ scale, Scale.ofText? unit = some scale ∧ scale.seconds = seconds) ↔
    (unit, seconds) ∈ units := by
  unfold Scale.ofText?
  split <;> simp_all [units, Scale.seconds, eq_comm]

/-- A unit is nothing or one letter. -/
theorem eq_nil_or_singleton_of_mem_units (h : (unit, seconds) ∈ units) :
    unit = [] ∨ ∃ c, unit = [c] ∧ isBlank c = false ∧ isDecimalDigit c = false := by
  simp only [units, List.mem_cons, Prod.mk.injEq, List.not_mem_nil, or_false] at h
  rcases h with ⟨rfl, -⟩ | ⟨rfl, -⟩ | ⟨rfl, -⟩ | ⟨rfl, -⟩
  · exact Or.inl rfl
  · exact Or.inr ⟨'s', rfl, by decide, by decide⟩
  · exact Or.inr ⟨'m', rfl, by decide, by decide⟩
  · exact Or.inr ⟨'h', rfl, by decide, by decide⟩

/-- **Blanks at the ends of a text are of no matter.** -/
theorem writes_iff {text : List Char} {number : ℕ} :
    Writes text number seconds ↔ ∃ digits gap unit,
      Text.trim text = digits ++ (gap ++ unit) ∧ digits ≠ [] ∧ (∀ d ∈ digits, d.isDigit = true) ∧
        (∀ c ∈ gap, isBlank c = true) ∧ (unit, seconds) ∈ units ∧
        Text.naturalOf digits = number := by
  constructor
  · rintro @⟨before, digits, gap, unit, after, seconds, hbefore, hne, hdigits, hgap, hunit, hafter⟩
    have hdigit : ∀ d ∈ digits, isBlank d = false :=
      fun d hd => Text.isBlank_of_isDigit (hdigits d hd)
    have hhead : ∀ rest, ∀ c ∈ (digits ++ rest).head?, isBlank c = false := by
      intro rest c hc
      rw [List.head?_append_of_ne_nil _ hne] at hc
      exact hdigit c (List.mem_of_mem_head? hc)
    -- Where there is no unit, the blanks that would be in front of it are at the end of the text.
    obtain rfl | ⟨u, rfl, hu, -⟩ := eq_nil_or_singleton_of_mem_units hunit
    · refine ⟨digits, [], [], ?_, hne, hdigits, List.forall_mem_nil _, hunit, rfl⟩
      have hend : ∀ c ∈ gap ++ after, isBlank c = true := List.forall_mem_append.mpr ⟨hgap, hafter⟩
      have htrim := Text.trim_append hbefore hend hne (by simpa using hhead [])
        fun c hc => hdigit c (List.mem_of_mem_getLast? hc)
      simpa using htrim
    · refine ⟨digits, gap, [u], ?_, hne, hdigits, hgap, hunit, rfl⟩
      have hlast : ∀ c ∈ (digits ++ (gap ++ [u])).getLast?, isBlank c = false := by
        rw [← List.append_assoc, List.getLast?_concat]
        simpa using hu
      have htrim := Text.trim_append hbefore hafter (by simp) (hhead _) hlast
      simpa using htrim
  · rintro ⟨digits, gap, unit, htrim, hne, hdigits, hgap, hunit, rfl⟩
    obtain ⟨before, after, hbefore, hafter, htext⟩ := Text.exists_eq_append_trim text
    rw [htext, htrim, List.append_assoc, List.append_assoc]
    exact .intro hbefore hne hdigits hgap hunit hafter

/-! ### What is read -/

/-- **The value of digits**, if all of them are ASCII digits and it is not too great. -/
theorem valueOf_eq_ok_iff {value n : ℕ} {ds : List Char} (hvalue : value ≤ maxSeconds) :
    valueOf value ds = .ok n ↔
      (∀ d ∈ ds, d.isDigit = true) ∧ n = Nat.ofDigitChars 10 ds value ∧ n ≤ maxSeconds := by
  induction ds generalizing value with
  | nil =>
    rw [valueOf, Except.ok.injEq, Nat.ofDigitChars_nil]
    constructor
    · rintro rfl
      exact ⟨List.forall_mem_nil _, rfl, hvalue⟩
    · rintro ⟨-, rfl, -⟩
      rfl
  | cons d ds ih =>
    rw [valueOf, Nat.ofDigitChars_cons, mul_comm 10, List.forall_mem_cons]
    dsimp only
    split_ifs with hd hlarge
    · -- A value that is too great does not get smaller by more digits.
      have hle := Text.le_ofDigitChars ds (value * 10 + (d.toNat - '0'.toNat))
      refine iff_of_false (by simp) ?_
      rintro ⟨-, rfl, hmax⟩
      exact absurd (hlarge.trans_le hle) (not_lt.mpr hmax)
    · simpa [hd] using ih (not_lt.mp hlarge)
    · simp [hd]

/-- The digits end where the blanks or the unit begin. -/
theorem takeWhile_digits (hdigits : ∀ d ∈ digits, d.isDigit = true)
    (hgap : ∀ c ∈ gap, isBlank c = true) (hunit : (unit, seconds) ∈ units) :
    (digits ++ (gap ++ unit)).takeWhile isDecimalDigit = digits ∧
      (digits ++ (gap ++ unit)).dropWhile isDecimalDigit = gap ++ unit := by
  have hdecimal : ∀ d ∈ digits, isDecimalDigit d = true :=
    fun d hd => Text.isDecimalDigit_of_isDigit (hdigits d hd)
  have hrest : ∀ c ∈ gap ++ unit, isDecimalDigit c = false := by
    rw [List.forall_mem_append]
    refine ⟨fun c hc => Text.isDecimalDigit_of_isBlank (hgap c hc), ?_⟩
    obtain rfl | ⟨u, rfl, -, hu⟩ := eq_nil_or_singleton_of_mem_units hunit
    · exact List.forall_mem_nil _
    · exact List.forall_mem_singleton.mpr hu
  rw [List.takeWhile_append_of_pos hdecimal, List.dropWhile_append_of_pos hdecimal]
  cases hfront : gap ++ unit with
  | nil => simp
  | cons c cs =>
    have hc : isDecimalDigit c = false := hrest c (by simp [hfront])
    simp [hc]

/-- What stands behind the blanks is the unit. -/
theorem skipBlanks_gap_unit (hgap : ∀ c ∈ gap, isBlank c = true) (hunit : (unit, seconds) ∈ units) :
    Text.skipBlanks (gap ++ unit) = unit := by
  rw [Text.skipBlanks_append hgap]
  obtain rfl | ⟨u, rfl, hu, -⟩ := eq_nil_or_singleton_of_mem_units hunit
  · rfl
  · exact Text.skipBlanks_eq_self (by simpa using hu)

/-- **A text is read as the duration that it writes**, if the seconds are not too many. -/
theorem ofText_eq_ok_iff {text : String} {v : Int64} : ofText text = .ok v ↔
    ∃ number seconds, Writes text.toList number seconds ∧ number * seconds ≤ maxSeconds ∧
      Int64.ofNat (number * seconds) = v := by
  simp only [writes_iff]
  constructor
  · intro h
    unfold ofText at h
    dsimp only at h
    split at h
    · next scale hscale =>
      split at h
      · cases h
      · next hne =>
        obtain ⟨number, hnumber, h⟩ := Except.bind_eq_ok_iff.mp h
        obtain ⟨hdigits, rfl, -⟩ := (valueOf_eq_ok_iff (Nat.zero_le _)).mp hnumber
        split at h
        · next hmax =>
          obtain ⟨gap, hgap, hrest⟩ := Text.exists_eq_append_skipBlanks
            ((Text.trim text.toList).dropWhile isDecimalDigit)
          have hunit := exists_scale_iff.mp ⟨scale, hscale, rfl⟩
          refine ⟨_, scale.seconds, ⟨_, gap, _, ?_, by simpa using hne, hdigits, hgap, hunit, rfl⟩,
            hmax, Except.pure_eq_ok_iff.mp h⟩
          rw [← hrest, List.takeWhile_append_dropWhile]
        · cases h
    · cases h
  · rintro ⟨_, seconds, ⟨digits, gap, unit, htrim, hne, hdigits, hgap, hunit, rfl⟩, hmax, rfl⟩
    obtain ⟨htake, hdrop⟩ := takeWhile_digits hdigits hgap hunit
    have hskip := skipBlanks_gap_unit hgap hunit
    obtain ⟨scale, hscale, rfl⟩ := exists_scale_iff.mpr hunit
    have hone : 1 ≤ scale.seconds := by cases scale <;> decide
    have hnumber : valueOf 0 digits = .ok (Text.naturalOf digits) := by
      rw [valueOf_eq_ok_iff (Nat.zero_le _)]
      exact ⟨hdigits, rfl, (Nat.le_mul_of_pos_right _ hone).trans hmax⟩
    unfold ofText
    dsimp only
    rw [htrim, htake, hdrop, hskip, hscale]
    dsimp only
    rw [if_neg (by simpa using hne), hnumber]
    exact if_pos hmax

theorem toInt_maxValue : Int64.maxValue.toInt = (maxSeconds : ℤ) := by
  decide

/-- The seconds of what is read, as they would be counted without a bound. -/
theorem ofText_eq_ok_iff_toInt {text : String} {v : Int64} : ofText text = .ok v ↔
    ∃ number seconds : ℕ, Writes text.toList number seconds ∧
      number * seconds ≤ Int64.maxValue.toInt ∧ v.toInt = number * seconds := by
  rw [ofText_eq_ok_iff, toInt_maxValue]
  refine exists₂_congr fun number seconds => and_congr_right fun _ => ?_
  rw [← Nat.cast_mul, Nat.cast_le]
  refine and_congr_right fun hle => ?_
  have hlt : number * seconds < 2 ^ 63 := Nat.lt_of_le_pred (by decide) hle
  rw [← Int64.toInt_inj, Int64.toInt_ofNat_of_lt hlt, eq_comm]

/-- **Durations are read from the texts that write one** and whose seconds fit 64 bits, and from no
others.  What is read is the number of seconds, and so it is never negative. -/
theorem ofText_eq_ok_iff_writes (text : String) :
    (∀ v, ofText text = .ok v ↔
      ∃ number seconds : ℕ, Writes text.toList number seconds ∧
        number * seconds ≤ Int64.maxValue.toInt ∧ v.toInt = number * seconds) ∧
    ((∃ fault, ofText text = .error fault) ↔
      ¬ ∃ number seconds : ℕ, Writes text.toList number seconds ∧
        number * seconds ≤ Int64.maxValue.toInt) ∧
    ∀ v, ofText text = .ok v → 0 ≤ v.toInt := by
  refine ⟨fun v => ofText_eq_ok_iff_toInt, ?_, ?_⟩
  · rw [Except.exists_eq_error_iff]
    refine not_congr ?_
    constructor
    · rintro ⟨v, h⟩
      obtain ⟨number, seconds, hwrites, hle, -⟩ := ofText_eq_ok_iff_toInt.mp h
      exact ⟨number, seconds, hwrites, hle⟩
    · rintro ⟨number, seconds, hwrites, hle⟩
      rw [toInt_maxValue, ← Nat.cast_mul, Nat.cast_le] at hle
      exact ⟨_, ofText_eq_ok_iff.mpr ⟨number, seconds, hwrites, hle, rfl⟩⟩
  · intro v h
    obtain ⟨number, seconds, -, -, hv⟩ := ofText_eq_ok_iff_toInt.mp h
    rw [hv]
    positivity

end Daybook.Duration
