import Mathlib
import Daybook.Calendar.DateText
import Daybook.Proofs.Except
import Daybook.Proofs.Text.Blank
import Daybook.Proofs.Text.Digits

/-!
# What the readers of dates and times take

Each reader takes its part off the front of a text, and what it takes is known from what it gives: a
number is read from digits (`TimeScan.number_eq_ok_iff`), a year from digits with a sign or four at
most without one (`TimeScan.year_eq_ok_iff`), and blanks in front of them are passed over.  This
holds for parts that are not followed by a further digit.  A number with all the digits that there
is room for is read whatever follows it (`TimeScan.number_padded`).
-/

namespace Daybook

namespace TimeScan

variable {cs rest : List Char} {limit n : ℕ}

/-! ### Numbers -/

/-- Digits are read up to the limit, or up to the first character that is none. -/
theorem digits_append {ds : List Char} {value : ℕ}
    (hds : ∀ d ∈ ds, d.isDigit = true) (hlimit : ds.length ≤ limit)
    (hends : ds.length = limit ∨ ∀ c ∈ rest.head?, c.isDigit = false)
    (hmax : Nat.ofDigitChars 10 ds value ≤ maxNumber) :
    digits limit value (ds ++ rest) = .ok (Nat.ofDigitChars 10 ds value, rest) := by
  induction ds generalizing limit value with
  | nil =>
    cases limit with
    | zero => rfl
    | succ limit =>
      cases rest with
      | nil => rfl
      | cons c rest =>
        have hc : c.isDigit = false := (hends.resolve_left (by simp)) c rfl
        rw [List.nil_append, digits, hc]
        rfl
  | cons d ds ih =>
    obtain ⟨hd, hds⟩ := List.forall_mem_cons.mp hds
    cases limit with
    | zero => simp at hlimit
    | succ limit =>
      rw [Nat.ofDigitChars_cons, mul_comm] at hmax ⊢
      have hvalue : value * 10 + (d.toNat - '0'.toNat) ≤ maxNumber :=
        (Text.le_ofDigitChars ds _).trans hmax
      rw [List.cons_append, digits, if_pos hd, if_neg (not_lt.mpr hvalue)]
      exact ih hds (Nat.le_of_succ_le_succ hlimit) (hends.imp_left Nat.succ.inj) hmax

/-- What is read are digits, no more than the limit, and their value is given. -/
theorem exists_of_digits_eq_ok {value : ℕ} (hvalue : value ≤ maxNumber)
    (h : digits limit value cs = .ok (n, rest)) : ∃ ds, cs = ds ++ rest ∧
      (∀ d ∈ ds, d.isDigit = true) ∧ ds.length ≤ limit ∧ Nat.ofDigitChars 10 ds value = n ∧
        n ≤ maxNumber := by
  -- Where reading ends, nothing has been read.
  have hend : ∀ {limit value cs}, value ≤ maxNumber →
      (Except.ok (value, cs) : Except TimeFault _) = .ok (n, rest) → ∃ ds, cs = ds ++ rest ∧
        (∀ d ∈ ds, d.isDigit = true) ∧ ds.length ≤ limit ∧ Nat.ofDigitChars 10 ds value = n ∧
          n ≤ maxNumber := by
    intro limit value cs hvalue h
    cases h
    exact ⟨[], rfl, List.forall_mem_nil _, Nat.zero_le _, Nat.ofDigitChars_nil, hvalue⟩
  fun_induction digits limit value cs with
  | case1 value cs => exact hend hvalue h
  | case2 value limit => exact hend hvalue h
  | case3 value limit d cs hd value' hlarge => cases h
  | case4 value limit d cs hd value' hsmall ih =>
    obtain ⟨ds, rfl, hds, hlimit, hn, hmax⟩ := ih (not_lt.mp hsmall) h
    refine ⟨d :: ds, rfl, List.forall_mem_cons.mpr ⟨hd, hds⟩, Nat.succ_le_succ hlimit, ?_, hmax⟩
    rwa [Nat.ofDigitChars_cons, mul_comm]
  | case5 value limit d cs hd => exact hend hvalue h

/-- **Whether a text is a number**: ASCII digits, one at least. -/
structure IsNumber (ds : List Char) : Prop where
  ne_nil : ds ≠ []
  isDigit_of_mem : ∀ d ∈ ds, d.isDigit = true

theorem IsNumber.exists_eq_cons {ds : List Char} (h : IsNumber ds) :
    ∃ d ds', ds = d :: ds' ∧ d.isDigit = true := by
  obtain ⟨d, ds', rfl⟩ := List.exists_cons_of_ne_nil h.ne_nil
  exact ⟨d, ds', rfl, h.isDigit_of_mem d List.mem_cons_self⟩

theorem isNumber_padded (width n : ℕ) : IsNumber (Text.padded width n) :=
  ⟨Text.padded_ne_nil width n, fun _ hd => Text.isDigit_of_mem_padded hd⟩

/-- A number is read up to the limit, or up to the first character that is no digit. -/
theorem IsNumber.number_append {ds : List Char} (h : IsNumber ds) (hlimit : ds.length ≤ limit)
    (hends : ds.length = limit ∨ ∀ c ∈ rest.head?, c.isDigit = false)
    (hmax : Text.naturalOf ds ≤ maxNumber) :
    number limit (ds ++ rest) = .ok (Text.naturalOf ds, rest) := by
  have hdigits := digits_append h.isDigit_of_mem hlimit hends hmax
  obtain ⟨d, ds', rfl, hd⟩ := h.exists_eq_cons
  rw [List.cons_append, number, if_pos hd]
  exact hdigits

/-- **A number is read from digits**, if these are no more than the limit and the number is not too
great. -/
theorem number_eq_ok_iff (hrest : ∀ c ∈ rest.head?, c.isDigit = false) :
    number limit cs = .ok (n, rest) ↔ ∃ ds, cs = ds ++ rest ∧ IsNumber ds ∧ ds.length ≤ limit ∧
      Text.naturalOf ds = n ∧ n ≤ maxNumber := by
  constructor
  · intro h
    unfold number at h
    split at h
    · cases h
    · next c cs =>
      split at h
      · next hc =>
        obtain ⟨ds, hcs, hds, hlimit, hn, hmax⟩ := exists_of_digits_eq_ok (Nat.zero_le _) h
        refine ⟨ds, hcs, ⟨?_, hds⟩, hlimit, hn, hmax⟩
        -- If nothing had been read, a digit would follow.
        rintro rfl
        rw [List.nil_append] at hcs
        rw [hrest c (by rw [← hcs]; rfl)] at hc
        contradiction
      · cases h
  · rintro ⟨ds, rfl, hds, hlimit, rfl, hmax⟩
    exact hds.number_append hlimit (.inr hrest) hmax

/-- **A number with zeros on the left is read back.** -/
theorem number_padded {width : ℕ} (hlimit : (Text.padded width n).length ≤ limit)
    (hends : (Text.padded width n).length = limit ∨ ∀ c ∈ rest.head?, c.isDigit = false)
    (hmax : n ≤ maxNumber) : number limit (Text.padded width n ++ rest) = .ok (n, rest) := by
  have hvalue := Text.naturalOf_padded width n
  rw [(isNumber_padded width n).number_append hlimit hends (hvalue.trans_le hmax), hvalue]

variable {low high : ℕ}

/-- A number of two digits is read back, whatever follows it. -/
theorem numberWithin_padded (hlow : low ≤ n) (hhigh : n ≤ high)
    (hn : n < 100) : numberWithin 2 low high (Text.padded 2 n ++ rest) = .ok (n, rest) := by
  have hmax : n ≤ maxNumber := hn.le.trans (by decide)
  have hlength : (Text.padded 2 n).length = 2 := Text.length_padded (by decide) hn
  rw [numberWithin, number_padded hlength.le (.inl hlength) hmax]
  exact if_pos ⟨hlow, hhigh⟩

theorem numberWithin_eq_ok_iff : numberWithin limit low high cs = .ok (n, rest) ↔
    number limit cs = .ok (n, rest) ∧ low ≤ n ∧ n ≤ high := by
  rw [numberWithin, Except.bind_eq_ok_iff]
  constructor
  · rintro ⟨⟨n', rest'⟩, hnumber, h⟩
    dsimp only at h
    split at h
    · next hrange =>
      cases h
      exact ⟨hnumber, hrange⟩
    · cases h
  · rintro ⟨hnumber, hrange⟩
    exact ⟨_, hnumber, if_pos hrange⟩

/-! ### Blanks in front -/

/-- Blanks are passed over in front of a number. -/
theorem IsNumber.skipBlanks_eq_iff {ds : List Char} (h : IsNumber ds) :
    Text.skipBlanks cs = ds ++ rest ↔
      ∃ blanks, (∀ c ∈ blanks, Text.isBlank c = true) ∧ cs = blanks ++ (ds ++ rest) := by
  obtain ⟨d, ds', rfl, hd⟩ := h.exists_eq_cons
  exact Text.skipBlanks_eq_iff (by simpa using Text.isBlank_of_isDigit hd)

theorem numberWithin_skipBlanks_eq_ok_iff (hrest : ∀ c ∈ rest.head?, c.isDigit = false)
    (hhigh : high ≤ maxNumber) :
    numberWithin limit low high (Text.skipBlanks cs) = .ok (n, rest) ↔ ∃ blanks ds,
      (∀ c ∈ blanks, Text.isBlank c = true) ∧ cs = blanks ++ (ds ++ rest) ∧ IsNumber ds ∧
        ds.length ≤ limit ∧ Text.naturalOf ds = n ∧ low ≤ n ∧ n ≤ high := by
  rw [numberWithin_eq_ok_iff, number_eq_ok_iff hrest]
  constructor
  · rintro ⟨⟨ds, hskip, hds, hlimit, hn, -⟩, hrange⟩
    obtain ⟨blanks, hblanks, hcs⟩ := hds.skipBlanks_eq_iff.mp hskip
    exact ⟨blanks, ds, hblanks, hcs, hds, hlimit, hn, hrange⟩
  · rintro ⟨blanks, ds, hblanks, hcs, hds, hlimit, hn, hrange⟩
    have hskip := hds.skipBlanks_eq_iff.mpr ⟨blanks, hblanks, hcs⟩
    exact ⟨⟨ds, hskip, hds, hlimit, hn, hrange.2.trans hhigh⟩, hrange⟩

/-! ### Characters -/

theorem literal_eq_ok_iff {c : Char} : literal c cs = .ok ((), rest) ↔ cs = c :: rest := by
  unfold literal
  split
  · simp
  · split_ifs with h
    · simp [beq_iff_eq.mp h]
    · simp [mt beq_iff_eq.mpr h]

/-! ### Years -/

/-- **Whether a text writes a year**: four digits at most, or a sign and any number of digits. -/
inductive WritesYear : List Char → ℤ → Prop where
  | plain {ds : List Char} (h : IsNumber ds) (hlength : ds.length ≤ 4) :
    WritesYear ds (Text.naturalOf ds)
  | minus {ds : List Char} (h : IsNumber ds) : WritesYear ('-' :: ds) (-(Text.naturalOf ds : ℤ))
  | plus {ds : List Char} (h : IsNumber ds) : WritesYear ('+' :: ds) (Text.naturalOf ds)

theorem WritesYear.skipBlanks_eq_iff {text : List Char} {y : ℤ} (h : WritesYear text y) :
    Text.skipBlanks cs = text ++ rest ↔
      ∃ blanks, (∀ c ∈ blanks, Text.isBlank c = true) ∧ cs = blanks ++ (text ++ rest) := by
  cases h with
  | plain hds _ => exact hds.skipBlanks_eq_iff
  | minus _ => exact Text.skipBlanks_eq_iff (by simpa using by decide)
  | plus _ => exact Text.skipBlanks_eq_iff (by simpa using by decide)

/-- Whether a year is in the range that years are read in. -/
def YearInRange (y : ℤ) : Prop :=
  Int32.minValue.toInt ≤ y ∧ y ≤ Int32.maxValue.toInt

instance (y : ℤ) : Decidable (YearInRange y) :=
  inferInstanceAs (Decidable (_ ∧ _))

theorem YearInRange.natAbs_le {y : ℤ} (h : YearInRange y) : y.natAbs ≤ maxNumber := by
  have hmin : Int32.minValue.toInt = -2147483648 := by decide
  have hmax : Int32.maxValue.toInt = 2147483647 := by decide
  have hnumber : 2147483648 ≤ maxNumber := by decide
  rw [YearInRange] at h
  omega

/-- Years of six digits are in range. -/
theorem yearInRange_of_natAbs_lt {y : ℤ} (hy : y.natAbs < 10 ^ 6) : YearInRange y := by
  rw [YearInRange, show Int32.minValue.toInt = -2147483648 by decide,
    show Int32.maxValue.toInt = 2147483647 by decide]
  omega

/-- The number of a year, whatever its range. -/
def anyYear : Scan ℤ
  | '-' :: cs => do
    let (n, cs) ← number cs.length cs
    pure (-(n : ℤ), cs)
  | '+' :: cs => do
    let (n, cs) ← number cs.length cs
    pure ((n : ℤ), cs)
  | cs => do
    let (n, cs) ← number 4 cs
    pure ((n : ℤ), cs)

/-- A year is read as a number, and then its range is checked. -/
theorem year_eq_bind (cs : List Char) : year cs = (do
    let (y, cs) ← anyYear (Text.skipBlanks cs)
    if YearInRange y then pure (y, cs) else throw .outOfRange) := by
  rw [year]
  dsimp only
  split
  · next hskip =>
    rw [hskip, anyYear, bind_assoc]
    rfl
  · next hskip =>
    rw [hskip, anyYear, bind_assoc]
    rfl
  · next hminus hplus =>
    rw [anyYear.eq_3 _ hminus hplus, bind_assoc]
    rfl

theorem year_eq_ok_iff_anyYear {y : ℤ} :
    year cs = .ok (y, rest) ↔ anyYear (Text.skipBlanks cs) = .ok (y, rest) ∧ YearInRange y := by
  rw [year_eq_bind, Except.bind_eq_ok_iff]
  constructor
  · rintro ⟨⟨y', rest'⟩, hyear, h⟩
    dsimp only at h
    split_ifs at h with hrange
    cases h
    exact ⟨hyear, hrange⟩
  · rintro ⟨hyear, hrange⟩
    exact ⟨_, hyear, if_pos hrange⟩

/-- A number is read as a year of the form that its front has. -/
theorem anyYear_eq_ok_iff {y : ℤ} (hrest : ∀ c ∈ rest.head?, c.isDigit = false)
    (hrange : YearInRange y) :
    anyYear cs = .ok (y, rest) ↔ ∃ text, cs = text ++ rest ∧ WritesYear text y := by
  constructor
  · intro h
    unfold anyYear at h
    split at h <;> obtain ⟨⟨n, rest'⟩, hnumber, h⟩ := Except.bind_eq_ok_iff.mp h <;> cases h <;>
      obtain ⟨ds, rfl, hds, hlength, rfl, -⟩ := (number_eq_ok_iff hrest).mp hnumber
    · exact ⟨'-' :: ds, rfl, .minus hds⟩
    · exact ⟨'+' :: ds, rfl, .plus hds⟩
    · exact ⟨ds, rfl, .plain hds hlength⟩
  · rintro ⟨text, rfl, hwrites⟩
    have hmax := hrange.natAbs_le
    cases hwrites with
    | minus hds =>
      rw [Int.natAbs_neg, Int.natAbs_natCast] at hmax
      exact Except.bind_eq_ok (hds.number_append (by simp) (.inr hrest) hmax) rfl
    | plus hds =>
      rw [Int.natAbs_natCast] at hmax
      exact Except.bind_eq_ok (hds.number_append (by simp) (.inr hrest) hmax) rfl
    | plain hds hlength =>
      rw [Int.natAbs_natCast] at hmax
      have hnumber := hds.number_append hlength (.inr hrest) hmax
      -- A digit is no sign.
      obtain ⟨d, ds, rfl, hd⟩ := hds.exists_eq_cons
      rw [List.cons_append] at hnumber ⊢
      unfold anyYear
      split
      · next h =>
        cases h
        cases hd
      · next h =>
        cases h
        cases hd
      · exact Except.bind_eq_ok hnumber rfl

/-- **A year is read from its text**, with blanks in front of it. -/
theorem year_eq_ok_iff {y : ℤ} (hrest : ∀ c ∈ rest.head?, c.isDigit = false) :
    year cs = .ok (y, rest) ↔ ∃ blanks text, (∀ c ∈ blanks, Text.isBlank c = true) ∧
      cs = blanks ++ (text ++ rest) ∧ WritesYear text y ∧ YearInRange y := by
  rw [year_eq_ok_iff_anyYear]
  constructor
  · rintro ⟨hyear, hrange⟩
    obtain ⟨text, hskip, hwrites⟩ := (anyYear_eq_ok_iff hrest hrange).mp hyear
    obtain ⟨blanks, hblanks, hcs⟩ := hwrites.skipBlanks_eq_iff.mp hskip
    exact ⟨blanks, text, hblanks, hcs, hwrites, hrange⟩
  · rintro ⟨blanks, text, hblanks, hcs, hwrites, hrange⟩
    have hskip := hwrites.skipBlanks_eq_iff.mpr ⟨blanks, hblanks, hcs⟩
    exact ⟨(anyYear_eq_ok_iff hrest hrange).mpr ⟨text, hskip, hwrites⟩, hrange⟩

/-- A year is written as its text. -/
theorem writesYear_yearText (y : ℤ) : WritesYear (yearText y) y := by
  have hvalue := Text.naturalOf_padded 4 y.natAbs
  have hnumber := isNumber_padded 4 y.natAbs
  rw [yearText]
  split_ifs with hshort hneg
  · have hlength : (Text.padded 4 y.natAbs).length = 4 := Text.length_padded (by decide) (by omega)
    have hwrites := WritesYear.plain hnumber hlength.le
    rwa [hvalue, Int.natAbs_of_nonneg hshort.1] at hwrites
  · have hwrites := WritesYear.minus hnumber
    rwa [hvalue, Int.ofNat_natAbs_of_nonpos hneg.le, neg_neg] at hwrites
  · have hwrites := WritesYear.plus hnumber
    rwa [hvalue, Int.natAbs_of_nonneg (not_lt.mp hneg)] at hwrites

/-- **A year is read back**, with a sign or without one. -/
theorem year_yearText {y : ℤ} (hy : y.natAbs < 10 ^ 6)
    (hrest : ∀ c ∈ rest.head?, c.isDigit = false) : year (yearText y ++ rest) = .ok (y, rest) :=
  (year_eq_ok_iff hrest).mpr
    ⟨[], _, List.forall_mem_nil _, rfl, writesYear_yearText y, yearInRange_of_natAbs_lt hy⟩

end TimeScan

end Daybook
