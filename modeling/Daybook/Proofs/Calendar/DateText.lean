import Mathlib
import Daybook.Proofs.Calendar.Neighbours
import Daybook.Proofs.Calendar.Scan

/-!
# The texts of dates

A text writes a date (`Civil.Writes`) if it is made of the year, the month and the day with hyphens
between them, and with blanks in front of the three numbers and nowhere else.  These are the texts
that dates are read from, if the calendar has the date and its year is in range
(`Date.ofText_eq_ok_iff`), and the text that is written for a date is one of them
(`Civil.writes_text`).

With the words for dates relative to a given one this is all that is read as a date
(`Date.ofWords_reads_and_steps`).
-/

namespace Daybook

open Text (isBlank)

/-! ### What is written -/

/-- **Whether a text writes a date** of the calendar. -/
inductive Civil.Writes : (text : List Char) → Civil → Prop where
  | intro {before year before' month before'' day : List Char} {y : ℤ}
    (hbefore : ∀ c ∈ before, isBlank c = true) (hyear : TimeScan.WritesYear year y)
    (hbefore' : ∀ c ∈ before', isBlank c = true) (hmonth : TimeScan.IsNumber month)
    (hmonthTwo : month.length ≤ 2)
    (hbefore'' : ∀ c ∈ before'', isBlank c = true) (hday : TimeScan.IsNumber day)
    (hdayTwo : day.length ≤ 2) :
    Writes (before ++ (year ++ '-' :: (before' ++ (month ++ '-' :: (before'' ++ day)))))
      ⟨y, Text.naturalOf month, Text.naturalOf day⟩

/-- **The text of a date writes the date.** -/
theorem Civil.writes_text {c : Civil} (h : c.Valid) : Writes c.text c := by
  have hmonth : (Text.padded 2 c.month).length = 2 :=
    Text.length_padded (by decide) (h.2.1.trans_lt (by decide))
  have hday : (Text.padded 2 c.day).length = 2 :=
    Text.length_padded (by decide)
      ((h.2.2.2.trans (getD_monthLengths_le _ _)).trans_lt (by decide))
  have hblanks : ∀ c ∈ ([] : List Char), isBlank c = true := List.forall_mem_nil _
  have hwrites := Writes.intro hblanks (TimeScan.writesYear_yearText c.year) hblanks
    (TimeScan.isNumber_padded 2 c.month) hmonth.le hblanks (TimeScan.isNumber_padded 2 c.day)
    hday.le
  rw [Text.naturalOf_padded, Text.naturalOf_padded] at hwrites
  simpa [text] using hwrites

/-! ### What is read -/

namespace Date

/-- A date is read in its parts, up to the end of the text. -/
theorem ofText_eq_ok_iff_scan {cs : List Char} {d : Date} : ofText cs = .ok d ↔
    ∃ y m n cs₁ cs₂, TimeScan.year cs = .ok (y, '-' :: cs₁) ∧
      TimeScan.month cs₁ = .ok (m, '-' :: cs₂) ∧ TimeScan.day cs₂ = .ok (n, []) ∧
        d.civil = ⟨y, m, n⟩ := by
  constructor
  · intro h
    obtain ⟨⟨y, cs₁⟩, hyear, h⟩ := Except.bind_eq_ok_iff.mp h
    obtain ⟨⟨⟨⟩, cs₂⟩, hhyphen, h⟩ := Except.bind_eq_ok_iff.mp h
    obtain ⟨⟨m, cs₃⟩, hmonth, h⟩ := Except.bind_eq_ok_iff.mp h
    obtain ⟨⟨⟨⟩, cs₄⟩, hhyphen', h⟩ := Except.bind_eq_ok_iff.mp h
    obtain ⟨⟨n, cs₅⟩, hday, h⟩ := Except.bind_eq_ok_iff.mp h
    rw [TimeScan.literal_eq_ok_iff] at hhyphen hhyphen'
    dsimp only at h
    split_ifs at h with hend
    · cases h
    · split at h
      · next d' hd' =>
        cases h
        have hnil : cs₅ = [] := by simpa using hend
        rw [hhyphen] at hyear
        rw [hhyphen'] at hmonth
        rw [hnil] at hday
        exact ⟨y, m, n, cs₂, cs₄, hyear, hmonth, hday, ofCivil?_eq_some_iff.mp hd'⟩
      · cases h
  · rintro ⟨y, m, n, cs₁, cs₂, hyear, hmonth, hday, hd⟩
    refine Except.bind_eq_ok hyear ?_
    refine Except.bind_eq_ok (TimeScan.literal_eq_ok_iff.mpr rfl) ?_
    refine Except.bind_eq_ok hmonth ?_
    refine Except.bind_eq_ok (TimeScan.literal_eq_ok_iff.mpr rfl) ?_
    refine Except.bind_eq_ok hday ?_
    have hsome := ofCivil?_eq_some_iff.mpr hd
    simp [hsome]

/-- **A date is read from the texts that write it.** -/
theorem ofText_eq_ok_iff {cs : List Char} {d : Date} :
    ofText cs = .ok d ↔ Civil.Writes cs d.civil := by
  have hhyphen : ∀ rest : List Char, ∀ c ∈ ('-' :: rest).head?, c.isDigit = false := by simp
  have hnil : ∀ c ∈ ([] : List Char).head?, c.isDigit = false := by simp
  rw [ofText_eq_ok_iff_scan]
  constructor
  · rintro ⟨y, m, n, cs₁, cs₂, hyear, hmonth, hday, hd⟩
    obtain ⟨before, year, hbefore, hcs, hyear, -⟩ :=
      (TimeScan.year_eq_ok_iff (hhyphen cs₁)).mp hyear
    obtain ⟨before', month, hbefore', hcs₁, hmonth, hmonthTwo, hm, -⟩ :=
      (TimeScan.numberWithin_skipBlanks_eq_ok_iff (hhyphen cs₂) (by decide)).mp hmonth
    obtain ⟨before'', day, hbefore'', hcs₂, hday, hdayTwo, hn, -⟩ :=
      (TimeScan.numberWithin_skipBlanks_eq_ok_iff hnil (by decide)).mp hday
    rw [hd, hcs, hcs₁, hcs₂, List.append_nil, ← hm, ← hn]
    exact .intro hbefore hyear hbefore' hmonth hmonthTwo hbefore'' hday hdayTwo
  · intro h
    obtain ⟨hmonthLow, hmonthHigh, hdayLow, hdayHigh⟩ := d.valid_civil
    have hrange := TimeScan.yearInRange_of_natAbs_lt d.natAbs_year_lt
    have hdayHigh := hdayHigh.trans (getD_monthLengths_le _ _)
    generalize d.civil = c at *
    cases h with
    | @intro before year before' month before'' day y hbefore hyear hbefore' hmonth hmonthTwo
        hbefore'' hday hdayTwo =>
      refine ⟨y, Text.naturalOf month, Text.naturalOf day,
        before' ++ (month ++ '-' :: (before'' ++ day)), before'' ++ day, ?_, ?_, ?_, rfl⟩
      · exact (TimeScan.year_eq_ok_iff (hhyphen _)).mpr ⟨_, _, hbefore, rfl, hyear, hrange⟩
      · exact (TimeScan.numberWithin_skipBlanks_eq_ok_iff (hhyphen _) (by decide)).mpr
          ⟨_, _, hbefore', rfl, hmonth, hmonthTwo, rfl, hmonthLow, hmonthHigh⟩
      · exact (TimeScan.numberWithin_skipBlanks_eq_ok_iff hnil (by decide)).mpr
          ⟨_, _, hbefore'', by rw [List.append_nil], hday, hdayTwo, rfl, hdayLow, hdayHigh⟩

/-- **A date is read back.** -/
theorem ofText_text (d : Date) : ofText d.text = .ok d :=
  ofText_eq_ok_iff.mpr (Civil.writes_text d.valid_civil)

/-! ### Words -/

/-- The words for dates relative to a given one. -/
def words : List String :=
  ["today", "yesterday", "tomorrow"]

variable {s : String} {today d : Date}

/-- A text that is no word is read as a date. -/
theorem ofWords_of_notMem (h : s ∉ words) (today : Date) :
    ofWords today s = (ofText s.toList).mapError (.unreadable s) := by
  simp only [words, List.mem_cons, List.not_mem_nil, or_false, not_or] at h
  rw [ofWords, if_neg h.1, if_neg h.2.1, if_neg h.2.2]

/-- No word writes a date. -/
theorem notMem_words_of_ofText (h : ofText s.toList = .ok d) : s ∉ words := by
  simp only [words, List.mem_cons, List.not_mem_nil, or_false, not_or]
  refine ⟨?_, ?_, ?_⟩ <;> rintro rfl <;> cases h

theorem ofWords_tomorrow_eq_ok_iff : ofWords today "tomorrow" = .ok d ↔ today.next? = some d := by
  rw [ofWords, if_neg (by decide), if_neg (by decide), if_pos rfl]
  cases today.next? <;> simp

theorem ofWords_yesterday_eq_ok_iff :
    ofWords today "yesterday" = .ok d ↔ today.previous? = some d := by
  rw [ofWords, if_neg (by decide), if_pos rfl]
  cases today.previous? <;> simp

theorem ofWords_tomorrow_eq_error_iff {fault : WordFault} :
    ofWords today "tomorrow" = .error fault ↔
    fault = .outOfRange "tomorrow" ∧ today.next? = none := by
  rw [ofWords, if_neg (by decide), if_neg (by decide), if_pos rfl]
  cases today.next? <;> simp [eq_comm]

theorem ofWords_yesterday_eq_error_iff {fault : WordFault} :
    ofWords today "yesterday" = .error fault ↔
      fault = .outOfRange "yesterday" ∧ today.previous? = none := by
  rw [ofWords, if_neg (by decide), if_pos rfl]
  cases today.previous? <;> simp [eq_comm]

/-- **What is read as a date.**  The text of every date is, as this date.  A text that is no word is
read as the date of the calendar that it writes, and whichever day it is today makes no difference.
Tomorrow and yesterday are the day after and the day before, each is undone by the other, and they
fail just where the year of that day is out of range. -/
theorem ofWords_reads_and_steps (today : Date) :
    (∀ d : Date, ofWords today (String.ofList d.text) = .ok d) ∧
    (∀ s ∉ words, (∀ d, ofWords today s = .ok d ↔ Civil.Writes s.toList d.civil) ∧
      ∀ today', ofWords today' s = ofWords today s) ∧
    ofWords today "today" = .ok today ∧
    (∀ d, ofWords today "tomorrow" = .ok d ↔ d.civil = today.civil.dayAfter) ∧
    (∀ d, ofWords today "yesterday" = .ok d ↔ d.civil = today.civil.dayBefore) ∧
    (∀ d, ofWords today "tomorrow" = .ok d ↔ ofWords d "yesterday" = .ok today) ∧
    (∀ fault, ofWords today "tomorrow" = .error fault ↔
      fault = .outOfRange "tomorrow" ∧ 262142 < today.civil.dayAfter.year) ∧
    ∀ fault, ofWords today "yesterday" = .error fault ↔
      fault = .outOfRange "yesterday" ∧ today.civil.dayBefore.year < -262143 := by
  refine ⟨?_, ?_, rfl, ?_, ?_, ?_, ?_, ?_⟩
  · intro d
    have hread : ofText (String.ofList d.text).toList = .ok d := by
      rw [String.toList_ofList, d.ofText_text]
    rw [ofWords_of_notMem (notMem_words_of_ofText hread), hread]
    rfl
  · intro s hs
    refine ⟨fun d => ?_, fun today' => ?_⟩
    · rw [ofWords_of_notMem hs, Except.mapError_eq_ok_iff, ofText_eq_ok_iff]
    · rw [ofWords_of_notMem hs, ofWords_of_notMem hs]
  · intro d
    rw [ofWords_tomorrow_eq_ok_iff, next?_eq_some_iff_civil]
  · intro d
    rw [ofWords_yesterday_eq_ok_iff, previous?_eq_some_iff_civil]
  · intro d
    rw [ofWords_tomorrow_eq_ok_iff, ofWords_yesterday_eq_ok_iff, previous?_eq_some_iff]
  · intro fault
    rw [ofWords_tomorrow_eq_error_iff, next?_eq_none_iff]
  · intro fault
    rw [ofWords_yesterday_eq_error_iff, previous?_eq_none_iff]

end Date

end Daybook
