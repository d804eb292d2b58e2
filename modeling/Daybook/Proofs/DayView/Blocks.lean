import Mathlib
import Daybook.Proofs.Calendar.Difference
import Daybook.Proofs.DayView.Selection

/-!
# The blocks of a view

A block is an entry that lies within the day, moved to the start of the day and put into the column
that packing gives to its box (`blocks_ofBounds`).

All of it is counted in whole seconds: a block starts with the second in which its entry does, and
is as long as the entry without the part of a second that is left over.  Blocks of one column do not
overlap then (`pairwise_apart`), and a block does not leave its day (`blocks_within_day`): a leap
second can make it a second longer than by the clock, but its entry ends a second before the day at
the latest.
-/

namespace Daybook

/-! ### The box of an entry -/

namespace Entry

/-- Seconds of an instant fit 64 bits. -/
theorem toInt_start_box (e : Entry) : e.box.start.toInt = e.start.seconds := by
  have hfirst := e.start.firstSecond_le
  have hlast := e.start.le_lastSecond
  simp only [Instant.firstSecond, Instant.lastSecond, Date.firstDay, Date.lastDay,
    secondsPerDay] at hfirst hlast
  exact Int64.toInt_ofInt_of_le (by omega) (by omega)

/-- So do the seconds between two instants. -/
theorem toInt_duration_box (e : Entry) : e.box.duration.toInt = e.duration := by
  have hcut := abs_le.mp (Instant.abs_secondsSince_sub_le e.finish e.start)
  have hfirst := e.start.firstSecond_le
  have hlast := e.start.le_lastSecond
  have hfirst' := e.finish.firstSecond_le
  have hlast' := e.finish.le_lastSecond
  simp only [Instant.firstSecond, Instant.lastSecond, Date.firstDay, Date.lastDay,
    secondsPerDay] at hfirst hlast hfirst' hlast'
  rw [box, duration]
  exact Int64.toInt_ofInt_of_le (by omega) (by omega)

theorem start_box_ne_maxValue (e : Entry) : e.box.start ≠ Int64.maxValue := by
  intro hmax
  have hlast := e.start.le_lastSecond
  rw [← toInt_start_box, hmax] at hlast
  exact absurd hlast (by decide)

theorem finish_box (least : Int64) (e : Entry) :
    e.box.finish least = e.start.seconds + max e.duration least.toInt := by
  rw [Box.finish, Box.height, toInt_start_box, toInt_duration_box]

end Entry

/-! ### The length of a day -/

theorem Zone.length_of_day? {z : Zone} {d : Date} {b : DayBounds} (h : z.day? d = some b) :
    b.length = b.finish.seconds - b.start.seconds :=
  Instant.secondsSince_of_nanos_eq_zero (nanos_of_day? h).2 (nanos_of_day? h).1

namespace DayView

/-! ### Blocks and their columns -/

/-- Whether one of two blocks, drawn with its height, ends before the other begins. -/
def Block.Apart (least : Int64) (p q : Block) : Prop :=
  p.offset + max p.duration least.toInt ≤ q.offset ∨
    q.offset + max q.duration least.toInt ≤ p.offset

variable {date : Date} {bounds : DayBounds} {least : Int64} {entries : List Entry} {b : Block}

/-- **The blocks of a view** are the entries within the day, each in the column of its box. -/
theorem blocks_ofBounds (date : Date) (bounds : DayBounds) (least : Int64) (entries : List Entry) :
    (ofBounds date bounds least entries).blocks =
      List.ofFn fun i : Fin (entries.filter bounds.holds).length =>
        Block.of bounds.start ((entries.filter bounds.holds).get i)
          (Packing.columnAt (Box.bottom least) least
            ((entries.filter bounds.holds).map Entry.box) i) := by
  apply List.ext_getElem
  · simp [ofBounds, Packing.length_columns_pack]
  · intro i hi hi'
    simp [ofBounds, pack, Packing.columns_packWith]

theorem mem_blocks_ofBounds (hb : b ∈ (ofBounds date bounds least entries).blocks) :
    (b.entry ∈ entries ∧ bounds.start ≤ b.entry.start ∧ b.entry.finish < bounds.finish) ∧
      b.offset = b.entry.start.seconds - bounds.start.seconds ∧ b.duration = b.entry.duration ∧
      b.column < (ofBounds date bounds least entries).columnCount := by
  rw [blocks_ofBounds, List.mem_ofFn] at hb
  obtain ⟨i, rfl⟩ := hb
  have hmem := List.get_mem (entries.filter bounds.holds) i
  rw [List.mem_filter, DayBounds.holds, decide_eq_true_eq] at hmem
  refine ⟨hmem, rfl, rfl, ?_⟩
  have hlength : (i : ℕ) < ((entries.filter bounds.holds).map Entry.box).length := by simp
  exact Packing.columnAt_lt_count (Box.bottom least) least _ ⟨i, hlength⟩

/-- **Blocks of one column do not overlap**, in whole seconds. -/
theorem pairwise_apart (date : Date) (bounds : DayBounds) (least : Int64) (entries : List Entry) :
    (ofBounds date bounds least entries).blocks.Pairwise fun p q =>
      p.column = q.column → p.Apart least q := by
  rw [blocks_ofBounds]
  generalize entries.filter bounds.holds = shown
  rw [List.pairwise_ofFn]
  intro i j hij hcolumn
  have hi : (i : ℕ) < (shown.map Entry.box).length := by simp
  have hj : (j : ℕ) < (shown.map Entry.box).length := by simp
  have hne : (⟨i, hi⟩ : Fin (shown.map Entry.box).length) ≠ ⟨j, hj⟩ := by
    simpa [Fin.ext_iff] using hij.ne
  have hends := Packing.finish_le_or_le hne hcolumn
    (by simpa using Entry.start_box_ne_maxValue _) (by simpa using Entry.start_box_ne_maxValue _)
  simp only [List.get_eq_getElem, List.getElem_map, Entry.finish_box,
    Entry.toInt_start_box] at hends
  simp only [Block.Apart, Block.of, List.get_eq_getElem]
  -- Both sides are moved by the start of the day.
  omega

/-! ### Blocks stay inside their day -/

/-- The part of the day before a block, exactly; `topFraction` is this quotient as a float. -/
def topRatio (v : DayView) (b : Block) : ℚ :=
  b.offset / v.length

/-- The part of the day that a block takes, exactly. -/
def heightRatio (v : DayView) (b : Block) : ℚ :=
  b.duration / v.length

/-- A block starts in its day and ends in it, even if it is given a second at least. -/
theorem within_day_of_mem_blocks {z : Zone} {d : Date} (hday : z.day? d = some bounds)
    (hb : b ∈ (ofBounds d bounds least entries).blocks) (hends : b.entry.start ≤ b.entry.finish) :
    0 ≤ b.offset ∧ 0 ≤ b.duration ∧ b.offset + max b.duration 1 ≤ bounds.length := by
  obtain ⟨⟨-, hstart, hfinish⟩, hoffset, hduration, -⟩ := mem_blocks_ofBounds hb
  obtain ⟨hnanos, hnanos'⟩ := Zone.nanos_of_day? hday
  rw [Instant.le_iff_seconds_le hnanos] at hstart
  rw [Instant.lt_iff_seconds_lt hnanos'] at hfinish
  have hnonneg : 0 ≤ b.entry.duration := Instant.secondsSince_nonneg hends
  -- The second that a leap second can add is made up for by the one before the end of the day.
  have hle : b.entry.duration ≤ b.entry.finish.seconds - b.entry.start.seconds + 1 :=
    Instant.secondsSince_le hends
  rw [Instant.le_iff] at hends
  rw [Zone.length_of_day? hday]
  omega

/-- Two stretches that fit into a day one after the other are parts of it that add up to one at
most. -/
theorem ratios_of_within {v : DayView} (hoffset : 0 ≤ b.offset) (hduration : 0 ≤ b.duration)
    (hsum : b.offset + b.duration ≤ v.length) (hlength : 0 < v.length) :
    (0 ≤ v.topRatio b ∧ v.topRatio b ≤ 1) ∧ (0 ≤ v.heightRatio b ∧ v.heightRatio b ≤ 1) ∧
      v.topRatio b + v.heightRatio b ≤ 1 := by
  have hlength' : (0 : ℚ) < v.length := by exact_mod_cast hlength
  have hsum' : (b.offset + b.duration : ℚ) ≤ v.length := by exact_mod_cast hsum
  have htop : 0 ≤ v.topRatio b := div_nonneg (by exact_mod_cast hoffset) hlength'.le
  have hheight : 0 ≤ v.heightRatio b := div_nonneg (by exact_mod_cast hduration) hlength'.le
  have hratios : v.topRatio b + v.heightRatio b ≤ 1 := by
    rw [topRatio, heightRatio, ← add_div]
    exact (div_le_one hlength').mpr hsum'
  exact ⟨⟨htop, by linarith⟩, ⟨hheight, by linarith⟩, hratios⟩

/-- **Blocks stay inside their day.** If no entry ends before it starts, each block starts in the
day and ends in it, as seconds and as parts of the day, whose length is never zero then; and its
column is one of those that are counted. -/
theorem blocks_within_day {z : Zone} {d : Date} {bounds : DayBounds}
    (hday : z.day? d = some bounds) (least : Int64) (entries : List Entry)
    (hentries : ∀ e ∈ entries, e.start ≤ e.finish) :
    ∃ v ∈ build? d z least entries, ∀ b ∈ v.blocks,
      (0 ≤ b.offset ∧ 0 ≤ b.duration ∧ b.offset + b.duration ≤ v.length) ∧
      b.column < v.columnCount ∧ 0 < v.length ∧
      (0 ≤ v.topRatio b ∧ v.topRatio b ≤ 1) ∧ (0 ≤ v.heightRatio b ∧ v.heightRatio b ≤ 1) ∧
      v.topRatio b + v.heightRatio b ≤ 1 := by
  refine ⟨ofBounds d bounds least entries, by rw [build?, hday]; rfl, fun b hb => ?_⟩
  obtain ⟨⟨he, -, -⟩, -, -, hcolumn⟩ := mem_blocks_ofBounds hb
  obtain ⟨hoffset, hduration, hmax⟩ := within_day_of_mem_blocks hday hb (hentries b.entry he)
  have hsum : b.offset + b.duration ≤ bounds.length := by omega
  have hlength : 0 < bounds.length := by omega
  exact ⟨⟨hoffset, hduration, hsum⟩, hcolumn, hlength,
    ratios_of_within hoffset hduration hsum hlength⟩

/-- The last second of a year with a leap second, and half of that one. -/
theorem blocks_within_day_leap_second :
    let d : Date := ⟨17166, by decide, by decide⟩
    let next : Date := ⟨17167, by decide, by decide⟩
    let start := Instant.ofSeconds 1483228799 (by decide)
    let finish : Instant := ⟨1483228799, 1500000000, by decide, by decide, by decide, by decide⟩
    let e := entryBetween start finish
    Zone.utc.day? d = some ⟨Instant.startOf d, Instant.startOf next⟩ ∧
      (∀ e' ∈ [e], e'.start ≤ e'.finish) ∧ Shows Zone.utc 0 [e] d e ∧
      ∃ v ∈ build? d Zone.utc 0 [e], ∀ b ∈ v.blocks,
        b.offset + b.duration ≤ v.length ∧ b.column < v.columnCount ∧
          v.topRatio b + v.heightRatio b ≤ 1 := by
  intro d next start finish e
  have hday : Zone.utc.day? d = some ⟨Instant.startOf d, Instant.startOf next⟩ := by decide
  have hends : ∀ e' ∈ [e], e'.start ≤ e'.finish := by decide
  obtain ⟨v, hv, hblocks⟩ := blocks_within_day hday 0 [e] hends
  refine ⟨hday, hends, shows_iff.mpr ⟨by decide, _, hday, by decide⟩, v, hv, fun b hb => ?_⟩
  obtain ⟨⟨-, -, hsum⟩, hcolumn, -, -, -, hratios⟩ := hblocks b hb
  exact ⟨hsum, hcolumn, hratios⟩

end DayView

end Daybook
