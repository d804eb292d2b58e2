import Mathlib
import Daybook.DayView.Text
import Daybook.Proofs.DayView.Blocks
import Daybook.Proofs.Text.Blank
import Daybook.Proofs.Text.Digits

/-!
# The grid of a day

A row of the grid is painted block by block, and a cell keeps the letter of the last block that is
drawn in it (`getElem?_paint`).  No letter is a blank, so the blanks that are taken off at the end
of a row are the ones it began with, and what the row shows can be read off its text (`RowShows`,
`rowShows_row`).

Rows follow each other slot by slot from the one in which the first block begins until all blocks
have ended (`getElem?_rowStartsFrom`).  So the grid shows which slots of which columns are taken,
and nothing else (`grid_shows_taken_slots`).
-/

namespace Daybook

/-! ### Times on the clock -/

/-- Whether a text tells the hour and the minute of a clock time, in two digits each. -/
def TellsTime (text : List Char) (clock : ℤ) : Prop :=
  ∃ hour minute, text = hour ++ ':' :: minute ∧ (hour.length = 2 ∧ minute.length = 2) ∧
    (∀ c ∈ hour ++ minute, c.isDigit = true) ∧
    (Text.naturalOf hour : ℤ) = clock / 3600 % 24 ∧ (Text.naturalOf minute : ℤ) = clock / 60 % 60

theorem tellsTime_clockMinuteText (clock : ℤ) : TellsTime (clockMinuteText clock) clock := by
  refine ⟨_, _, rfl, ⟨?_, ?_⟩, fun c hc => ?_, ?_, ?_⟩
  · exact Text.length_padded (by decide) (by rw [secondsPerDay]; omega)
  · exact Text.length_padded (by decide) (by omega)
  · rcases List.mem_append.mp hc with hc | hc
    · exact Text.isDigit_of_mem_padded hc
    · exact Text.isDigit_of_mem_padded hc
  · rw [Text.naturalOf_padded, secondsPerDay]
    omega
  · rw [Text.naturalOf_padded, secondsPerDay]
    omega

theorem TellsTime.length_eq {text : List Char} {clock : ℤ} (h : TellsTime text clock) :
    text.length = 5 := by
  obtain ⟨hour, minute, rfl, ⟨hhour, hminute⟩, -⟩ := h
  rw [List.length_append, List.length_cons, hhour, hminute]

namespace DayView

/-! ### Blocks and cells -/

/-- The seconds of the day that a block takes up in the grid.  It takes up one at least. -/
def Block.extent (b : Block) : Set ℤ :=
  Set.Ico b.offset (b.offset + max b.duration 1)

/-- Whether a block is drawn in the cell of a column and of the slot that begins at `top`: it is in
that column, and takes up some of the slot. -/
def Block.Marks (b : Block) (column : ℕ) (slot top : ℤ) : Prop :=
  b.column = column ∧ (b.extent ∩ Set.Ico top (top + slot)).Nonempty

variable {b : Block} {blocks : List Block} {column : ℕ} {slot top bottom last : ℤ}
  {cells : List Char}

theorem Block.marks_iff (hslot : 0 < slot) : b.Marks column slot top ↔
    b.column = column ∧ b.offset < top + slot ∧ top < b.offset + max b.duration 1 := by
  rw [Marks, extent, Set.Ico_inter_Ico, Set.nonempty_Ico, sup_lt_iff, lt_inf_iff, lt_inf_iff]
  omega

theorem Block.marks_iff_meets (hslot : 0 < slot) : b.Marks column slot top ↔
    b.column = column ∧ b.meets top (top + slot) = true := by
  rw [marks_iff hslot, meets, Block.bottom, decide_eq_true_eq]

theorem Block.isBlank_letter (b : Block) : Text.isBlank b.letter = false := by
  rw [letter]
  split <;> rfl

theorem Block.letter_ne_blank (b : Block) : b.letter ≠ ' ' := by
  intro hblank
  have hletter := b.isBlank_letter
  rw [hblank] at hletter
  exact absurd hletter (by decide)

/-! ### Painting -/

/-- The last block that is drawn in a cell. -/
def lastDrawn (blocks : List Block) (top bottom : ℤ) (column : ℕ) : Option Block :=
  blocks.reverse.find? fun b => decide (b.column = column) && b.meets top bottom

theorem lastDrawn_concat : lastDrawn (blocks ++ [b]) top bottom column =
    if b.column = column ∧ b.meets top bottom = true then some b
    else lastDrawn blocks top bottom column := by
  rw [lastDrawn, List.reverse_concat, List.find?_cons]
  by_cases hb : b.column = column ∧ b.meets top bottom = true
  · simp [hb]
  · have hskip : (decide (b.column = column) && b.meets top bottom) = false := by simpa using hb
    rw [if_neg hb, hskip, lastDrawn]

theorem isSome_lastDrawn_iff : (lastDrawn blocks top bottom column).isSome = true ↔
    ∃ b ∈ blocks, b.column = column ∧ b.meets top bottom = true := by
  simp [lastDrawn]

theorem lastDrawn_of_append {front rest : List Block}
    (hb : b.column = column ∧ b.meets top bottom = true)
    (hrest : ∀ q ∈ rest, ¬ (q.column = column ∧ q.meets top bottom = true)) :
    lastDrawn (front ++ b :: rest) top bottom column = some b := by
  rw [lastDrawn, List.find?_eq_some_iff_append]
  refine ⟨by simpa using hb, rest.reverse, front.reverse, by simp, fun q hq => ?_⟩
  rw [Bool.not_eq_true', ← Bool.not_eq_true, Bool.and_eq_true, decide_eq_true_eq]
  exact hrest q (List.mem_reverse.mp hq)

theorem paint_concat : paint (blocks ++ [b]) top bottom cells =
    if b.meets top bottom then (paint blocks top bottom cells).set b.column b.letter
    else paint blocks top bottom cells := by
  rw [paint, List.foldl_append]
  rfl

theorem length_paint : (paint blocks top bottom cells).length = cells.length := by
  induction blocks using List.reverseRecOn with
  | nil => rfl
  | append_singleton blocks b ih =>
    rw [paint_concat]
    split
    · rw [List.length_set, ih]
    · exact ih

/-- **A cell keeps the letter of the last block drawn in it**, or what was in it before. -/
theorem getElem?_paint (hcolumn : column < cells.length) :
    (paint blocks top bottom cells)[column]? =
      some (((lastDrawn blocks top bottom column).map Block.letter).getD cells[column]) := by
  induction blocks using List.reverseRecOn with
  | nil => exact List.getElem?_eq_getElem hcolumn
  | append_singleton blocks b ih =>
    rw [paint_concat, lastDrawn_concat]
    by_cases hmeets : b.meets top bottom = true
    · rw [if_pos hmeets, List.getElem?_set, length_paint, ih]
      by_cases hb : b.column = column
      · simp [hb, hmeets, hcolumn]
      · simp [hb]
    · rw [if_neg hmeets, ih, if_neg fun h => hmeets h.2]

/-- A row begins with spaces, so a cell in which nothing is drawn is left as a space. -/
theorem getD_paint_replicate {count : ℕ} (hcolumns : ∀ b ∈ blocks, b.column < count) :
    (paint blocks top bottom (List.replicate count ' ')).getD column ' ' =
      ((lastDrawn blocks top bottom column).map Block.letter).getD ' ' := by
  rcases lt_or_ge column count with hcolumn | hcolumn
  · rw [List.getD_eq_getElem?_getD, getElem?_paint (by simpa using hcolumn), Option.getD_some,
      List.getElem_replicate]
  · -- There is no cell, and no block either.
    have hnone : lastDrawn blocks top bottom column = none := by
      rw [← Option.not_isSome_iff_eq_none, isSome_lastDrawn_iff]
      rintro ⟨b, hb, rfl, -⟩
      exact (hcolumns b hb).not_ge hcolumn
    rw [hnone, List.getD_eq_default _ _ (by simpa [length_paint] using hcolumn)]
    rfl

theorem eq_space_of_mem_paint {count : ℕ} (hcolumns : ∀ b ∈ blocks, b.column < count) {c : Char}
    (hc : c ∈ paint blocks top bottom (List.replicate count ' ')) (hblank : Text.isBlank c = true) :
    c = ' ' := by
  obtain ⟨column, hcolumn, rfl⟩ := List.mem_iff_getElem.mp hc
  rw [← List.getD_eq_getElem _ ' ' hcolumn, getD_paint_replicate hcolumns] at hblank ⊢
  cases hlast : lastDrawn blocks top bottom column with
  | none => rfl
  | some b => simp [hlast, b.isBlank_letter] at hblank

/-! ### A row -/

/-- The cells of a row, behind the time and the bar. -/
def cellsOf (row : List Char) : List Char :=
  row.drop 7

/-- The cell of a column.  A row is filled up with spaces. -/
def cellOf (row : List Char) (column : ℕ) : Char :=
  (cellsOf row).getD column ' '

/-- **What a row shows** of the slot that begins at `top`. -/
structure RowShows (v : DayView) (z : Zone) (slot top : ℤ) (row : List Char) : Prop where
  /-- In front stands the time at which the slot begins. -/
  tellsTime : TellsTime (row.take 5) (z.clockAt (v.bounds.start.seconds + top))
  /-- A bar follows. -/
  bar : (row.drop 5).take 2 = [' ', '|']
  /-- No spaces are left at the end. -/
  getLast?_ne : (cellsOf row).getLast? ≠ some ' '
  /-- Those cells are filled in which some block is drawn. -/
  cellOf_ne_iff : ∀ column, cellOf row column ≠ ' ' ↔ ∃ b ∈ v.blocks, b.Marks column slot top
  /-- They have the letter of the last such block. -/
  cellOf_eq : ∀ front b rest, v.blocks = front ++ b :: rest → ∀ column, b.Marks column slot top →
    (∀ q ∈ rest, ¬ q.Marks column slot top) → cellOf row column = b.letter

variable {v : DayView} {z : Zone}

theorem cellsOf_row : cellsOf (v.row z slot top) =
    Text.trimEnd (paint v.blocks top (top + slot) (List.replicate v.columnCount ' ')) := by
  have htime := (tellsTime_clockMinuteText (z.clockAt (v.bounds.start.seconds + top))).length_eq
  rw [cellsOf, row, show 7 = 5 + 2 from rfl, ← List.drop_drop, List.drop_left' htime]
  rfl

theorem cellOf_row (hcolumns : ∀ b ∈ v.blocks, b.column < v.columnCount) :
    cellOf (v.row z slot top) column =
      ((lastDrawn v.blocks top (top + slot) column).map Block.letter).getD ' ' := by
  rw [cellOf, cellsOf_row, Text.getD_trimEnd fun _ => eq_space_of_mem_paint hcolumns,
    getD_paint_replicate hcolumns]

theorem rowShows_row (hslot : 0 < slot) (hcolumns : ∀ b ∈ v.blocks, b.column < v.columnCount) :
    RowShows v z slot top (v.row z slot top) where
  tellsTime := by
    have htime := tellsTime_clockMinuteText (z.clockAt (v.bounds.start.seconds + top))
    rw [row, List.take_left' htime.length_eq]
    exact htime
  bar := by
    have htime := tellsTime_clockMinuteText (z.clockAt (v.bounds.start.seconds + top))
    rw [row, List.drop_left' htime.length_eq]
    rfl
  getLast?_ne := by
    rw [cellsOf_row]
    exact Text.getLast?_trimEnd_ne _
  cellOf_ne_iff := by
    intro column
    simp only [Block.marks_iff_meets hslot, ← isSome_lastDrawn_iff, cellOf_row hcolumns]
    cases lastDrawn v.blocks top (top + slot) column with
    | none => simp
    | some b => simp [b.letter_ne_blank]
  cellOf_eq := by
    intro front b rest hblocks column hb hrest
    simp only [Block.marks_iff_meets hslot] at hb hrest
    rw [cellOf_row hcolumns, hblocks, lastDrawn_of_append hb hrest]
    rfl

/-! ### The rows -/

theorem rowStartsFrom_of_lt (hslot : 0 < slot) (h : top < last) :
    rowStartsFrom slot last top = top :: rowStartsFrom slot last (top + slot) := by
  rw [rowStartsFrom, if_pos ⟨hslot, h⟩]

theorem rowStartsFrom_of_le (h : last ≤ top) : rowStartsFrom slot last top = [] := by
  rw [rowStartsFrom, if_neg fun hlt => hlt.2.not_ge h]

/-- **Rows follow each other slot by slot**, as long as they begin before `last`. -/
theorem getElem?_rowStartsFrom (hslot : 0 < slot) (k : ℕ) :
    (rowStartsFrom slot last top)[k]? =
      if top + k * slot < last then some (top + k * slot) else none := by
  induction k generalizing top with
  | zero =>
    rw [Nat.cast_zero, zero_mul, add_zero]
    by_cases h : top < last
    · rw [rowStartsFrom_of_lt hslot h, if_pos h, List.getElem?_cons_zero]
    · rw [rowStartsFrom_of_le (not_lt.mp h), if_neg h, List.getElem?_nil]
  | succ k ih =>
    have hnext : top + (k + 1 : ℕ) * slot = top + slot + k * slot := by
      push_cast
      ring
    rw [hnext]
    by_cases h : top < last
    · rw [rowStartsFrom_of_lt hslot h, List.getElem?_cons_succ, ih]
    · have hle : 0 ≤ k * slot := mul_nonneg (Int.natCast_nonneg k) hslot.le
      rw [rowStartsFrom_of_le (not_lt.mp h), List.getElem?_nil, if_neg (by omega)]

/-- Where the row with an index begins, in seconds of the day, if the first block begins at
`first`. -/
def rowStart (first slot : ℤ) (k : ℕ) : ℤ :=
  (first / slot + k) * slot

variable {first : ℤ} {k : ℕ}

theorem rowStart_succ (first slot : ℤ) (k : ℕ) :
    rowStart first slot (k + 1) = rowStart first slot k + slot := by
  rw [rowStart, rowStart]
  push_cast
  ring

/-- A second that is not before the first block is in some row. -/
theorem exists_rowStart_le (hslot : 0 < slot) {second : ℤ} (h : first ≤ second) :
    ∃ k, rowStart first slot k ≤ second ∧ second < rowStart first slot k + slot := by
  have hle : first / slot ≤ second / slot := Int.ediv_le_ediv hslot h
  refine ⟨(second / slot - first / slot).toNat, ?_⟩
  rw [rowStart, Int.toNat_of_nonneg (by omega), add_sub_cancel, ← add_one_mul]
  exact ⟨Int.ediv_mul_le second hslot.ne', Int.lt_ediv_add_one_mul_self second hslot⟩

/-! ### The grid -/

/-- The seconds at which blocks begin. -/
def starts (v : DayView) : Set ℤ :=
  {s | ∃ b ∈ v.blocks, b.offset = s}

/-- The seconds at which blocks end in the grid. -/
def ends (v : DayView) : Set ℤ :=
  {s | ∃ b ∈ v.blocks, b.offset + max b.duration 1 = s}

theorem min?_offset_eq_some_iff :
    (v.blocks.map Block.offset).min? = some first ↔ IsLeast v.starts first := by
  rw [List.min?_eq_some_iff]
  simp [IsLeast, starts, lowerBounds]

theorem max?_bottom_eq_some_iff :
    (v.blocks.map Block.bottom).max? = some last ↔ IsGreatest v.ends last := by
  rw [List.max?_eq_some_iff]
  simp [IsGreatest, ends, upperBounds, Block.bottom]

theorem exists_isLeast_starts (hblocks : v.blocks ≠ []) : ∃ first, IsLeast v.starts first := by
  simp only [← min?_offset_eq_some_iff, ← Option.isSome_iff_exists]
  simpa using hblocks

theorem exists_isGreatest_ends (hblocks : v.blocks ≠ []) : ∃ last, IsGreatest v.ends last := by
  simp only [← max?_bottom_eq_some_iff, ← Option.isSome_iff_exists]
  simpa using hblocks

section Rows

variable (hslot : 0 < slot) (hfirst : IsLeast v.starts first) (hlast : IsGreatest v.ends last)
include hslot hfirst hlast

/-- **The rows of the grid** are those that begin before all blocks have ended. -/
theorem getElem?_grid (k : ℕ) : (v.grid z slot)[k]? =
    if rowStart first slot k < last then some (v.row z slot (rowStart first slot k)) else none := by
  rw [← min?_offset_eq_some_iff] at hfirst
  rw [← max?_bottom_eq_some_iff] at hlast
  have hstart : first / slot * slot + k * slot = rowStart first slot k := by
    rw [rowStart]
    ring
  rw [grid, rowStarts, hfirst, hlast, List.getElem?_map, getElem?_rowStartsFrom hslot, hstart,
    apply_ite (Option.map (v.row z slot)), Option.map_some, Option.map_none]

theorem lt_length_grid_iff (k : ℕ) : k < (v.grid z slot).length ↔ rowStart first slot k < last := by
  rw [← not_iff_not, not_lt, ← List.getElem?_eq_none_iff, getElem?_grid hslot hfirst hlast]
  simp

variable (hcolumns : ∀ b ∈ v.blocks, b.column < v.columnCount)
include hcolumns

theorem rowShows_of_getElem?_grid {row : List Char} (hrow : (v.grid z slot)[k]? = some row) :
    RowShows v z slot (rowStart first slot k) row := by
  rw [getElem?_grid hslot hfirst hlast] at hrow
  obtain ⟨-, hrow⟩ := Option.ite_none_right_eq_some.mp hrow
  rw [← Option.some_inj.mp hrow]
  exact rowShows_row hslot hcolumns

/-- **A second that a block takes up is in some row**, and the block is drawn there. -/
theorem exists_row_of_mem_extent {b : Block} (hb : b ∈ v.blocks) {second : ℤ}
    (hsecond : second ∈ b.extent) :
    ∃ k row, (v.grid z slot)[k]? = some row ∧ cellOf row b.column ≠ ' ' ∧
      second ∈ Set.Ico (rowStart first slot k) (rowStart first slot k + slot) := by
  have hstart : first ≤ b.offset := hfirst.2 ⟨b, hb, rfl⟩
  have hend : b.offset + max b.duration 1 ≤ last := hlast.2 ⟨b, hb, rfl⟩
  obtain ⟨k, hk⟩ := exists_rowStart_le hslot (hstart.trans hsecond.1)
  have hlength : k < (v.grid z slot).length := by
    rw [lt_length_grid_iff hslot hfirst hlast]
    exact hk.1.trans_lt (hsecond.2.trans_le hend)
  have hrow := List.getElem?_eq_getElem hlength
  have hshows := rowShows_of_getElem?_grid hslot hfirst hlast hcolumns hrow
  exact ⟨k, _, hrow, (hshows.cellOf_ne_iff _).mpr ⟨b, hb, rfl, second, hsecond, hk⟩, hk⟩

theorem exists_cellOf_head?_grid :
    ∃ row ∈ (v.grid z slot).head?, ∃ column, cellOf row column ≠ ' ' := by
  obtain ⟨b, hb, hoffset⟩ := hfirst.1
  have hsecond : first ∈ b.extent := ⟨hoffset.le, by omega⟩
  obtain ⟨k, row, hrow, hcell, hk⟩ :=
    exists_row_of_mem_extent hslot hfirst hlast hcolumns (z := z) hb hsecond
  -- No row before the first one holds the first second.
  have hzero : k = 0 := by
    have hle : first / slot + k ≤ first / slot := Int.le_ediv_of_mul_le hslot hk.1
    omega
  rw [hzero, ← List.head?_eq_getElem?] at hrow
  exact ⟨row, hrow, b.column, hcell⟩

theorem exists_cellOf_getLast?_grid :
    ∃ row ∈ (v.grid z slot).getLast?, ∃ column, cellOf row column ≠ ' ' := by
  obtain ⟨b, hb, hbottom⟩ := hlast.1
  have hsecond : last - 1 ∈ b.extent := ⟨by omega, by omega⟩
  obtain ⟨k, row, hrow, hcell, hk⟩ :=
    exists_row_of_mem_extent hslot hfirst hlast hcolumns (z := z) hb hsecond
  -- The row that holds the last second reaches to the end, so no other one follows.
  have hlength : (v.grid z slot).length = k + 1 := by
    have hlt := (List.getElem?_eq_some_iff.mp hrow).1
    have hnext := (lt_length_grid_iff hslot hfirst hlast (z := z) (k + 1)).not
    rw [rowStart_succ, not_lt, not_lt] at hnext
    have hle := hnext.mpr (Int.le_of_sub_one_lt hk.2)
    omega
  rw [← Nat.add_sub_cancel (n := k) (m := 1), ← hlength, ← List.getLast?_eq_getElem?] at hrow
  exact ⟨row, hrow, b.column, hcell⟩

end Rows

theorem column_lt_columnCount {d : Date} {least : Int64} {entries : List Entry}
    (hv : v ∈ build? d z least entries) : ∀ b ∈ v.blocks, b.column < v.columnCount := by
  obtain ⟨bounds, -, rfl⟩ := Option.map_eq_some_iff.mp hv
  exact fun b hb => (mem_blocks_ofBounds hb).2.2.2

theorem slotSeconds?_eq_some {minutes : Int64} (hslot : slot = max minutes.toInt 1 * 60)
    (hrange : slot ≤ Int64.maxValue.toInt) : slotSeconds? minutes = some slot := by
  rw [hslot] at hrange
  rw [slotSeconds?, if_pos hrange, hslot]

/-- **The grid shows the slots that are taken.**  Its rows begin slot by slot, from the slot in
which the first block begins, as long as some block has not ended.  A row shows the time at which
its slot begins, and in each column the letter of the last block that takes up some of the slot
there.  So all blocks are seen, and there is something to be seen in the first row and in the last
one. -/
theorem grid_shows_taken_slots {d : Date} {least : Int64} {entries : List Entry} {v : DayView}
    (hv : v ∈ build? d z least entries) (hblocks : v.blocks ≠ []) {minutes : Int64} {slot : ℤ}
    (hslot : slot = max minutes.toInt 1 * 60) (hrange : slot ≤ Int64.maxValue.toInt)
    (clocks : Zone) :
    slotSeconds? minutes = some slot ∧
    ∃ first last, IsLeast v.starts first ∧ IsGreatest v.ends last ∧
      (∀ k, k < (v.grid clocks slot).length ↔ rowStart first slot k < last) ∧
      (∀ k row, (v.grid clocks slot)[k]? = some row →
        RowShows v clocks slot (rowStart first slot k) row) ∧
      (∀ b ∈ v.blocks, ∃ row ∈ v.grid clocks slot, cellOf row b.column ≠ ' ') ∧
      (∃ row ∈ (v.grid clocks slot).head?, ∃ column, cellOf row column ≠ ' ') ∧
      ∃ row ∈ (v.grid clocks slot).getLast?, ∃ column, cellOf row column ≠ ' ' := by
  have hpos : 0 < slot := by omega
  have hcolumns := column_lt_columnCount hv
  obtain ⟨first, hfirst⟩ := exists_isLeast_starts hblocks
  obtain ⟨last, hlast⟩ := exists_isGreatest_ends hblocks
  refine ⟨slotSeconds?_eq_some hslot hrange, first, last, hfirst, hlast,
    lt_length_grid_iff hpos hfirst hlast, ?_, ?_, ?_, ?_⟩
  · intro k row hrow
    exact rowShows_of_getElem?_grid hpos hfirst hlast hcolumns hrow
  · intro b hb
    have hstart : b.offset ∈ b.extent := ⟨le_rfl, by omega⟩
    obtain ⟨k, row, hrow, hcell, -⟩ :=
      exists_row_of_mem_extent hpos hfirst hlast hcolumns hb hstart
    exact ⟨row, List.mem_of_getElem? hrow, hcell⟩
  · exact exists_cellOf_head?_grid hpos hfirst hlast hcolumns
  · exact exists_cellOf_getLast?_grid hpos hfirst hlast hcolumns

/-- An activity of forty minutes and at its end, in the same column, a plan that takes no time: in
the half hour that both take up part of, the grid shows the plan. -/
theorem grid_shows_taken_slots_overwritten :
    let d : Date := ⟨19849, by decide, by decide⟩
    let start := Instant.ofSeconds 1714989600 (by decide)
    let finish := Instant.ofSeconds 1714992000 (by decide)
    let e := entryBetween start finish
    let e' : Entry :=
      .plan ⟨⟨1, by decide⟩, ⟨1, by decide⟩, none, "", finish, finish, none, none⟩
    ∃ v ∈ build? d Zone.utc 0 [e, e'],
      v.blocks ≠ [] ∧ (1800 : ℤ) = max (30 : Int64).toInt 1 * 60 ∧
      (1800 : ℤ) ≤ Int64.maxValue.toInt ∧ slotSeconds? 30 = some 1800 ∧
      (v.grid Zone.utc 1800).length = 2 ∧
      (∀ row ∈ (v.grid Zone.utc 1800)[0]?, cellOf row 0 = 'a') ∧
      ∀ row ∈ (v.grid Zone.utc 1800)[1]?, cellOf row 0 = 'p' := by
  intro d start finish e e'
  have hblocks : (build? d Zone.utc 0 [e, e']).map DayView.blocks =
      some [⟨e, 0, 36000, 2400⟩, ⟨e', 0, 38400, 0⟩] := by cbv
  obtain ⟨v, hv, hblocks⟩ := Option.map_eq_some_iff.mp hblocks
  have hne : v.blocks ≠ [] := by simp [hblocks]
  have hslot : (1800 : ℤ) = max (30 : Int64).toInt 1 * 60 := by decide
  have hrange : (1800 : ℤ) ≤ Int64.maxValue.toInt := by decide
  obtain ⟨hseconds, first, last, hfirst, hlast, hlength, hrows, -⟩ :=
    grid_shows_taken_slots hv hne hslot hrange Zone.utc
  obtain rfl : first = 36000 :=
    hfirst.unique (min?_offset_eq_some_iff.mp (by rw [hblocks]; rfl))
  obtain rfl : last = 38401 :=
    hlast.unique (max?_bottom_eq_some_iff.mp (by rw [hblocks]; rfl))
  refine ⟨v, hv, hne, hslot, hrange, hseconds, ?_, ?_, ?_⟩
  · have hone := (hlength 1).mpr (by decide)
    have htwo := (hlength 2).not.mpr (by decide)
    omega
  · intro row hrow
    refine (hrows 0 row hrow).cellOf_eq [] _ _ hblocks 0 ?_ fun q hq => ?_
    · exact (Block.marks_iff (by decide)).mpr (by decide)
    · rw [List.mem_singleton.mp hq, Block.marks_iff (by decide)]
      decide
  · intro row hrow
    refine (hrows 1 row hrow).cellOf_eq [_] _ [] hblocks 0 ?_ (by simp)
    exact (Block.marks_iff (by decide)).mpr (by decide)

end DayView

end Daybook
