import Mathlib
import Daybook.Proofs.DayView.Grid

/-!
# A grid without loss

When all blocks begin and end with slots, each of them fills the rows from its start to its end and
takes no part of any other slot (`Block.Aligned.marks_iff`).  Blocks of one column do not overlap
then in the grid either, since packing keeps them apart by their durations at least
(`pairwise_not_marks`).  So a cell belongs to one block and shows its letter, and which block is
painted first is of no matter (`aligned_blocks_fill_rows`).
-/

namespace Daybook.DayView

variable {v : DayView} {b : Block} {blocks : List Block} {column : ℕ} {slot top first last : ℤ}

/-! ### Blocks that begin and end with slots -/

/-- Whether a block begins with a slot and takes some whole slots. -/
structure Block.Aligned (slot : ℤ) (b : Block) : Prop where
  dvd_offset : slot ∣ b.offset
  dvd_duration : slot ∣ b.duration
  duration_pos : 0 < b.duration

theorem lt_add_iff_le_of_dvd {m n : ℤ} (hslot : 0 < slot) (hm : slot ∣ m) (hn : slot ∣ n) :
    m < n + slot ↔ m ≤ n := by
  obtain ⟨m, rfl⟩ := hm
  obtain ⟨n, rfl⟩ := hn
  rw [← mul_add_one, mul_lt_mul_iff_right₀ hslot, mul_le_mul_iff_right₀ hslot, Int.lt_add_one_iff]

/-- Such a block takes a slot as a whole or not at all. -/
theorem Block.Aligned.marks_iff (h : b.Aligned slot) (hslot : 0 < slot) (htop : slot ∣ top) :
    b.Marks column slot top ↔ b.column = column ∧ b.offset ≤ top ∧ top < b.offset + b.duration := by
  have hpos := h.duration_pos
  rw [Block.marks_iff hslot, lt_add_iff_le_of_dvd hslot h.dvd_offset htop, max_eq_left (by omega)]

theorem Block.Aligned.toNat_slots_mul (h : b.Aligned slot) (hslot : 0 < slot) :
    ((b.duration / slot).toNat : ℤ) * slot = b.duration := by
  rw [Int.toNat_of_nonneg (Int.ediv_nonneg h.duration_pos.le hslot.le),
    Int.ediv_mul_cancel h.dvd_duration]

theorem pairwise_apart_of_build? {z : Zone} {d : Date} {least : Int64} {entries : List Entry}
    (hv : v ∈ build? d z least entries) :
    v.blocks.Pairwise fun p q => p.column = q.column → p.Apart least q := by
  obtain ⟨bounds, -, rfl⟩ := Option.map_eq_some_iff.mp hv
  exact pairwise_apart d bounds least entries

/-- **No cell belongs to two blocks.** -/
theorem pairwise_not_marks {least : Int64} (hslot : 0 < slot)
    (haligned : ∀ b ∈ blocks, b.Aligned slot)
    (hapart : blocks.Pairwise fun p q => p.column = q.column → p.Apart least q) :
    blocks.Pairwise fun p q =>
      ∀ top, slot ∣ top → ∀ column, ¬ (p.Marks column slot top ∧ q.Marks column slot top) := by
  refine hapart.imp_of_mem ?_
  intro p q hp hq hapart top htop column
  rw [(haligned p hp).marks_iff hslot htop, (haligned q hq).marks_iff hslot htop]
  rintro ⟨⟨hcolumn, hstart, hend⟩, hcolumn', hstart', hend'⟩
  have hapart := hapart (hcolumn.trans hcolumn'.symm)
  rw [Block.Apart] at hapart
  omega

/-- A cell that does not belong to two blocks shows the letter of the one it belongs to. -/
theorem RowShows.cellOf_eq_of_pairwise {z : Zone} {row : List Char}
    (h : RowShows v z slot top row)
    (halone : v.blocks.Pairwise fun p q => ¬ (p.Marks column slot top ∧ q.Marks column slot top))
    (hb : b ∈ v.blocks) (hdrawn : b.Marks column slot top) : cellOf row column = b.letter := by
  obtain ⟨front, rest, hsplit⟩ := List.append_of_mem hb
  rw [hsplit, List.pairwise_append, List.pairwise_cons] at halone
  exact h.cellOf_eq front b rest hsplit column hdrawn fun q hq hdrawn' =>
    halone.2.1.1 q hq ⟨hdrawn, hdrawn'⟩

/-! ### Rows of blocks -/

theorem dvd_rowStart (first slot : ℤ) (k : ℕ) : slot ∣ rowStart first slot k :=
  dvd_mul_left ..

theorem rowStart_add (first slot : ℤ) (k n : ℕ) :
    rowStart first slot (k + n) = rowStart first slot k + n * slot := by
  rw [rowStart, rowStart]
  push_cast
  ring

theorem rowStart_strictMono (hslot : 0 < slot) : StrictMono (rowStart first slot) :=
  strictMono_nat_of_lt_succ fun k => by
    rw [rowStart_succ]
    omega

/-- A multiple of the slot that is not before the first block is the start of a row. -/
theorem exists_rowStart_eq (hslot : 0 < slot) {second : ℤ} (hdvd : slot ∣ second)
    (h : first ≤ second) : ∃ k, rowStart first slot k = second := by
  obtain ⟨k, hle, hlt⟩ := exists_rowStart_le hslot h
  rw [lt_add_iff_le_of_dvd hslot hdvd (dvd_rowStart ..)] at hlt
  exact ⟨k, le_antisymm hle hlt⟩

/-- **The rows of a block** in the grid: `n` rows, from the one with index `k` on. -/
structure FillsRows (v : DayView) (clocks : Zone) (slot first : ℤ) (b : Block) (k n : ℕ) :
    Prop where
  /-- The first of them is the row of its start. -/
  rowStart_eq : rowStart first slot k = b.offset
  /-- The grid has all of them. -/
  add_le_length : k + n ≤ (v.grid clocks slot).length
  /-- The block is drawn in these rows and in no others. -/
  marks_iff : ∀ l, b.Marks b.column slot (rowStart first slot l) ↔ k ≤ l ∧ l < k + n
  /-- They show its letter in its column. -/
  cellOf_eq : ∀ l row, k ≤ l → l < k + n → (v.grid clocks slot)[l]? = some row →
    cellOf row b.column = b.letter

theorem exists_fillsRows {clocks : Zone} (hslot : 0 < slot) (hfirst : IsLeast v.starts first)
    (hcolumns : ∀ b ∈ v.blocks, b.column < v.columnCount)
    (haligned : ∀ b ∈ v.blocks, b.Aligned slot)
    (halone : v.blocks.Pairwise fun p q =>
      ∀ top, slot ∣ top → ∀ column, ¬ (p.Marks column slot top ∧ q.Marks column slot top))
    (hb : b ∈ v.blocks) : ∃ k, FillsRows v clocks slot first b k (b.duration / slot).toNat := by
  obtain ⟨last, hlast⟩ := exists_isGreatest_ends (List.ne_nil_of_mem hb)
  have hblock := haligned b hb
  obtain ⟨k, hk⟩ := exists_rowStart_eq hslot hblock.dvd_offset (hfirst.2 ⟨b, hb, rfl⟩)
  have hduration := hblock.toNat_slots_mul hslot
  generalize (b.duration / slot).toNat = n at hduration
  -- The block ends where the row behind its rows begins.
  have hend : rowStart first slot (k + n) = b.offset + b.duration := by
    rw [rowStart_add, hk, hduration]
  have hmarks : ∀ l, b.Marks b.column slot (rowStart first slot l) ↔ k ≤ l ∧ l < k + n := by
    intro l
    rw [hblock.marks_iff hslot (dvd_rowStart ..), ← hend, ← hk,
      (rowStart_strictMono hslot).le_iff_le, (rowStart_strictMono hslot).lt_iff_lt]
    simp
  refine ⟨k, hk, ?_, hmarks, fun l row hkl hln hrow => ?_⟩
  · -- The grid goes on until the block has ended.
    by_contra hlength
    have hlt : rowStart first slot (v.grid clocks slot).length < rowStart first slot (k + n) :=
      rowStart_strictMono hslot (not_le.mp hlength)
    have hover := (lt_length_grid_iff hslot hfirst hlast (z := clocks) _).not.mp (lt_irrefl _)
    have hle : b.offset + max b.duration 1 ≤ last := hlast.2 ⟨b, hb, rfl⟩
    omega
  · have hshows := rowShows_of_getElem?_grid hslot hfirst hlast hcolumns hrow
    refine hshows.cellOf_eq_of_pairwise ?_ hb ((hmarks l).mpr ⟨hkl, hln⟩)
    exact halone.imp fun h => h _ (dvd_rowStart ..) b.column

/-- **On aligned days the grid loses nothing.**  If all blocks begin with a slot and take whole
slots, each of them is drawn in as many rows as it takes slots, from the row of its start on, in its
column and with its letter; and no cell belongs to two of them. -/
theorem aligned_blocks_fill_rows {z : Zone} {d : Date} {least : Int64} {entries : List Entry}
    (hv : v ∈ build? d z least entries) {minutes : Int64}
    (hslot : slot = max minutes.toInt 1 * 60) (hrange : slot ≤ Int64.maxValue.toInt)
    (haligned : ∀ b ∈ v.blocks, b.Aligned slot) (clocks : Zone) :
    slotSeconds? minutes = some slot ∧
    (v.blocks ≠ [] → ∃ first, IsLeast v.starts first ∧
      (∀ l row, (v.grid clocks slot)[l]? = some row →
        RowShows v clocks slot (rowStart first slot l) row) ∧
      (∀ b ∈ v.blocks, ∃ k, FillsRows v clocks slot first b k (b.duration / slot).toNat) ∧
      v.blocks.Pairwise fun p q => ∀ l column,
        ¬ (p.Marks column slot (rowStart first slot l) ∧
          q.Marks column slot (rowStart first slot l))) := by
  have hpos : 0 < slot := by omega
  have hcolumns := column_lt_columnCount hv
  have halone := pairwise_not_marks hpos haligned (pairwise_apart_of_build? hv)
  refine ⟨slotSeconds?_eq_some hslot hrange, fun hblocks => ?_⟩
  obtain ⟨first, hfirst⟩ := exists_isLeast_starts hblocks
  obtain ⟨last, hlast⟩ := exists_isGreatest_ends hblocks
  refine ⟨first, hfirst, fun l row hrow => ?_, fun b hb => ?_, halone.imp fun h l column => ?_⟩
  · exact rowShows_of_getElem?_grid hpos hfirst hlast hcolumns hrow
  · exact exists_fillsRows hpos hfirst hcolumns haligned halone hb
  · exact h _ (dvd_rowStart ..) column

/-- An hour, a plan for another one that begins halfway through it, and half an hour behind the
first one: the third half hour has an activity and the plan side by side. -/
theorem aligned_blocks_fill_rows_half_hours :
    let d : Date := ⟨19849, by decide, by decide⟩
    let plan (start finish : Instant) : Entry :=
      .plan ⟨⟨1, by decide⟩, ⟨1, by decide⟩, none, "", start, finish, none, none⟩
    let e := entryBetween (.ofSeconds 1714989600 (by decide)) (.ofSeconds 1714993200 (by decide))
    let e' := plan (.ofSeconds 1714991400 (by decide)) (.ofSeconds 1714995000 (by decide))
    let e'' := entryBetween (.ofSeconds 1714993200 (by decide)) (.ofSeconds 1714995000 (by decide))
    ∃ v ∈ build? d Zone.utc 0 [e, e', e''],
      (∀ b ∈ v.blocks, b.Aligned 1800) ∧ (1800 : ℤ) = max (30 : Int64).toInt 1 * 60 ∧
      (1800 : ℤ) ≤ Int64.maxValue.toInt ∧ slotSeconds? 30 = some 1800 ∧
      3 ≤ (v.grid Zone.utc 1800).length ∧
      ∀ row ∈ (v.grid Zone.utc 1800)[2]?, cellOf row 0 = 'a' ∧ cellOf row 1 = 'p' := by
  intro d plan e e' e''
  have hblocks : (build? d Zone.utc 0 [e, e', e'']).map DayView.blocks =
      some [⟨e, 0, 36000, 3600⟩, ⟨e', 1, 37800, 3600⟩, ⟨e'', 0, 39600, 1800⟩] := by cbv
  obtain ⟨v, hv, hblocks⟩ := Option.map_eq_some_iff.mp hblocks
  have haligned : ∀ b ∈ v.blocks, b.Aligned 1800 := by
    rw [hblocks]
    simp only [List.forall_mem_cons]
    exact ⟨⟨by decide, by decide, by decide⟩, ⟨by decide, by decide, by decide⟩,
      ⟨by decide, by decide, by decide⟩, by simp⟩
  have hslot : (1800 : ℤ) = max (30 : Int64).toInt 1 * 60 := by decide
  have hrange : (1800 : ℤ) ≤ Int64.maxValue.toInt := by decide
  obtain ⟨hseconds, hgrid⟩ := aligned_blocks_fill_rows hv hslot hrange haligned Zone.utc
  obtain ⟨first, hfirst, -, hfills, -⟩ := hgrid (by simp [hblocks])
  obtain rfl : first = 36000 :=
    hfirst.unique (min?_offset_eq_some_iff.mp (by rw [hblocks]; rfl))
  -- The second block fills the rows 1 and 2, and the third one the row 2.
  obtain ⟨k', hplan⟩ := hfills ⟨e', 1, 37800, 3600⟩ (by simp [hblocks])
  obtain ⟨k'', hactivity⟩ := hfills ⟨e'', 0, 39600, 1800⟩ (by simp [hblocks])
  obtain rfl : k' = 1 := (rowStart_strictMono (by decide)).injective hplan.rowStart_eq
  obtain rfl : k'' = 2 := (rowStart_strictMono (by decide)).injective hactivity.rowStart_eq
  refine ⟨v, hv, haligned, hslot, hrange, hseconds, hactivity.add_le_length, fun row hrow => ?_⟩
  constructor
  · exact hactivity.cellOf_eq 2 row (by decide) (by decide) hrow
  · exact hplan.cellOf_eq 2 row (by decide) (by decide) hrow

end Daybook.DayView
