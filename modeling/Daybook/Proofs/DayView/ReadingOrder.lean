import Mathlib
import Daybook.Proofs.DayView.AlignedGrid
import Daybook.Proofs.Packing.Order

/-!
# The reading order of blocks

Blocks are read by start and then by column, and two that agree in both stay in the order in which
they came.  So the indices of the blocks, put into reading order, ascend by start, column and index
(`pairwise_readingOrder`).

The index is hardly ever asked.  Blocks of one start and one column would overlap if they were drawn
with any height at all, and packing keeps them apart (`pairwise_key_ne`).  If all blocks have a
height, start and column tell them from each other and put them into a strict order.
-/

namespace Daybook.DayView

/-- What blocks are read by: the start, then the column. -/
def Block.key (b : Block) : ℤ ×ₗ ℕ :=
  toLex (b.offset, b.column)

variable {p q : Block} {v : DayView}

theorem Block.before_iff : p.before q = true ↔ p.key ≤ q.key := by
  rw [before, decide_eq_true_eq, key, key, Prod.Lex.toLex_le_toLex]

theorem Block.key_lt_iff :
    p.key < q.key ↔ p.offset < q.offset ∨ p.offset = q.offset ∧ p.column < q.column := by
  rw [key, key, Prod.Lex.toLex_lt_toLex]

/-! ### Indices in reading order -/

/-- The indices of the blocks in reading order. -/
def readingOrder (v : DayView) : List (Fin v.blocks.length) :=
  (List.finRange v.blocks.length).mergeSort fun i j => (v.blocks.get i).before (v.blocks.get j)

theorem perm_readingOrder (v : DayView) :
    v.readingOrder.Perm (List.finRange v.blocks.length) :=
  List.mergeSort_perm _ _

theorem map_get_readingOrder (v : DayView) :
    v.readingOrder.map v.blocks.get = v.inReadingOrder := by
  rw [readingOrder, List.map_mergeSort (s := Block.before) fun i _ j _ => rfl,
    List.map_get_finRange, inReadingOrder]

/-- **Blocks are read by start, column and index.** -/
theorem pairwise_readingOrder (v : DayView) :
    v.readingOrder.Pairwise fun i j =>
      toLex ((v.blocks.get i).key, i) < toLex ((v.blocks.get j).key, j) :=
  Packing.pairwise_mergeSort_toLex (fun i => (v.blocks.get i).key) id _
    (fun _ _ => Block.before_iff) (List.pairwise_lt_finRange _)

/-! ### Blocks with a height -/

/-- **No two blocks share a start and a column**, if all of them have a height. -/
theorem pairwise_key_ne {z : Zone} {d : Date} {least : Int64} {entries : List Entry}
    (hv : v ∈ build? d z least entries) (hheight : ∀ b ∈ v.blocks, 0 < max b.duration least.toInt) :
    v.blocks.Pairwise fun p q => p.key ≠ q.key := by
  refine (pairwise_apart_of_build? hv).imp_of_mem ?_
  intro p q hp hq hapart hkey
  rw [Block.key, Block.key, toLex_inj, Prod.mk.injEq] at hkey
  obtain ⟨hoffset, hcolumn⟩ := hkey
  have hpos := hheight p hp
  have hpos' := hheight q hq
  have hends := hapart hcolumn
  rw [Block.Apart] at hends
  omega

/-- A list in ascending order ascends strictly if no two members share a key. -/
theorem pairwise_key_lt (hne : v.blocks.Pairwise fun p q => p.key ≠ q.key) :
    v.inReadingOrder.Pairwise fun p q => p.key < q.key := by
  rw [← map_get_readingOrder, List.pairwise_map]
  refine (pairwise_readingOrder v).imp fun {i j} hij => ?_
  rw [Prod.Lex.toLex_lt_toLex] at hij
  rcases hij with hlt | ⟨hkey, hlt⟩
  · exact hlt
  · exact absurd hkey (List.pairwise_iff_get.mp hne i j hlt)

/-! ### The order as a whole -/

/-- **Blocks are read in a strict order.** Each block is read once, by start and then by column, and
of two that agree in both the one that came first.  If all blocks, drawn with the least height,
have a height, no two of them agree in both; then each block is read later than those before it, or
at the same start and further to the right. -/
theorem blocks_read_in_strict_order {z : Zone} {d : Date} {least : Int64} {entries : List Entry}
    (hv : v ∈ build? d z least entries) :
    (∃ indices : List (Fin v.blocks.length),
      indices.Perm (List.finRange v.blocks.length) ∧
      v.inReadingOrder = indices.map v.blocks.get ∧
      indices.Pairwise fun i j => (v.blocks.get i).key < (v.blocks.get j).key ∨
        (v.blocks.get i).key = (v.blocks.get j).key ∧ i < j) ∧
    ((∀ b ∈ v.blocks, 0 < max b.duration least.toInt) →
      (v.blocks.Pairwise fun p q => p.key ≠ q.key) ∧
      v.inReadingOrder.Pairwise fun p q =>
        p.offset < q.offset ∨ p.offset = q.offset ∧ p.column < q.column) := by
  refine ⟨⟨v.readingOrder, v.perm_readingOrder, v.map_get_readingOrder.symm, ?_⟩, fun hheight => ?_⟩
  · refine v.pairwise_readingOrder.imp fun {i j} hij => ?_
    rwa [Prod.Lex.toLex_lt_toLex] at hij
  · have hne := pairwise_key_ne hv hheight
    exact ⟨hne, (pairwise_key_lt hne).imp Block.key_lt_iff.mp⟩

/-- Half an hour, a full hour from the same start on, and an earlier half hour: the last one is read
first, and the hour, which stands on the left, before the half hour beside it. -/
theorem blocks_read_in_strict_order_three :
    let d : Date := ⟨19849, by decide, by decide⟩
    let e := entryBetween (.ofSeconds 1714989600 (by decide)) (.ofSeconds 1714991400 (by decide))
    let e' := entryBetween (.ofSeconds 1714989600 (by decide)) (.ofSeconds 1714993200 (by decide))
    let e'' := entryBetween (.ofSeconds 1714986000 (by decide)) (.ofSeconds 1714987800 (by decide))
    ∃ v ∈ build? d Zone.utc 0 [e, e', e''],
      v.blocks = [⟨e, 1, 36000, 1800⟩, ⟨e', 0, 36000, 3600⟩, ⟨e'', 0, 32400, 1800⟩] ∧
      (∀ b ∈ v.blocks, 0 < max b.duration 0) ∧
      v.inReadingOrder = [⟨e'', 0, 32400, 1800⟩, ⟨e', 0, 36000, 3600⟩, ⟨e, 1, 36000, 1800⟩] ∧
      v.inReadingOrder.Pairwise fun p q =>
        p.offset < q.offset ∨ p.offset = q.offset ∧ p.column < q.column := by
  intro d e e' e''
  have hblocks : (build? d Zone.utc 0 [e, e', e'']).map DayView.blocks =
      some [⟨e, 1, 36000, 1800⟩, ⟨e', 0, 36000, 3600⟩, ⟨e'', 0, 32400, 1800⟩] := by cbv
  obtain ⟨v, hv, hblocks⟩ := Option.map_eq_some_iff.mp hblocks
  have hheight : ∀ b ∈ v.blocks, 0 < max b.duration 0 := by
    rw [hblocks]
    decide
  refine ⟨v, hv, hblocks, hheight, ?_, ((blocks_read_in_strict_order hv).2 hheight).2⟩
  rw [inReadingOrder, hblocks]
  cbv

end Daybook.DayView
