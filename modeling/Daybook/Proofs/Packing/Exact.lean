import Mathlib
import Daybook.Proofs.Packing.FirstFit

/-!
# Packing without the clamp

`packExact` takes the same steps as `pack` with the ends of boxes as they are, however far out of
the range.  A box that starts before the last second of the range cannot tell a clamped end from a
true one, so it gets the same column from both (`columnAt_finish_eq`).

At the last second every clamped end has been reached, and `pack` puts what starts there into the
leftmost column (`columnAt_bottom_eq_zero`).  So the two packings differ exactly if that column has
a box that goes on beyond the range, and then another box at the last second
(`pack_eq_packExact_iff`).
-/

namespace Daybook

/-- **First fit with ends as they are.** -/
def packExact (least : Int64) (boxes : List Box) : Packing :=
  packWith (Box.finish least) least boxes

theorem clamp_le_maxValue (n : ℤ) : clamp n ≤ Int64.maxValue.toInt :=
  min_le_right _ _

namespace Packing

variable {least : Int64} {boxes : List Box} {i : Fin boxes.length}

/-! ### Before the last second -/

/-- **Before the last second the clamp makes no difference.** -/
theorem columnAt_finish_eq (h : (boxes.get i).start ≠ Int64.maxValue) :
    columnAt (Box.finish least) least boxes i = columnAt (Box.bottom least) least boxes i := by
  induction i using before_induction least with
  | step i ih =>
    -- The boxes before `i` start before the last second as well, so their columns are the same.
    have hbefore : ∀ j, Before least boxes j i → columnAt (Box.finish least) least boxes j =
        columnAt (Box.bottom least) least boxes j := by
      intro j hj
      refine ih j hj fun hlast => h (Int64.toInt_inj.mp ?_)
      have hle := start_le_start_of_before hj
      rw [hlast] at hle
      exact le_antisymm (Int64.toInt_le (boxes.get i).start) hle
    refine columnAt_congr fun c => forall_congr' fun j => forall_congr' fun hj => ?_
    rw [hbefore j hj, Box.bottom_eq_clamp, clamp_le_iff h]

/-- Without boxes at the last second the clamp makes no difference at all. -/
theorem packExact_eq_pack (h : ∀ b ∈ boxes, b.start ≠ Int64.maxValue) :
    packExact least boxes = pack least boxes :=
  packWith_eq_iff.mpr fun _ => columnAt_finish_eq (h _ (List.getElem_mem _))

/-! ### At the last second -/

/-- **At the last second the leftmost column is always free.** -/
theorem columnAt_bottom_eq_zero (h : (boxes.get i).start = Int64.maxValue) :
    columnAt (Box.bottom least) least boxes i = 0 := by
  rw [columnAt_eq_zero_iff]
  intro j _ _
  rw [h]
  exact clamp_le_maxValue _

/-- What is in the leftmost column without the clamp is there with it. -/
theorem columnAt_bottom_eq_zero_of_finish (h : columnAt (Box.finish least) least boxes i = 0) :
    columnAt (Box.bottom least) least boxes i = 0 := by
  by_cases hlast : (boxes.get i).start = Int64.maxValue
  · exact columnAt_bottom_eq_zero hlast
  · rw [← columnAt_finish_eq hlast, h]

/-- **The clamp is seen at the last second only.**  Packing is as without the clamp if and only if
no box at the last second has, before it in pack order, a box of the leftmost column that ends after
the range.  Boxes that start earlier are in the same columns in any case, and those at the last
second are in the leftmost one. -/
theorem pack_eq_packExact_iff (least : Int64) (boxes : List Box) :
    (pack least boxes = packExact least boxes ↔
      ∀ i j : Fin boxes.length, (boxes.get i).start = Int64.maxValue → Before least boxes j i →
        (pack least boxes).columnOf? j = some 0 →
          (boxes.get j).finish least ≤ Int64.maxValue.toInt) ∧
    (∀ i : Fin boxes.length, (boxes.get i).start ≠ Int64.maxValue →
      (pack least boxes).columnOf? i = (packExact least boxes).columnOf? i) ∧
    ∀ i : Fin boxes.length, (boxes.get i).start = Int64.maxValue →
      (pack least boxes).columnOf? i = some 0 := by
  simp only [pack, packExact, columnOf?_packWith, Option.some_inj]
  refine ⟨?_, fun i h => (columnAt_finish_eq h).symm, fun i h => columnAt_bottom_eq_zero h⟩
  rw [packWith_eq_iff]
  constructor
  · intro h i j hi hbefore hj
    have hzero : columnAt (Box.finish least) least boxes i = 0 := by
      rw [← h i, columnAt_bottom_eq_zero hi]
    rw [← hi]
    exact (columnAt_eq_zero_iff _ _ i).mp hzero j hbefore ((h j).symm.trans hj)
  · intro h i
    by_cases hi : (boxes.get i).start = Int64.maxValue
    · have hzero : columnAt (Box.finish least) least boxes i = 0 := by
        rw [columnAt_eq_zero_iff]
        intro j hbefore hj
        rw [hi]
        exact h i j hi hbefore (columnAt_bottom_eq_zero_of_finish hj)
      rw [hzero, columnAt_bottom_eq_zero hi]
    · exact (columnAt_finish_eq hi).symm

/-- Two boxes of one second each, both at the last second of the range: the first one has ended for
the clamp when the second one starts. -/
theorem pack_ne_packExact_at_maxValue :
    let boxes : List Box := [⟨Int64.maxValue, 1⟩, ⟨Int64.maxValue, 1⟩]
    (∀ b ∈ boxes, 0 ≤ b.duration.toInt) ∧ pack 0 boxes = ⟨1, [0, 0]⟩ ∧
      packExact 0 boxes = ⟨2, [0, 1]⟩ ∧ pack 0 boxes ≠ packExact 0 boxes := by
  intro boxes
  have hclamped : pack 0 boxes = ⟨1, [0, 0]⟩ := by cbv
  have hexact : packExact 0 boxes = ⟨2, [0, 1]⟩ := by cbv
  refine ⟨by decide, hclamped, hexact, ?_⟩
  rw [hclamped, hexact]
  decide

end Packing

end Daybook
