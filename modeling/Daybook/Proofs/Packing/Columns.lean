import Mathlib
import Daybook.Proofs.Packing.FirstFit

/-!
# Columns are opened from left to right

The columns that boxes are in are the numbers below the number of columns, with none left out
(`mem_columns_pack_iff`).  A box goes beyond a column only if that one is taken, and then by a box
placed before it (`exists_before_of_lt_columnAt`).  So columns get their first boxes one after the
other, from left to right (`columns_opened_in_turn`).
-/

namespace Daybook.Packing

variable {bottom : Box → ℤ} {least : Int64} {boxes : List Box} {i : Fin boxes.length} {c : ℕ}

/-! ### Columns that are counted -/

/-- **Columns are numbered without gaps.** -/
theorem mem_columns_pack_iff : c ∈ (pack least boxes).columns ↔ c < (pack least boxes).count := by
  rw [pack, columns_packWith, List.mem_ofFn, lt_count_iff]

theorem count_pack_eq_zero_iff : (pack least boxes).count = 0 ↔ boxes = [] := by
  constructor
  · intro hcount
    by_contra hboxes
    have hfirst := columnAt_lt_count (Box.bottom least) least boxes
      ⟨0, List.length_pos_of_ne_nil hboxes⟩
    exact Nat.not_lt_zero _ (hcount ▸ hfirst)
  · rintro rfl
    by_contra hcount
    obtain ⟨i, -⟩ := exists_columnAt_eq (Nat.pos_of_ne_zero hcount)
    exact i.elim0

/-- As many columns are counted as the rightmost box needs. -/
theorem exists_max?_columns_pack (hboxes : boxes ≠ []) :
    ∃ last ∈ (pack least boxes).columns.max?, (pack least boxes).count = 1 + last := by
  have hcount : (pack least boxes).count ≠ 0 := mt count_pack_eq_zero_iff.mp hboxes
  refine ⟨(pack least boxes).count - 1, ?_, by omega⟩
  rw [Option.mem_def, List.max?_eq_some_iff]
  refine ⟨mem_columns_pack_iff.mpr (by omega), fun c hc => ?_⟩
  have hlt := mem_columns_pack_iff.mp hc
  omega

/-! ### The first box of a column -/

/-- **A box goes beyond a column only if that one is taken**, by a box placed before it. -/
theorem exists_before_of_lt_columnAt (hc : c < columnAt bottom least boxes i) :
    ∃ j : Fin boxes.length, Before least boxes j i ∧ columnAt bottom least boxes j = c := by
  by_contra hnone
  -- Without such a box the column would be free, and the box in no column on the right of it.
  refine hc.not_ge ((isFirstFit_columnAt bottom least boxes i).2 fun j hbefore hj => ?_)
  exact absurd ⟨j, hbefore, hj⟩ hnone

/-- Whether a box is in a column, and placed before all others that are in there. -/
def IsFirstIn (least : Int64) (boxes : List Box) (c : ℕ) (i : Fin boxes.length) : Prop :=
  (pack least boxes).columnOf? i = some c ∧
    ∀ j : Fin boxes.length, (pack least boxes).columnOf? j = some c → j ≠ i → Before least boxes i j

theorem isFirstIn_iff : IsFirstIn least boxes c i ↔
    columnAt (Box.bottom least) least boxes i = c ∧ ∀ j : Fin boxes.length,
      columnAt (Box.bottom least) least boxes j = c → j ≠ i → Before least boxes i j := by
  simp only [IsFirstIn, pack, columnOf?_packWith, Option.some_inj]

theorem exists_isFirstIn (hc : c < (pack least boxes).count) :
    ∃ i, IsFirstIn least boxes c i := by
  obtain ⟨i, hi⟩ := exists_columnAt_eq hc
  obtain ⟨first, hfirst, hleast⟩ := Set.exists_min_image
    {j : Fin boxes.length | columnAt (Box.bottom least) least boxes j = c}
    (fun j => key least (numbered boxes j)) (Set.toFinite _) ⟨i, hi⟩
  refine ⟨first, isFirstIn_iff.mpr ⟨hfirst, fun j hj hne => ?_⟩⟩
  exact (hleast j hj).lt_of_ne (key_ne_of_ne hne.symm)

/-- Of two columns the left one gets its first box before the right one. -/
theorem IsFirstIn.before {c' : ℕ} {i' : Fin boxes.length} (h : IsFirstIn least boxes c i)
    (h' : IsFirstIn least boxes c' i') (hlt : c < c') : Before least boxes i i' := by
  rw [isFirstIn_iff] at h h'
  -- The left column is taken when `i'` is placed, by `i` or by a box that comes after it.
  obtain ⟨j, hbefore, hj⟩ := exists_before_of_lt_columnAt (hlt.trans_eq h'.1.symm)
  by_cases hji : j = i
  · rwa [← hji]
  · exact lt_trans (h.2 j hj hji) hbefore

/-! ### Columns in turn -/

/-- **Columns are dense, and opened in turn.**  Each box gets one column.  No columns are counted
for no boxes, and else as many as the rightmost box needs; each of them has a box, and one on the
left gets its first box before one on the right. -/
theorem columns_opened_in_turn (least : Int64) (boxes : List Box) :
    (pack least boxes).columns.length = boxes.length ∧
    ((pack least boxes).count = 0 ↔ boxes = []) ∧
    (boxes ≠ [] →
      ∃ last ∈ (pack least boxes).columns.max?, (pack least boxes).count = 1 + last) ∧
    (∀ c < (pack least boxes).count,
      ∃ i : Fin boxes.length, (pack least boxes).columnOf? i = some c) ∧
    ∀ c c', c < c' → c' < (pack least boxes).count →
      ∃ i i', IsFirstIn least boxes c i ∧ IsFirstIn least boxes c' i' ∧
        Before least boxes i i' := by
  refine ⟨length_columns_pack least boxes, count_pack_eq_zero_iff, exists_max?_columns_pack, ?_, ?_⟩
  · intro c hc
    obtain ⟨i, hi, -⟩ := exists_isFirstIn hc
    exact ⟨i, hi⟩
  · intro c c' hlt hc'
    obtain ⟨i, hi⟩ := exists_isFirstIn (hlt.trans hc')
    obtain ⟨i', hi'⟩ := exists_isFirstIn hc'
    exact ⟨i, i', hi, hi', hi.before hi' hlt⟩

end Daybook.Packing
