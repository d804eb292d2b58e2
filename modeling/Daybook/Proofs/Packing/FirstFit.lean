import Mathlib
import Daybook.Proofs.Packing.Run

/-!
# Packing is first fit

`IsFirstFit` says what first fit is without a run: every box has the least column all of whose boxes
before it, in pack order, end before it starts.  `packWith` gives such columns for any rule of where
a box ends (`isFirstFit_columnAt`), and there is only one way to (`IsFirstFit.unique`), so the two
say the same of `pack` (`columns_pack_eq_iff`).

Packings are compared by the columns that are free for a box (`columnAt_congr`), and are equal if
each box is in the same column of both (`packWith_eq_iff`).

That boxes in one column do not overlap follows from first fit alone (`IsFirstFit.le_or_le`).  For
`pack` the ends are clamped, and an end that was clamped can be told from a true one only by a box
that starts at the last second of the range (`clamp_le_iff`).
-/

namespace Daybook

/-! ### The end of a box -/

/-- Where the box ends when it is drawn with its height. -/
def Box.finish (least : Int64) (b : Box) : ℤ :=
  b.start.toInt + b.height least

theorem Box.bottom_eq_clamp (least : Int64) (b : Box) : b.bottom least = clamp (b.finish least) :=
  rfl

/-- Below the end of the range, to be no less than a clamped number is to be no less than the number
itself. -/
theorem clamp_le_iff {n : ℤ} {second : Int64} (h : second ≠ Int64.maxValue) :
    clamp n ≤ second.toInt ↔ n ≤ second.toInt := by
  have hmin := Int64.minValue_le_toInt second
  have hmax : second.toInt < Int64.maxValue.toInt := by
    have hle := Int64.toInt_le second
    have hne : second.toInt ≠ Int64.maxValue.toInt := fun heq => h (Int64.toInt_inj.mp heq)
    omega
  rw [clamp, min_le_iff, max_le_iff]
  omega

namespace Packing

/-! ### First fit, said of all boxes at once -/

/-- **First fit**, when boxes end as `bottom` says: each box has the least column all of whose boxes
before it in pack order end before it starts. -/
def IsFirstFit (bottom : Box → ℤ) (least : Int64) (boxes : List Box)
    (column : Fin boxes.length → ℕ) : Prop :=
  ∀ i, IsLeast {c | ∀ j, Before least boxes j i → column j = c →
    bottom (boxes.get j) ≤ (boxes.get i).start.toInt} (column i)

variable {bottom : Box → ℤ} {least : Int64} {boxes : List Box}

/-- **First fit leaves no choice.** -/
theorem IsFirstFit.unique {column column' : Fin boxes.length → ℕ}
    (h : IsFirstFit bottom least boxes column) (h' : IsFirstFit bottom least boxes column') :
    column = column' := by
  funext i
  induction i using before_induction least with
  | step i ih =>
    -- The boxes before `i` have the same columns, so both choose from the same set.
    have hsets : {c | ∀ j, Before least boxes j i → column j = c →
          bottom (boxes.get j) ≤ (boxes.get i).start.toInt} =
        {c | ∀ j, Before least boxes j i → column' j = c →
          bottom (boxes.get j) ≤ (boxes.get i).start.toInt} := by
      ext c
      refine forall_congr' fun j => ?_
      constructor
      · exact fun hj hbefore hc => hj hbefore ((ih j hbefore).trans hc)
      · exact fun hj hbefore hc => hj hbefore ((ih j hbefore).symm.trans hc)
    have hi := h i
    rw [hsets] at hi
    exact hi.unique (h' i)

/-- **No overlap**: of two boxes in one column, one ends before the other starts. -/
theorem IsFirstFit.le_or_le {column : Fin boxes.length → ℕ}
    (h : IsFirstFit bottom least boxes column) {i j : Fin boxes.length} (hij : i ≠ j)
    (hcolumn : column i = column j) :
    bottom (boxes.get i) ≤ (boxes.get j).start.toInt ∨
      bottom (boxes.get j) ≤ (boxes.get i).start.toInt := by
  -- The later of the two chose a column in which the other had ended.
  rcases before_or_before_of_ne least hij with hbefore | hbefore
  · exact Or.inl ((h j).1 i hbefore hcolumn)
  · exact Or.inr ((h i).1 j hbefore hcolumn.symm)

/-! ### The columns of `packWith` -/

/-- The column that packing gives to the box with an index. -/
def columnAt (bottom : Box → ℤ) (least : Int64) (boxes : List Box) (index : ℕ) : ℕ :=
  ((placeAll bottom [] (order least boxes)).1.lookup index).getD 0

theorem columns_packWith (bottom : Box → ℤ) (least : Int64) (boxes : List Box) :
    (packWith bottom least boxes).columns =
      List.ofFn fun i : Fin boxes.length => columnAt bottom least boxes i := by
  apply List.ext_getElem
  · simp [packWith]
  · intro index _ _
    simp [packWith, columnAt]

theorem columnOf?_packWith (bottom : Box → ℤ) (least : Int64) (boxes : List Box)
    (i : Fin boxes.length) :
    (packWith bottom least boxes).columnOf? i = some (columnAt bottom least boxes i) := by
  simp [columnOf?, columns_packWith]

/-- Each index has one entry in a run, and that one is found. -/
theorem columnAt_eq (bottom : Box → ℤ) (least : Int64) (boxes : List Box) :
    ∀ a ∈ (placeAll bottom [] (order least boxes)).1,
      columnAt bottom least boxes a.1 = a.2 := by
  have hnodup : ((placeAll bottom [] (order least boxes)).1.map Prod.fst).Nodup := by
    rw [map_fst_placeAll, ((perm_order least boxes).map Prod.snd).nodup_iff, List.zipIdx_map_snd]
    exact List.nodup_range'
  intro a ha
  obtain ⟨front, rest, hsplit⟩ := List.append_of_mem ha
  rw [hsplit, List.map_append, List.map_cons, List.nodup_append] at hnodup
  have hlookup : (placeAll bottom [] (order least boxes)).1.lookup a.1 = some a.2 := by
    rw [List.lookup_eq_some_iff]
    refine ⟨front, rest, hsplit, fun p hp => ?_⟩
    rw [bne_iff_ne]
    exact (hnodup.2.2 p.1 (List.mem_map_of_mem hp) a.1 (by simp)).symm
  rw [columnAt, hlookup, Option.getD_some]

/-- A column that is given to a box is open in the end. -/
theorem columnAt_lt_count (bottom : Box → ℤ) (least : Int64) (boxes : List Box)
    (i : Fin boxes.length) :
    columnAt bottom least boxes i < (packWith bottom least boxes).count := by
  have hi : (i : ℕ) ∈ (placeAll bottom [] (order least boxes)).1.map Prod.fst := by
    rw [map_fst_placeAll, List.mem_map]
    exact ⟨numbered boxes i, mem_order.mpr ⟨i, rfl⟩, rfl⟩
  obtain ⟨a, ha, hindex⟩ := List.mem_map.mp hi
  rw [← hindex, columnAt_eq bottom least boxes a ha]
  exact lt_length_placeAll bottom [] (order least boxes) a ha

/-- Every column that is counted has a box. -/
theorem exists_columnAt_eq {bottom : Box → ℤ} {least : Int64} {boxes : List Box} {c : ℕ}
    (h : c < (packWith bottom least boxes).count) :
    ∃ i : Fin boxes.length, columnAt bottom least boxes i = c := by
  obtain hopen | ⟨a, ha, hc⟩ := lt_length_or_exists_of_lt_length_placeAll h
  · exact absurd hopen (Nat.not_lt_zero c)
  · have hindex : a.1 ∈ (placeAll bottom [] (order least boxes)).1.map Prod.fst :=
      List.mem_map_of_mem ha
    rw [map_fst_placeAll, List.mem_map] at hindex
    obtain ⟨p, hp, hindex⟩ := hindex
    obtain ⟨i, rfl⟩ := mem_order.mp hp
    exact ⟨i, (congrArg _ hindex).trans ((columnAt_eq bottom least boxes a ha).trans hc)⟩

theorem lt_count_iff {c : ℕ} : c < (packWith bottom least boxes).count ↔
    ∃ i : Fin boxes.length, columnAt bottom least boxes i = c := by
  constructor
  · exact exists_columnAt_eq
  · rintro ⟨i, rfl⟩
    exact columnAt_lt_count bottom least boxes i

theorem underway_order (bottom : Box → ℤ) (least : Int64) (boxes : List Box) :
    Underway bottom (columnAt bottom least boxes) [] [] (order least boxes) where
  tracks := tracks_nil _ _
  pairwise_start := (pairwise_order least boxes).imp start_le_start_of_key_lt
  column_eq := columnAt_eq bottom least boxes

/-- **Packing is first fit**, wherever boxes are said to end. -/
theorem isFirstFit_columnAt (bottom : Box → ℤ) (least : Int64) (boxes : List Box) :
    IsFirstFit bottom least boxes fun i => columnAt bottom least boxes i := by
  intro i
  obtain ⟨past, rest, hsplit⟩ := List.append_of_mem (mem_order.mpr ⟨i, rfl⟩)
  have hleast := (underway_order bottom least boxes).isLeast_column hsplit
  -- The boxes in front of this one in the run are the ones before it in pack order.
  simp only [List.nil_append, mem_of_order_eq_append hsplit] at hleast
  simpa [numbered] using hleast

/-- A box is in the leftmost column if all boxes before it that are in there have ended. -/
theorem columnAt_eq_zero_iff (bottom : Box → ℤ) (least : Int64) {boxes : List Box}
    (i : Fin boxes.length) : columnAt bottom least boxes i = 0 ↔
      ∀ j : Fin boxes.length, Before least boxes j i → columnAt bottom least boxes j = 0 →
        bottom (boxes.get j) ≤ (boxes.get i).start.toInt := by
  have hleast := isFirstFit_columnAt bottom least boxes i
  constructor
  · intro hi
    exact hi ▸ hleast.1
  · intro h
    exact Nat.le_zero.mp (hleast.2 h)

/-! ### Packings compared -/

/-- Packings are equal if each box is in the same column of both. -/
theorem packWith_eq_iff {bottom' : Box → ℤ} :
    packWith bottom least boxes = packWith bottom' least boxes ↔
      ∀ i : Fin boxes.length, columnAt bottom least boxes i = columnAt bottom' least boxes i := by
  constructor
  · intro h i
    have hcolumn := congrArg (fun p => p.columnOf? i) h
    simpa only [columnOf?_packWith, Option.some_inj] using hcolumn
  · intro h
    have hcount : (packWith bottom least boxes).count = (packWith bottom' least boxes).count :=
      eq_of_forall_lt_iff fun c => by simp only [lt_count_iff, h]
    have hcolumns : (packWith bottom least boxes).columns =
        (packWith bottom' least boxes).columns := by
      simp only [columns_packWith, h]
    exact (Packing.mk.injEq ..).mpr ⟨hcount, hcolumns⟩

/-- Two boxes of two packings are in the same column if the same columns are free for them. -/
theorem columnAt_congr {bottom' : Box → ℤ} {least' : Int64} {boxes' : List Box}
    {i : Fin boxes.length} {i' : Fin boxes'.length}
    (h : ∀ c, (∀ j : Fin boxes.length, Before least boxes j i → columnAt bottom least boxes j = c →
        bottom (boxes.get j) ≤ (boxes.get i).start.toInt) ↔
      ∀ j : Fin boxes'.length, Before least' boxes' j i' → columnAt bottom' least' boxes' j = c →
        bottom' (boxes'.get j) ≤ (boxes'.get i').start.toInt) :
    columnAt bottom least boxes i = columnAt bottom' least' boxes' i' := by
  have hleast := isFirstFit_columnAt bottom least boxes i
  simp only [h] at hleast
  exact hleast.unique (isFirstFit_columnAt bottom' least' boxes' i')

/-! ### The columns of `pack` -/

theorem length_columns_pack (least : Int64) (boxes : List Box) :
    (pack least boxes).columns.length = boxes.length := by
  rw [pack, columns_packWith, List.length_ofFn]

/-- Boxes in one column do not overlap, clamped or not, if they start before the last second of the
range. -/
theorem finish_le_or_le {i j : Fin boxes.length} (hij : i ≠ j)
    (hcolumn : columnAt (Box.bottom least) least boxes i =
      columnAt (Box.bottom least) least boxes j)
    (hi : (boxes.get i).start ≠ Int64.maxValue) (hj : (boxes.get j).start ≠ Int64.maxValue) :
    (boxes.get i).finish least ≤ (boxes.get j).start.toInt ∨
      (boxes.get j).finish least ≤ (boxes.get i).start.toInt := by
  have hends := (isFirstFit_columnAt (Box.bottom least) least boxes).le_or_le hij hcolumn
  rwa [Box.bottom_eq_clamp, Box.bottom_eq_clamp, clamp_le_iff hj, clamp_le_iff hi] at hends

/-- **Packing is exactly first fit**: columns are those of `pack` if and only if each box has the
least column all of whose boxes before it end before it starts. -/
theorem columns_pack_eq_iff (least : Int64) (boxes : List Box) (column : Fin boxes.length → ℕ) :
    (pack least boxes).columns = List.ofFn column ↔
      IsFirstFit (Box.bottom least) least boxes column := by
  have hfit := isFirstFit_columnAt (Box.bottom least) least boxes
  rw [pack, columns_packWith, List.ofFn_inj]
  constructor
  · rintro rfl
    exact hfit
  · exact hfit.unique

/-- **Boxes in one column do not overlap.** -/
theorem no_overlap_in_column (least : Int64) (boxes : List Box) {i j : Fin boxes.length}
    (hij : i ≠ j) (hcolumn : (pack least boxes).columnOf? i = (pack least boxes).columnOf? j) :
    ((boxes.get i).bottom least ≤ (boxes.get j).start.toInt ∨
      (boxes.get j).bottom least ≤ (boxes.get i).start.toInt) ∧
    ((boxes.get i).start ≠ Int64.maxValue → (boxes.get j).start ≠ Int64.maxValue →
      (boxes.get i).finish least ≤ (boxes.get j).start.toInt ∨
        (boxes.get j).finish least ≤ (boxes.get i).start.toInt) := by
  have hcolumns : columnAt (Box.bottom least) least boxes i =
      columnAt (Box.bottom least) least boxes j := by
    simpa [columnOf?, pack, columns_packWith] using hcolumn
  have hends := (isFirstFit_columnAt (Box.bottom least) least boxes).le_or_le hij hcolumns
  refine ⟨hends, fun hi hj => ?_⟩
  rwa [Box.bottom_eq_clamp, Box.bottom_eq_clamp, clamp_le_iff hj, clamp_le_iff hi] at hends

/-- Two of four boxes given from the last to the first, which share the left column. -/
theorem no_overlap_in_column_descending :
    let boxes : List Box := [⟨3, 1⟩, ⟨2, 2⟩, ⟨1, 2⟩, ⟨0, 1⟩]
    (pack 0 boxes).columnOf? 0 = (pack 0 boxes).columnOf? 2 ∧
      boxes[0].start ≠ Int64.maxValue ∧ boxes[2].start ≠ Int64.maxValue ∧
      (boxes[0].finish 0 ≤ boxes[2].start.toInt ∨ boxes[2].finish 0 ≤ boxes[0].start.toInt) := by
  have hcolumn : (pack 0 [⟨3, 1⟩, ⟨2, 2⟩, ⟨1, 2⟩, ⟨0, 1⟩]).columnOf? 0 =
      (pack 0 [⟨3, 1⟩, ⟨2, 2⟩, ⟨1, 2⟩, ⟨0, 1⟩]).columnOf? 2 := by cbv
  have h := no_overlap_in_column 0 [⟨3, 1⟩, ⟨2, 2⟩, ⟨1, 2⟩, ⟨0, 1⟩] (i := 0) (j := 2) (by decide)
    hcolumn
  exact ⟨hcolumn, by decide, by decide, h.2 (by decide) (by decide)⟩

end Packing

end Daybook
