import Mathlib
import Daybook.Proofs.Packing.FirstFit

/-!
# Boxes in another order

All that packing looks at of a box is its `shape`: where it starts and how tall it is.  In pack
order a list of boxes and a rearrangement of it show the same shapes one after the other
(`map_shape_order_of_perm`), and runs over the same shapes give the same columns one after the other
(`placeAll_congr`).  So a rearrangement gets the same picture (`pack_of_perm`): boxes of one shape
may change places with each other, and no others.
-/

namespace Daybook

/-- **What packing looks at of a box**: where it starts and how tall it is. -/
def Box.shape (least : Int64) (b : Box) : ℤ × ℤ :=
  (b.start.toInt, b.height least)

namespace Packing

/-- **The picture of a packing**: the shape and the column of each box. -/
def picture (least : Int64) (boxes : List Box) : List ((ℤ × ℤ) × ℕ) :=
  (boxes.map (Box.shape least)).zip (pack least boxes).columns

/-! ### Shapes in pack order -/

theorem pairwise_shape_order (least : Int64) (boxes : List Box) :
    ((order least boxes).map fun p => p.1.shape least).Pairwise fun s t =>
      toLex (s.1, -s.2) ≤ toLex (t.1, -t.2) := by
  rw [List.pairwise_map]
  refine (pairwise_order least boxes).imp fun {p q} h => ?_
  simp only [key, Prod.Lex.toLex_lt_toLex] at h
  rw [Prod.Lex.toLex_le_toLex, Box.shape, Box.shape]
  rcases h with h | ⟨hstart, h | ⟨hheight, -⟩⟩
  · exact Or.inl h
  · exact Or.inr ⟨hstart, h.le⟩
  · exact Or.inr ⟨hstart, hheight.le⟩

theorem perm_shape_order (least : Int64) (boxes : List Box) :
    ((order least boxes).map fun p => p.1.shape least).Perm (boxes.map (Box.shape least)) := by
  have h := ((perm_order least boxes).map Prod.fst).map (Box.shape least)
  rwa [List.zipIdx_map_fst, List.map_map] at h

/-- **A list and a rearrangement of it show the same shapes in pack order.** -/
theorem map_shape_order_of_perm (least : Int64) {boxes boxes' : List Box} (h : boxes.Perm boxes') :
    (order least boxes).map (fun p => p.1.shape least) =
      (order least boxes').map fun p => p.1.shape least := by
  have hperm := ((perm_shape_order least boxes).trans (h.map _)).trans
    (perm_shape_order least boxes').symm
  refine hperm.eq_of_pairwise ?_ (pairwise_shape_order _ _) (pairwise_shape_order _ _)
  intro s t _ _ hst hts
  have hkeys := toLex_inj.mp (le_antisymm hst hts)
  rw [Prod.mk.injEq, neg_inj] at hkeys
  exact Prod.ext hkeys.1 hkeys.2

/-! ### Runs over the same shapes -/

/-- **Runs over boxes that start and end alike give the same columns**, one after the other. -/
theorem placeAll_congr (bottom : Box → ℤ) {run run' : List (Box × ℕ)}
    (h : List.Forall₂ (fun p q => p.1.start.toInt = q.1.start.toInt ∧ bottom p.1 = bottom q.1)
      run run') (bottoms : List ℤ) :
    (placeAll bottom bottoms run).1.map Prod.snd = (placeAll bottom bottoms run').1.map Prod.snd ∧
      (placeAll bottom bottoms run).2 = (placeAll bottom bottoms run').2 := by
  induction h generalizing bottoms with
  | nil => exact ⟨rfl, rfl⟩
  | @cons p q run run' hpq _ ih =>
    obtain ⟨hstart, hbottom⟩ := hpq
    obtain ⟨hcolumns, hlast⟩ := ih (place p.1.start.toInt (bottom p.1) bottoms).2
    simp only [placeAll, List.map_cons, ← hstart, ← hbottom]
    exact ⟨congrArg _ hcolumns, hlast⟩

/-- The columns that a run gives one after the other are those of the boxes in pack order. -/
theorem map_snd_placeAll_order (bottom : Box → ℤ) (least : Int64) (boxes : List Box) :
    (placeAll bottom [] (order least boxes)).1.map Prod.snd =
      (order least boxes).map fun p => columnAt bottom least boxes p.2 := by
  calc (placeAll bottom [] (order least boxes)).1.map Prod.snd
      = (placeAll bottom [] (order least boxes)).1.map fun a => columnAt bottom least boxes a.1 :=
        List.map_congr_left fun a ha => (columnAt_eq bottom least boxes a ha).symm
    _ = ((placeAll bottom [] (order least boxes)).1.map Prod.fst).map
          (columnAt bottom least boxes) := by
        rw [List.map_map]
        rfl
    _ = (order least boxes).map fun p => columnAt bottom least boxes p.2 := by
        rw [map_fst_placeAll, List.map_map]
        rfl

/-! ### The picture -/

theorem picture_eq_ofFn (least : Int64) (boxes : List Box) : picture least boxes =
    List.ofFn fun i : Fin boxes.length =>
      ((boxes.get i).shape least, columnAt (Box.bottom least) least boxes i) := by
  apply List.ext_getElem <;> simp [picture, pack, columns_packWith]

theorem picture_perm_order (least : Int64) (boxes : List Box) : (picture least boxes).Perm
    (((order least boxes).map fun p => p.1.shape least).zip
      ((order least boxes).map fun p => columnAt (Box.bottom least) least boxes p.2)) := by
  have h := (perm_order least boxes).symm.map fun p =>
    (p.1.shape least, columnAt (Box.bottom least) least boxes p.2)
  rw [zipIdx_eq_map_finRange, List.map_map, ← List.ofFn_eq_map] at h
  rw [picture_eq_ofFn, List.zip_map']
  exact h

theorem mem_picture {least : Int64} {boxes : List Box} {x : (ℤ × ℤ) × ℕ} :
    x ∈ picture least boxes ↔ ∃ i : Fin boxes.length,
      ((boxes.get i).shape least, columnAt (Box.bottom least) least boxes i) = x := by
  rw [picture_eq_ofFn, List.mem_ofFn]

section Perm

variable {boxes boxes' : List Box}

/-- The runs over a list and over a rearrangement of it go the same way. -/
theorem placeAll_order_of_perm (least : Int64) (h : boxes.Perm boxes') :
    (placeAll (Box.bottom least) [] (order least boxes)).1.map Prod.snd =
        (placeAll (Box.bottom least) [] (order least boxes')).1.map Prod.snd ∧
      (placeAll (Box.bottom least) [] (order least boxes)).2 =
        (placeAll (Box.bottom least) [] (order least boxes')).2 := by
  have hshapes := map_shape_order_of_perm least h
  rw [← List.forall₂_eq_eq_eq, List.forall₂_map_left_iff, List.forall₂_map_right_iff] at hshapes
  refine placeAll_congr (Box.bottom least) (hshapes.imp fun p q hpq => ?_) []
  obtain ⟨hstart, hheight⟩ := Prod.mk.inj hpq
  exact ⟨hstart, by rw [Box.bottom, Box.bottom, hstart, hheight]⟩

theorem picture_perm_of_perm (least : Int64) (h : boxes.Perm boxes') :
    (picture least boxes).Perm (picture least boxes') := by
  have hcolumns := (placeAll_order_of_perm least h).1
  rw [map_snd_placeAll_order, map_snd_placeAll_order] at hcolumns
  have horder := picture_perm_order least boxes
  rw [map_shape_order_of_perm least h, hcolumns] at horder
  exact horder.trans (picture_perm_order least boxes').symm

end Perm

/-- **The picture does not depend on the order in which boxes are given.**  Nor does the number of
columns, and a box of a shape of its own keeps its column. -/
theorem pack_of_perm (least : Int64) {boxes boxes' : List Box} (h : boxes.Perm boxes') :
    (pack least boxes).count = (pack least boxes').count ∧
    (picture least boxes).Perm (picture least boxes') ∧
    ∀ (i : Fin boxes.length) (i' : Fin boxes'.length),
      (boxes.get i).shape least = (boxes'.get i').shape least →
      (∀ j, (boxes.get j).shape least = (boxes.get i).shape least → j = i) →
      (pack least boxes).columnOf? i = (pack least boxes').columnOf? i' := by
  have hpicture := picture_perm_of_perm least h
  refine ⟨congrArg List.length (placeAll_order_of_perm least h).2, hpicture, ?_⟩
  intro i i' hshape hown
  -- What the rearrangement shows for the box is in the picture, and only the box can be there.
  obtain ⟨j, hj⟩ := mem_picture.mp (hpicture.mem_iff.mpr (mem_picture.mpr ⟨i', rfl⟩))
  obtain ⟨hshapej, hcolumn⟩ := Prod.mk.inj hj
  obtain rfl := hown j (hshapej.trans hshape.symm)
  rw [pack, pack, columnOf?_packWith, columnOf?_packWith, hcolumn]

/-- Four boxes in another order, two of them of one shape, and the column of a box that has its
shape for itself. -/
theorem pack_of_perm_twins :
    let boxes : List Box := [⟨0, 3⟩, ⟨2, 1⟩, ⟨0, 3⟩, ⟨1, 5⟩]
    let boxes' : List Box := [⟨2, 1⟩, ⟨0, 3⟩, ⟨1, 5⟩, ⟨0, 3⟩]
    boxes.Perm boxes' ∧ (pack 2 boxes).count = (pack 2 boxes').count ∧
      (picture 2 boxes).Perm (picture 2 boxes') ∧
      (pack 2 boxes).columnOf? 1 = (pack 2 boxes').columnOf? 0 := by
  intro boxes boxes'
  have hperm : boxes.Perm boxes' := by decide
  obtain ⟨hcount, hpicture, hown⟩ := pack_of_perm 2 hperm
  exact ⟨hperm, hcount, hpicture, hown 1 0 (by decide) (by decide)⟩

end Packing

end Daybook
