import Mathlib
import Daybook.Proofs.Packing.Exact

/-!
# Boxes moved in time

Packing only ever compares seconds, so it does not see where on the time line the boxes are.  Boxes
that are moved together are placed in the same order (`order_map_moved`), and as long as ends are
not clamped the bottoms move along with every step (`place_add`, `placeAll_map_moved`).

The clamp does not move: it may cut off the ends of some boxes in one place and of others, or of
none, in the other.  But packing without the clamp is the same wherever no box starts at the last
second of the range, so what holds of `packExact` there holds of `pack` (`pack_map_moved`).
-/

namespace Daybook

/-! ### A box that is moved -/

/-- The box, some seconds later. -/
def Box.moved (seconds : ℤ) (b : Box) : Box :=
  { b with start := Int64.ofInt (b.start.toInt + seconds) }

/-- Whether a box is before the last second of the range, and still is after it has been moved, and
in the range. -/
structure Box.Movable (seconds : ℤ) (b : Box) : Prop where
  start_lt : b.start.toInt < Int64.maxValue.toInt
  minValue_le : Int64.minValue.toInt ≤ b.start.toInt + seconds
  lt_maxValue : b.start.toInt + seconds < Int64.maxValue.toInt

instance (seconds : ℤ) (b : Box) : Decidable (b.Movable seconds) :=
  decidable_of_iff (b.start.toInt < Int64.maxValue.toInt ∧
      Int64.minValue.toInt ≤ b.start.toInt + seconds ∧
      b.start.toInt + seconds < Int64.maxValue.toInt)
    ⟨fun h => ⟨h.1, h.2.1, h.2.2⟩, fun h => ⟨h.start_lt, h.minValue_le, h.lt_maxValue⟩⟩

namespace Box

variable {seconds : ℤ} {b : Box}

theorem height_moved (least : Int64) (seconds : ℤ) (b : Box) :
    (b.moved seconds).height least = b.height least :=
  rfl

theorem Movable.toInt_start_moved (h : b.Movable seconds) :
    (b.moved seconds).start.toInt = b.start.toInt + seconds :=
  Int64.toInt_ofInt_of_le h.minValue_le (lt_of_lt_of_le h.lt_maxValue (by decide))

theorem Movable.finish_moved (least : Int64) (h : b.Movable seconds) :
    (b.moved seconds).finish least = b.finish least + seconds := by
  rw [finish, finish, height_moved, h.toInt_start_moved]
  omega

theorem Movable.start_ne_maxValue (h : b.Movable seconds) : b.start ≠ Int64.maxValue :=
  ne_of_apply_ne Int64.toInt h.start_lt.ne

theorem Movable.start_moved_ne_maxValue (h : b.Movable seconds) :
    (b.moved seconds).start ≠ Int64.maxValue := by
  apply ne_of_apply_ne Int64.toInt
  rw [h.toInt_start_moved]
  exact h.lt_maxValue.ne

end Box

namespace Packing

variable {least : Int64} {seconds : ℤ} {boxes : List Box} {run : List (Box × ℕ)}

/-! ### The order in which boxes are placed -/

/-- Boxes that are moved together keep their order. -/
theorem order_map_moved (least : Int64) (h : ∀ b ∈ boxes, b.Movable seconds) :
    order least (boxes.map (Box.moved seconds)) =
      (order least boxes).map (Prod.map (Box.moved seconds) id) := by
  have hmem : ∀ p ∈ boxes.zipIdx.mergeSort fun p q => decide (q.1.height least ≤ p.1.height least),
      p.1.Movable seconds := by
    intro p hp
    rw [List.mem_mergeSort] at hp
    exact h p.1 (List.fst_mem_of_mem_zipIdx hp)
  rw [order, order, List.zipIdx_map]
  -- The first pass looks at heights, which stay, and the second one at starts, which all move.
  rw [← List.map_mergeSort (r := fun p q => decide (q.1.height least ≤ p.1.height least))]
  · refine (List.map_mergeSort fun p hp q hq => ?_).symm
    rw [Prod.map_fst, Prod.map_fst, (hmem p hp).toInt_start_moved, (hmem q hq).toInt_start_moved]
    simp
  · intro p _ q _
    rw [Prod.map_fst, Prod.map_fst, Box.height_moved, Box.height_moved]

/-! ### Placing boxes -/

/-- **The step**: a box that is moved together with all bottoms goes to the same column. -/
theorem place_add (seconds top bottom : ℤ) (bottoms : List ℤ) :
    place (top + seconds) (bottom + seconds) (bottoms.map (· + seconds)) =
      ((place top bottom bottoms).1, (place top bottom bottoms).2.map (· + seconds)) := by
  induction bottoms with
  | nil => rfl
  | cons b bs ih =>
    rw [List.map_cons, place, place]
    by_cases hb : b ≤ top
    · rw [if_pos hb, if_pos (by omega), List.map_cons]
    · rw [if_neg hb, if_neg (by omega), ih, List.map_cons]

/-- **The run**: boxes that are moved together go to the same columns. -/
theorem placeAll_map_moved (least : Int64) (h : ∀ p ∈ run, p.1.Movable seconds)
    (bottoms : List ℤ) :
    placeAll (Box.finish least) (bottoms.map (· + seconds))
        (run.map (Prod.map (Box.moved seconds) id)) =
      ((placeAll (Box.finish least) bottoms run).1,
        (placeAll (Box.finish least) bottoms run).2.map (· + seconds)) := by
  induction run generalizing bottoms with
  | nil => rfl
  | cons p rest ih =>
    obtain ⟨hp, hrest⟩ := List.forall_mem_cons.mp h
    simp only [List.map_cons, placeAll, Prod.map_fst, Prod.map_snd, id_eq, hp.toInt_start_moved,
      hp.finish_moved, place_add, ih hrest]

/-! ### Packing -/

/-- With ends as they are, packing is the same everywhere. -/
theorem packExact_map_moved (least : Int64) (h : ∀ b ∈ boxes, b.Movable seconds) :
    packExact least (boxes.map (Box.moved seconds)) = packExact least boxes := by
  have hrun : ∀ p ∈ order least boxes, p.1.Movable seconds := by
    intro p hp
    exact h p.1 (List.fst_mem_of_mem_zipIdx ((perm_order least boxes).mem_iff.mp hp))
  have hplaced := placeAll_map_moved least hrun []
  rw [List.map_nil] at hplaced
  simp only [packExact, packWith, order_map_moved least h, hplaced, List.length_map]

/-- **Packing does not see where the boxes are.**  Boxes that are moved together get the same
columns, as long as no box starts at the last second of the range or out of it. -/
theorem pack_map_moved (least : Int64) (boxes : List Box) (seconds : ℤ)
    (h : ∀ b ∈ boxes, b.Movable seconds) :
    pack least (boxes.map (Box.moved seconds)) = pack least boxes := by
  have hmoved : ∀ b ∈ boxes.map (Box.moved seconds), b.start ≠ Int64.maxValue := by
    intro b hb
    obtain ⟨a, ha, rfl⟩ := List.mem_map.mp hb
    exact (h a ha).start_moved_ne_maxValue
  calc pack least (boxes.map (Box.moved seconds))
      = packExact least (boxes.map (Box.moved seconds)) := (packExact_eq_pack hmoved).symm
    _ = packExact least boxes := packExact_map_moved least h
    _ = pack least boxes := packExact_eq_pack fun b hb => (h b hb).start_ne_maxValue

/-- Three boxes at the end of the range, moved to both sides of zero: the clamp cuts off two of
their ends at first, and none any more. -/
theorem pack_map_moved_from_end :
    let boxes : List Box :=
      [⟨9223372036854775806, 9⟩, ⟨9223372036854775800, 20⟩, ⟨9223372036854775803, 3⟩]
    let seconds : ℤ := -9223372036854775804
    (∀ b ∈ boxes, b.Movable seconds) ∧ (∃ b ∈ boxes, b.bottom 0 ≠ b.finish 0) ∧
      (∀ b ∈ boxes.map (Box.moved seconds), b.bottom 0 = b.finish 0) ∧
      pack 0 (boxes.map (Box.moved seconds)) = pack 0 boxes := by
  intro boxes seconds
  have hmovable : ∀ b ∈ boxes, b.Movable seconds := by decide
  exact ⟨hmovable, by decide, by decide, pack_map_moved 0 boxes seconds hmovable⟩

end Packing

end Daybook
