import Mathlib
import Daybook.Proofs.Packing.Depth

/-!
# How many columns packing takes, without pack order

The number of columns is the greatest number of boxes that are `ongoing` when one of them starts,
that one included, and here it is of no matter in which order boxes with one start are placed
(`count_pack_le_iff`).  For if some of them go on beyond their start, the last of these to be placed
finds all the others, since of boxes with one start those placed before end no earlier
(`card_ongoing_add_one_le`).

So the number of columns of two lists can be compared box by box.  Taller boxes are ongoing whenever
lower ones are, and take no fewer columns (`count_le_count_of_taller`).
-/

namespace Daybook

/-! ### The end of a taller box -/

theorem clamp_mono : Monotone clamp := fun _ _ h =>
  min_le_min_right _ (max_le_max_right _ h)

theorem Box.bottom_le_bottom {least least' : Int64} {a b : Box} (hstart : a.start = b.start)
    (hheight : a.height least ≤ b.height least') : a.bottom least ≤ b.bottom least' := by
  apply clamp_mono
  rw [hstart]
  omega

/-- Whether a box has started at a second and not ended, with its end clamped. -/
def Box.OngoingAt (least : Int64) (b : Box) (second : ℤ) : Prop :=
  b.start.toInt ≤ second ∧ second < b.bottom least

instance (least : Int64) (b : Box) (second : ℤ) : Decidable (b.OngoingAt least second) :=
  inferInstanceAs (Decidable (_ ∧ _))

/-- A box is ongoing whenever a lower one with the same start is. -/
theorem Box.OngoingAt.of_taller {least least' : Int64} {a b : Box} {second : ℤ}
    (h : a.OngoingAt least second) (hstart : a.start = b.start)
    (hheight : a.height least ≤ b.height least') : b.OngoingAt least' second :=
  ⟨hstart ▸ h.1, h.2.trans_le (Box.bottom_le_bottom hstart hheight)⟩

namespace Packing

/-! ### Ongoing boxes -/

/-- The other boxes that are ongoing when the one at `i` starts. -/
def ongoing (least : Int64) (boxes : List Box) (i : Fin boxes.length) :
    Finset (Fin boxes.length) :=
  Finset.univ.filter fun j => j ≠ i ∧ (boxes.get j).OngoingAt least (boxes.get i).start.toInt

variable {least : Int64} {boxes : List Box}

theorem mem_ongoing {i j : Fin boxes.length} : j ∈ ongoing least boxes i ↔
    j ≠ i ∧ (boxes.get j).OngoingAt least (boxes.get i).start.toInt := by
  simp [ongoing]

theorem height_le_of_before {i j : Fin boxes.length} (h : Before least boxes i j)
    (hstart : (boxes.get i).start = (boxes.get j).start) :
    (boxes.get j).height least ≤ (boxes.get i).height least := by
  rw [before_iff, hstart] at h
  omega

/-- Boxes that are placed before another are ongoing if they have not ended. -/
theorem unended_le_card_ongoing (least : Int64) (boxes : List Box) (i : Fin boxes.length) :
    unended (Box.bottom least) least boxes i ≤ (ongoing least boxes i).card := by
  refine Finset.card_le_card fun j hj => ?_
  obtain ⟨hbefore, hend⟩ := (Finset.mem_filter.mp hj).2
  refine mem_ongoing.mpr ⟨?_, start_le_start_of_before hbefore, hend⟩
  rintro rfl
  exact not_before_self _ hbefore

/-- **Boxes that are ongoing when another one starts need a column each**, as does that one. -/
theorem card_ongoing_add_one_le (least : Int64) (boxes : List Box) (i : Fin boxes.length) :
    (ongoing least boxes i).card + 1 ≤ (pack least boxes).count := by
  have hi : i ∉ ongoing least boxes i := fun h => (mem_ongoing.mp h).1 rfl
  rw [← Finset.card_insert_of_notMem hi]
  refine card_le_count fun k hk hbefore j hj hjk => ?_
  -- None of them starts after `i`, so the last one starts together with it.
  have hstart : (boxes.get k).start = (boxes.get i).start := by
    rcases Finset.mem_insert.mp hk with rfl | hk
    · rfl
    · obtain ⟨hki, hongoing⟩ := mem_ongoing.mp hk
      have hle := start_le_start_of_before (hbefore i (Finset.mem_insert_self ..) hki.symm)
      exact Int64.toInt_inj.mp (le_antisymm hongoing.1 hle)
  rw [hstart]
  rcases Finset.mem_insert.mp hj with rfl | hj
  · -- `i` itself is no lower than the last one, which is ongoing.
    have hk := mem_ongoing.mp ((Finset.mem_insert.mp hk).resolve_left hjk.symm)
    have hheight := height_le_of_before (hbefore j hj hjk) hstart.symm
    exact hk.2.2.trans_le (Box.bottom_le_bottom hstart hheight)
  · exact (mem_ongoing.mp hj).2.2

/-- **The number of columns is the greatest number of boxes that are ongoing when one of them
starts.** -/
theorem count_pack_le_iff (least : Int64) (boxes : List Box) (n : ℕ) :
    (pack least boxes).count ≤ n ↔ ∀ i, (ongoing least boxes i).card + 1 ≤ n := by
  constructor
  · exact fun h i => (card_ongoing_add_one_le least boxes i).trans h
  · intro h
    refine (count_packWith_le_iff (Box.bottom least) least boxes n).mpr fun i => ?_
    exact (Nat.add_le_add_right (unended_le_card_ongoing least boxes i) 1).trans (h i)

/-- There are no more boxes ongoing at one second than columns. -/
theorem card_ongoingAt_le_count (least : Int64) (boxes : List Box) (second : ℤ) :
    (Finset.univ.filter fun i : Fin boxes.length => (boxes.get i).OngoingAt least second).card ≤
      (pack least boxes).count := by
  refine card_le_count fun k hk _ j hj _ => ?_
  have hk := (Finset.mem_filter.mp hk).2
  have hj := (Finset.mem_filter.mp hj).2
  exact hk.1.trans_lt hj.2

/-! ### Taller boxes -/

/-- **Taller boxes take no fewer columns.** -/
theorem count_le_count_of_taller {least least' : Int64} (hleast : least.toInt ≤ least'.toInt)
    {boxes boxes' : List Box} (h : List.Forall₂
      (fun a b => a.start = b.start ∧ a.duration.toInt ≤ b.duration.toInt) boxes boxes') :
    (pack least boxes).count ≤ (pack least' boxes').count := by
  obtain ⟨hlength, htaller⟩ := List.forall₂_iff_get.mp h
  rw [count_pack_le_iff]
  intro i
  refine le_trans ?_ (card_ongoing_add_one_le least' boxes' (i.cast hlength))
  refine Nat.add_le_add_right (Finset.card_le_card_of_injOn (Fin.cast hlength) ?_ ?_) 1
  · intro j hj
    obtain ⟨hji, hongoing⟩ := mem_ongoing.mp hj
    have hi := htaller i i.isLt (i.cast hlength).isLt
    have hj := htaller j j.isLt (j.cast hlength).isLt
    refine mem_ongoing.mpr ⟨fun heq => hji (Fin.cast_injective hlength heq), ?_⟩
    rw [← show (boxes.get i).start = (boxes'.get (i.cast hlength)).start from hi.1]
    exact hongoing.of_taller hj.1 (max_le_max hj.2 hleast)
  · exact (Fin.cast_injective hlength).injOn

/-- Three boxes, one of negative length, and three that are taller: two with one start change places
in pack order. -/
theorem count_le_count_of_taller_three :
    let boxes : List Box := [⟨0, -1⟩, ⟨0, 2⟩, ⟨1, 0⟩]
    let boxes' : List Box := [⟨0, 3⟩, ⟨0, 2⟩, ⟨1, 0⟩]
    (0 : Int64).toInt ≤ (1 : Int64).toInt ∧
      List.Forall₂ (fun a b => a.start = b.start ∧ a.duration.toInt ≤ b.duration.toInt)
        boxes boxes' ∧
      (pack 0 boxes).count ≤ (pack 1 boxes').count := by
  intro boxes boxes'
  have hleast : (0 : Int64).toInt ≤ (1 : Int64).toInt := by decide
  have htaller : List.Forall₂
      (fun a b => a.start = b.start ∧ a.duration.toInt ≤ b.duration.toInt) boxes boxes' := by
    decide
  exact ⟨hleast, htaller, count_le_count_of_taller hleast htaller⟩

end Packing

end Daybook
