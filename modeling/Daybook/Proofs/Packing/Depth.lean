import Mathlib
import Daybook.Proofs.Packing.FirstFit

/-!
# How many columns packing takes

A box is placed among the `unended` ones, those placed before it that have not ended when it starts.
The number of columns is the greatest number of boxes that come together so, the new one included
(`count_packWith_le_iff`).

If every box has some height and starts before the last second of the range, the boxes that come
together all take up the second at which the last of them starts, and conversely the boxes that
take up an instant come together when the last of them is placed.  So the number of columns is the
greatest number of boxes that share an instant (`depth_le_count`, `unended_add_one_le`), and since
boxes that share an instant need a column each (`depth_le_card_image`), there is no way to do with
fewer.
-/

namespace Daybook

/-- Whether a box takes up an instant, in seconds, when it is drawn with its height. -/
def Box.Spans (least : Int64) (b : Box) (instant : ℚ) : Prop :=
  b.start.toInt ≤ instant ∧ instant < b.finish least

instance (least : Int64) (b : Box) (instant : ℚ) : Decidable (b.Spans least instant) :=
  inferInstanceAs (Decidable (_ ∧ _))

/-- Boxes one of which ends before the other starts share no instant. -/
theorem Box.not_spans_and_spans {least : Int64} {a b : Box}
    (h : a.finish least ≤ b.start.toInt ∨ b.finish least ≤ a.start.toInt) (instant : ℚ) :
    ¬ (a.Spans least instant ∧ b.Spans least instant) := by
  rintro ⟨⟨ha, ha'⟩, hb, hb'⟩
  rcases h with h | h
  · exact absurd (Int.cast_le.mpr h) (hb.trans_lt ha').not_ge
  · exact absurd (Int.cast_le.mpr h) (ha.trans_lt hb').not_ge

namespace Packing

/-! ### The number of columns of `packWith` -/

/-- How many boxes, of those placed before the one at `i`, have not ended when it starts. -/
def unended (bottom : Box → ℤ) (least : Int64) (boxes : List Box) (i : Fin boxes.length) : ℕ :=
  (Finset.univ.filter fun j =>
    Before least boxes j i ∧ (boxes.get i).start.toInt < bottom (boxes.get j)).card

/-- How many boxes take up an instant. -/
def depth (least : Int64) (boxes : List Box) (instant : ℚ) : ℕ :=
  (Finset.univ.filter fun i : Fin boxes.length => (boxes.get i).Spans least instant).card

variable {bottom : Box → ℤ} {least : Int64} {boxes : List Box}

theorem count_packWith_le_iff (bottom : Box → ℤ) (least : Int64) (boxes : List Box) (n : ℕ) :
    (packWith bottom least boxes).count ≤ n ↔ ∀ i, unended bottom least boxes i + 1 ≤ n := by
  show (placeAll bottom [] (order least boxes)).2.length ≤ n ↔ _
  rw [(underway_order bottom least boxes).length_le_iff]
  have hunended : ∀ {i past rest}, order least boxes = past ++ numbered boxes i :: rest →
      past.countP (fun q => decide ((boxes.get i).start.toInt < bottom q.1)) =
        unended bottom least boxes i := by
    intro i past rest hsplit
    exact countP_of_order_eq_append hsplit fun q => (boxes.get i).start.toInt < bottom q.1
  constructor
  · rintro ⟨-, h⟩ i
    obtain ⟨past, rest, hsplit⟩ := List.append_of_mem (mem_order.mpr ⟨i, rfl⟩)
    have hi := h past (numbered boxes i) rest hsplit
    rw [← hunended hsplit]
    exact hi
  · intro h
    refine ⟨by simp, fun past p rest hsplit => ?_⟩
    obtain ⟨i, rfl⟩ := mem_order.mp (hsplit ▸ List.mem_append_right past (List.mem_cons_self ..))
    have hi := h i
    rw [← hunended hsplit] at hi
    exact hi

/-- **The number of columns is the greatest number of boxes that come together.** -/
theorem isGreatest_count_packWith (bottom : Box → ℤ) (least : Int64) (hboxes : boxes ≠ []) :
    IsGreatest (Set.range fun i => unended bottom least boxes i + 1)
      (packWith bottom least boxes).count := by
  have hle := (count_packWith_le_iff bottom least boxes _).mp le_rfl
  refine ⟨?_, ?_⟩
  · -- If no box came together with so many, one column less would do.
    by_contra hrange
    have hlt : ∀ i, unended bottom least boxes i + 1 ≤ (packWith bottom least boxes).count - 1 := by
      intro i
      have hne : unended bottom least boxes i + 1 ≠ (packWith bottom least boxes).count :=
        fun heq => hrange ⟨i, heq⟩
      have := hle i
      omega
    have hcount := (count_packWith_le_iff bottom least boxes _).mpr hlt
    have hfirst := hle ⟨0, List.length_pos_of_ne_nil hboxes⟩
    omega
  · rintro _ ⟨i, rfl⟩
    exact hle i

/-- **Boxes need a column each** if the last of them in pack order finds none of the others
ended. -/
theorem card_le_count {crowd : Finset (Fin boxes.length)}
    (h : ∀ k ∈ crowd, (∀ j ∈ crowd, j ≠ k → Before least boxes j k) →
      ∀ j ∈ crowd, j ≠ k → (boxes.get k).start.toInt < bottom (boxes.get j)) :
    crowd.card ≤ (packWith bottom least boxes).count := by
  rcases crowd.eq_empty_or_nonempty with rfl | hne
  · exact Nat.zero_le _
  · obtain ⟨k, hk, hlast⟩ := crowd.exists_max_image (fun j => key least (numbered boxes j)) hne
    have hbefore : ∀ j ∈ crowd, j ≠ k → Before least boxes j k := fun j hj hjk =>
      (hlast j hj).lt_of_ne (key_ne_of_ne hjk)
    have hothers : crowd.erase k ⊆ Finset.univ.filter fun j =>
        Before least boxes j k ∧ (boxes.get k).start.toInt < bottom (boxes.get j) := by
      intro j hj
      obtain ⟨hjk, hj⟩ := Finset.mem_erase.mp hj
      exact Finset.mem_filter.mpr ⟨Finset.mem_univ j, hbefore j hj hjk, h k hk hbefore j hj hjk⟩
    calc crowd.card = (crowd.erase k).card + 1 := (Finset.card_erase_add_one hk).symm
      _ ≤ unended bottom least boxes k + 1 := Nat.add_le_add_right (Finset.card_le_card hothers) 1
      _ ≤ (packWith bottom least boxes).count :=
        (count_packWith_le_iff bottom least boxes _).mp le_rfl k

/-! ### Boxes that share an instant -/

/-- For a box that starts before the last second of the range, to end after it with clamped ends is
to end after it. -/
theorem lt_bottom_iff {a b : Box} (h : a.start ≠ Int64.maxValue) :
    a.start.toInt < b.bottom least ↔ a.start.toInt < b.finish least := by
  rw [Box.bottom_eq_clamp, ← not_le, ← not_le, clamp_le_iff h]

/-- The boxes that come together all take up the second at which the last one starts. -/
theorem unended_add_one_le (h : ∀ b ∈ boxes, 0 < b.height least ∧ b.start ≠ Int64.maxValue)
    (i : Fin boxes.length) :
    unended (Box.bottom least) least boxes i + 1 ≤ depth least boxes (boxes.get i).start.toInt := by
  -- The box at `i` is one more, since it is not placed before itself.
  have hi : i ∉ Finset.univ.filter fun j =>
      Before least boxes j i ∧ (boxes.get i).start.toInt < (boxes.get j).bottom least := by
    simp [not_before_self]
  rw [unended, ← Finset.card_insert_of_notMem hi]
  refine Finset.card_le_card fun j hj => ?_
  simp only [Finset.mem_insert, Finset.mem_filter, Finset.mem_univ, true_and] at hj ⊢
  rw [Box.Spans, Int.cast_le, Int.cast_lt]
  rcases hj with rfl | ⟨hbefore, hend⟩
  · have hheight := (h (boxes.get j) (List.getElem_mem _)).1
    exact ⟨le_rfl, by rw [Box.finish]; omega⟩
  · exact ⟨start_le_start_of_before hbefore,
      (lt_bottom_iff (h (boxes.get i) (List.getElem_mem _)).2).mp hend⟩

/-- The boxes that take up an instant come together when the last of them is placed. -/
theorem depth_le_count (h : ∀ b ∈ boxes, 0 < b.height least ∧ b.start ≠ Int64.maxValue)
    (instant : ℚ) : depth least boxes instant ≤ (pack least boxes).count := by
  refine card_le_count fun i hi _ j hj _ => ?_
  simp only [Finset.mem_filter, Finset.mem_univ, true_and] at hi hj
  -- `i` starts no later than at the instant, and `j` goes on beyond it.
  rw [lt_bottom_iff (h (boxes.get i) (List.getElem_mem _)).2]
  exact_mod_cast hi.1.trans_lt hj.2

/-- Boxes that share an instant need a column each. -/
theorem depth_le_card_image {column : Fin boxes.length → ℕ}
    (h : ∀ i j, i ≠ j → column i = column j →
      ∀ instant, ¬ ((boxes.get i).Spans least instant ∧ (boxes.get j).Spans least instant))
    (instant : ℚ) : depth least boxes instant ≤ (Finset.univ.image column).card := by
  have hinj : Set.InjOn column
      (Finset.univ.filter fun i : Fin boxes.length => (boxes.get i).Spans least instant) := by
    intro i hi j hj hcolumn
    simp only [Finset.coe_filter, Finset.mem_univ, true_and, Set.mem_ofPred_eq] at hi hj
    by_contra hij
    exact h i j hij hcolumn instant ⟨hi, hj⟩
  rw [depth, ← Finset.card_image_of_injOn hinj]
  exact Finset.card_le_card (Finset.image_subset_image (Finset.filter_subset _ _))

/-! ### The number of columns of `pack` -/

/-- **The number of columns is exact and optimal.** It is the greatest number of boxes that come
together.  If every box has some height and starts before the last second of the range, it is also
the greatest number of boxes that share an instant, and no columns in which boxes do not overlap are
fewer. -/
theorem isGreatest_count_pack (least : Int64) (boxes : List Box) (hboxes : boxes ≠ []) :
    IsGreatest (Set.range fun i => unended (Box.bottom least) least boxes i + 1)
      (pack least boxes).count ∧
    ((∀ b ∈ boxes, 0 < b.height least ∧ b.start ≠ Int64.maxValue) →
      IsGreatest (Set.range (depth least boxes)) (pack least boxes).count ∧
      ∀ column : Fin boxes.length → ℕ,
        (∀ i j, i ≠ j → column i = column j →
          ∀ instant, ¬ ((boxes.get i).Spans least instant ∧ (boxes.get j).Spans least instant)) →
        (pack least boxes).count ≤ (Finset.univ.image column).card) := by
  have hcount := isGreatest_count_packWith (Box.bottom least) least hboxes
  refine ⟨hcount, fun h => ?_⟩
  -- The box with which most come together starts at an instant that as many boxes share.
  obtain ⟨i, hi⟩ : ∃ i, unended (Box.bottom least) least boxes i + 1 = (pack least boxes).count :=
    hcount.1
  have hdepth : depth least boxes (boxes.get i).start.toInt = (pack least boxes).count := by
    apply le_antisymm (depth_le_count h _)
    rw [← hi]
    exact unended_add_one_le h i
  refine ⟨⟨⟨_, hdepth⟩, ?_⟩, fun column hcolumn => ?_⟩
  · rintro _ ⟨instant, rfl⟩
    exact depth_le_count h instant
  · rw [← hdepth]
    exact depth_le_card_image hcolumn _

/-- Four boxes of which two at most share an instant, and other columns for them. -/
theorem isGreatest_count_pack_four :
    let boxes : List Box := [⟨0, 1⟩, ⟨1, 2⟩, ⟨2, 2⟩, ⟨3, 1⟩]
    let column : Fin boxes.length → ℕ := ![7, 7, 4, 7]
    boxes ≠ [] ∧ (∀ b ∈ boxes, 0 < b.height 0 ∧ b.start ≠ Int64.maxValue) ∧
      (∀ i j, i ≠ j → column i = column j →
        ∀ instant, ¬ ((boxes.get i).Spans 0 instant ∧ (boxes.get j).Spans 0 instant)) ∧
      IsGreatest (Set.range fun i => unended (Box.bottom 0) 0 boxes i + 1) (pack 0 boxes).count ∧
      IsGreatest (Set.range (depth 0 boxes)) (pack 0 boxes).count ∧
      (pack 0 boxes).count ≤ (Finset.univ.image column).card := by
  intro boxes column
  have hne : boxes ≠ [] := by decide
  have hboxes : ∀ b ∈ boxes, 0 < b.height 0 ∧ b.start ≠ Int64.maxValue := by decide
  have hends : ∀ i j, i ≠ j → column i = column j →
      (boxes.get i).finish 0 ≤ (boxes.get j).start.toInt ∨
        (boxes.get j).finish 0 ≤ (boxes.get i).start.toInt := by
    decide
  have hcolumn : ∀ i j, i ≠ j → column i = column j →
      ∀ instant, ¬ ((boxes.get i).Spans 0 instant ∧ (boxes.get j).Spans 0 instant) :=
    fun i j hij hc instant => Box.not_spans_and_spans (hends i j hij hc) instant
  have h := isGreatest_count_pack 0 boxes hne
  exact ⟨hne, hboxes, hcolumn, h.1, (h.2 hboxes).1, (h.2 hboxes).2 column hcolumn⟩

end Packing

end Daybook
