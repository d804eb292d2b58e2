import Mathlib
import Daybook.Packing

/-!
# The order in which boxes are placed

`Packing.order` is reached by two stable sorts, and is the order of a single key: start, then
height from the tallest down, then index (`pairwise_order`).  Stability enters once, in
`pairwise_mergeSort_toLex`: a stable sort by `f` of a list that ascends in `g` ascends in the pair
of both.

Since no two boxes have the same key, the boxes in front of one in the list are those with a
smaller key (`perm_of_order_eq_append`).
-/

namespace Daybook.Packing

/-! ### Stable sorts -/

/-- **A stable sort refines the order it finds.** -/
theorem pairwise_mergeSort_toLex {α κ ι : Type*} [LinearOrder κ] [Preorder ι] (f : α → κ)
    (g : α → ι) (le : α → α → Bool) (hle : ∀ a b, le a b = true ↔ f a ≤ f b) {l : List α}
    (hl : l.Pairwise fun a b => g a < g b) :
    (l.mergeSort le).Pairwise fun a b => toLex (f a, g a) < toLex (f b, g b) := by
  have htrans : ∀ a b c, le a b = true → le b c = true → le a c = true := by
    intro a b c hab hbc
    rw [hle] at hab hbc ⊢
    exact hab.trans hbc
  have htotal : ∀ a b, (le a b || le b a) = true := by
    intro a b
    rw [Bool.or_eq_true, hle, hle]
    exact le_total (f a) (f b)
  induction l with
  | nil => simp
  | cons a t ih =>
    rw [List.pairwise_cons] at hl
    -- Sorting puts `a` somewhere into the sorted rest, in front of all that do not come before it.
    obtain ⟨s₁, s₂, hsort, hrest, hlt⟩ := List.mergeSort_cons htrans htotal a t
    have hsorted := List.pairwise_mergeSort htrans htotal (a :: t)
    have hih := ih hl.2
    rw [hsort] at hsorted ⊢
    rw [hrest] at hih
    rw [List.pairwise_append] at hih
    rw [List.pairwise_append, List.pairwise_cons] at hsorted ⊢
    have hmem : ∀ b ∈ s₂, b ∈ t := by
      intro b hb
      rw [← (List.mergeSort_perm t le).mem_iff, hrest]
      exact List.mem_append_right _ hb
    refine ⟨hih.1, ⟨?_, hih.2.1⟩, ?_⟩
    · -- Behind `a`, what is not greater in `f` was behind `a` in the list as well.
      intro b hb
      have hab : f a ≤ f b := (hle a b).mp (hsorted.2.1.1 b hb)
      rw [Prod.Lex.toLex_lt_toLex]
      rcases hab.lt_or_eq with h | h
      · exact Or.inl h
      · exact Or.inr ⟨h, hl.1 b (hmem b hb)⟩
    · -- What stands in front of `a` is smaller in `f`: an equal one would be overtaken.
      intro b hb c hc
      rcases List.mem_cons.mp hc with rfl | hc
      · rw [Prod.Lex.toLex_lt_toLex]
        left
        have hcb := hlt b hb
        rw [Bool.not_eq_true', ← Bool.not_eq_true, hle, not_le] at hcb
        exact hcb
      · exact hih.2.2 b hb c hc

/-! ### The key of a box -/

/-- What boxes are ordered by: the start, then the height from the tallest down, then the index. -/
def key (least : Int64) (p : Box × ℕ) : ℤ ×ₗ ℤ ×ₗ ℕ :=
  toLex (p.1.start.toInt, toLex (-p.1.height least, p.2))

/-- A box with its index. -/
def numbered (boxes : List Box) (i : Fin boxes.length) : Box × ℕ :=
  (boxes.get i, i)

/-- **Pack order.** Whether the box at `i` is placed before the one at `j`. -/
def Before (least : Int64) (boxes : List Box) (i j : Fin boxes.length) : Prop :=
  key least (numbered boxes i) < key least (numbered boxes j)

variable {least : Int64} {boxes : List Box}

instance (i j : Fin boxes.length) : Decidable (Before least boxes i j) :=
  inferInstanceAs (Decidable (_ < _))

/-- Pack order in terms of start, height and index. -/
theorem before_iff {i j : Fin boxes.length} :
    Before least boxes i j ↔
      (boxes.get i).start.toInt < (boxes.get j).start.toInt ∨
        (boxes.get i).start.toInt = (boxes.get j).start.toInt ∧
          ((boxes.get j).height least < (boxes.get i).height least ∨
            (boxes.get i).height least = (boxes.get j).height least ∧ i < j) := by
  simp only [Before, key, numbered, Prod.Lex.toLex_lt_toLex, Int.neg_lt_neg_iff, Int.neg_inj,
    Fin.lt_def]

theorem key_ne_of_ne {i j : Fin boxes.length} (h : i ≠ j) :
    key least (numbered boxes i) ≠ key least (numbered boxes j) := by
  intro hkey
  simp only [key, numbered, toLex_inj, Prod.mk.injEq] at hkey
  exact h (Fin.ext hkey.2.2)

theorem not_before_self (i : Fin boxes.length) : ¬ Before least boxes i i :=
  lt_irrefl _

/-- Of two different boxes one is placed before the other. -/
theorem before_or_before_of_ne (least : Int64) {i j : Fin boxes.length} (h : i ≠ j) :
    Before least boxes i j ∨ Before least boxes j i :=
  lt_or_gt_of_ne (key_ne_of_ne h)

theorem start_le_start_of_key_lt {p q : Box × ℕ} (h : key least p < key least q) :
    p.1.start.toInt ≤ q.1.start.toInt := by
  rw [key, key, Prod.Lex.toLex_lt_toLex] at h
  rcases h with h | h
  · exact h.le
  · exact h.1.le

theorem start_le_start_of_before {i j : Fin boxes.length} (h : Before least boxes i j) :
    (boxes.get i).start.toInt ≤ (boxes.get j).start.toInt := by
  have hle := start_le_start_of_key_lt h
  exact hle

/-- Boxes are placed one after the other, so a property that passes on from the boxes before one
holds of all. -/
theorem before_induction (least : Int64) {motive : Fin boxes.length → Prop}
    (step : ∀ i, (∀ j, Before least boxes j i → motive j) → motive i) (i : Fin boxes.length) :
    motive i := by
  have : IsTrans (Fin boxes.length) (Before least boxes) := ⟨fun _ _ _ h h' => lt_trans h h'⟩
  have : Std.Irrefl (Before least boxes) := ⟨not_before_self⟩
  have hwf : WellFounded (Before least boxes) := Finite.wellFounded_of_trans_of_irrefl _
  exact hwf.induction i step

/-! ### The list of boxes in pack order -/

theorem perm_order (least : Int64) (boxes : List Box) : (order least boxes).Perm boxes.zipIdx :=
  (List.mergeSort_perm _ _).trans (List.mergeSort_perm _ _)

theorem pairwise_order (least : Int64) (boxes : List Box) :
    (order least boxes).Pairwise fun p q => key least p < key least q := by
  -- The two passes add a component each, in front of the index.
  have hindex : boxes.zipIdx.Pairwise fun p q => p.2 < q.2 := by
    rw [← List.pairwise_map, List.zipIdx_map_snd]
    exact List.pairwise_lt_range'
  have hheight := pairwise_mergeSort_toLex (fun p : Box × ℕ => -p.1.height least) Prod.snd
    (fun p q => decide (q.1.height least ≤ p.1.height least)) (by simp) hindex
  exact pairwise_mergeSort_toLex (fun p : Box × ℕ => p.1.start.toInt) _
    (fun p q => decide (p.1.start.toInt ≤ q.1.start.toInt)) (by simp) hheight

/-- In a list that ascends, the members in front of one are those that are smaller. -/
theorem filter_eq_of_pairwise_append {α κ : Type*} [Preorder κ] [DecidableLT κ] (f : α → κ)
    {s t : List α} {a : α} (h : (s ++ a :: t).Pairwise fun p q => f p < f q) :
    (s ++ a :: t).filter (fun q => decide (f q < f a)) = s := by
  rw [List.pairwise_append, List.pairwise_cons] at h
  have hs : s.filter (fun q => decide (f q < f a)) = s := by
    rw [List.filter_eq_self]
    intro q hq
    simpa using h.2.2 q hq a (by simp)
  have ht : (a :: t).filter (fun q => decide (f q < f a)) = [] := by
    rw [List.filter_eq_nil_iff]
    intro q hq
    rcases List.mem_cons.mp hq with rfl | hq
    · simp
    · simpa using lt_asymm (h.2.1.1 q hq)
  rw [List.filter_append, hs, ht, List.append_nil]

theorem zipIdx_eq_map_finRange (boxes : List Box) :
    boxes.zipIdx = (List.finRange boxes.length).map (numbered boxes) := by
  apply List.ext_getElem <;> simp [numbered]

theorem mem_order {p : Box × ℕ} : p ∈ order least boxes ↔ ∃ i, numbered boxes i = p := by
  rw [(perm_order least boxes).mem_iff, zipIdx_eq_map_finRange, List.mem_map]
  simp

variable {i : Fin boxes.length} {past rest : List (Box × ℕ)}

/-- What stands in front of a box in pack order are the boxes that are placed before it. -/
theorem perm_of_order_eq_append (h : order least boxes = past ++ numbered boxes i :: rest) :
    past.Perm (((List.finRange boxes.length).filter fun j => decide (Before least boxes j i)).map
      (numbered boxes)) := by
  -- Filtering by the key gives `past` for the list in pack order, and the right hand side for the
  -- list as given.
  have hpast : (order least boxes).filter
      (fun q => decide (key least q < key least (numbered boxes i))) = past := by
    rw [h]
    exact filter_eq_of_pairwise_append (key least) (h ▸ pairwise_order least boxes)
  have hperm := (perm_order least boxes).filter
    fun q => decide (key least q < key least (numbered boxes i))
  rw [hpast, zipIdx_eq_map_finRange, List.filter_map] at hperm
  exact hperm

theorem mem_of_order_eq_append (h : order least boxes = past ++ numbered boxes i :: rest)
    {p : Box × ℕ} : p ∈ past ↔ ∃ j, Before least boxes j i ∧ numbered boxes j = p := by
  rw [(perm_of_order_eq_append h).mem_iff, List.mem_map]
  simp

theorem countP_of_order_eq_append (h : order least boxes = past ++ numbered boxes i :: rest)
    (p : Box × ℕ → Prop) [DecidablePred p] : past.countP (fun q => decide (p q)) =
      (Finset.univ.filter fun j => Before least boxes j i ∧ p (numbered boxes j)).card := by
  rw [(perm_of_order_eq_append h).countP_eq, List.countP_map, List.countP_filter,
    ← List.toFinset_finRange, (List.nodup_finRange _).card_eq_countP]
  refine List.countP_congr fun j _ => ?_
  simp [and_comm]

end Daybook.Packing
