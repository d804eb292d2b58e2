import Mathlib
import Daybook.Proofs.Packing.Order

/-!
# What bottoms stand for

While boxes are placed, all that is known of a column is its bottom.  `Tracks` says what the bottoms
tell of the boxes placed so far: from a second on at which no placed box has yet to start, a column
is free if all of its boxes have ended, and as many columns are taken as boxes have not ended.

One box keeps this (`Tracks.place`), so it holds all along a run, and gives the column of each box
(`Underway.isLeast_column`) and the number of columns in the end (`Underway.length_le_iff`) in terms
of the boxes before it.
-/

namespace Daybook.Packing

/-! ### Placing one box -/

/-- Whether the column with the given index has no bottom below `top`, as one that is not yet open
has. -/
def FreeAt (top : ℤ) (bottoms : List ℤ) (column : ℕ) : Prop :=
  ∀ b ∈ bottoms[column]?, b ≤ top

theorem isLeast_place (top bottom : ℤ) (bottoms : List ℤ) :
    IsLeast {column | FreeAt top bottoms column} (place top bottom bottoms).1 := by
  induction bottoms with
  | nil => exact ⟨by simp [FreeAt], fun _ _ => Nat.zero_le _⟩
  | cons b bs ih =>
    rw [place]
    by_cases hb : b ≤ top
    · rw [if_pos hb]
      exact ⟨by simpa [FreeAt] using hb, fun _ _ => Nat.zero_le _⟩
    · rw [if_neg hb]
      refine ⟨ih.1, ?_⟩
      intro column hcolumn
      cases column with
      | zero => exact absurd (by simpa [FreeAt] using hcolumn) hb
      | succ column => exact Nat.succ_le_succ (ih.2 hcolumn)

theorem getElem?_place (top bottom : ℤ) (bottoms : List ℤ) (column : ℕ) :
    (place top bottom bottoms).2[column]? =
      if column = (place top bottom bottoms).1 then some bottom else bottoms[column]? := by
  induction bottoms generalizing column with
  | nil => cases column <;> simp [place]
  | cons b bs ih =>
    rw [place]
    by_cases hb : b ≤ top
    · rw [if_pos hb]
      cases column <;> simp
    · rw [if_neg hb]
      cases column with
      | zero => simp
      | succ column => simpa using ih column

/-- From `top` on the new bottom counts in addition to those that were there. -/
theorem countP_place {top bottom second : ℤ} (bottoms : List ℤ) (h : top ≤ second) :
    (place top bottom bottoms).2.countP (fun b => decide (second < b)) =
      bottoms.countP (fun b => decide (second < b)) + if second < bottom then 1 else 0 := by
  induction bottoms with
  | nil => simp [place, List.countP_cons]
  | cons b bs ih =>
    rw [place]
    by_cases hb : b ≤ top
    · rw [if_pos hb, List.countP_cons, List.countP_cons]
      have hbs : ¬ second < b := by omega
      simp [hbs]
    · rw [if_neg hb, List.countP_cons, List.countP_cons, ih]
      omega

/-- A column is opened only if all are taken. -/
theorem length_place (top bottom : ℤ) (bottoms : List ℤ) :
    (place top bottom bottoms).2.length =
      max bottoms.length (bottoms.countP (fun b => decide (top < b)) + 1) := by
  induction bottoms with
  | nil => simp [place]
  | cons b bs ih =>
    have hle := List.countP_le_length (p := fun b => decide (top < b)) (l := bs)
    rw [place, List.countP_cons]
    by_cases hb : b ≤ top
    · have hbt : ¬ top < b := by omega
      simp only [if_pos hb, List.length_cons, hbt, decide_false, Bool.false_eq_true, if_false]
      omega
    · have hbt : top < b := by omega
      simp only [if_neg hb, List.length_cons, ih, hbt, decide_true, if_true]
      omega

theorem lt_length_place (top bottom : ℤ) (bottoms : List ℤ) :
    (place top bottom bottoms).1 < (place top bottom bottoms).2.length := by
  have h := getElem?_place top bottom bottoms (place top bottom bottoms).1
  rw [if_pos rfl] at h
  exact (List.getElem?_eq_some_iff.mp h).1

/-- A column that is open behind a box was open before it, or is the one the box is in. -/
theorem lt_length_or_eq_of_lt_length_place {top bottom : ℤ} {bottoms : List ℤ} {c : ℕ}
    (h : c < (place top bottom bottoms).2.length) :
    c < bottoms.length ∨ (place top bottom bottoms).1 = c := by
  have hplace := getElem?_place top bottom bottoms c
  by_cases hc : c = (place top bottom bottoms).1
  · exact Or.inr hc.symm
  · rw [if_neg hc, List.getElem?_eq_getElem h] at hplace
    exact Or.inl (List.getElem?_eq_some_iff.mp hplace.symm).1

/-! ### What bottoms stand for -/

/-- **What bottoms tell of the boxes placed so far**, when `column` gives the columns by index. -/
structure Tracks (bottom : Box → ℤ) (column : ℕ → ℕ) (past : List (Box × ℕ)) (bottoms : List ℤ) :
    Prop where
  /-- A column is free if all of its boxes have ended. -/
  freeAt_iff : ∀ top, (∀ p ∈ past, p.1.start.toInt ≤ top) →
    ∀ c, FreeAt top bottoms c ↔ ∀ p ∈ past, column p.2 = c → bottom p.1 ≤ top
  /-- There are as many taken columns as boxes that have not ended. -/
  countP_eq : ∀ top, (∀ p ∈ past, p.1.start.toInt ≤ top) →
    bottoms.countP (fun b => decide (top < b)) = past.countP fun p => decide (top < bottom p.1)

variable {bottom : Box → ℤ} {column : ℕ → ℕ} {past : List (Box × ℕ)} {bottoms : List ℤ}

theorem tracks_nil (bottom : Box → ℤ) (column : ℕ → ℕ) : Tracks bottom column [] [] where
  freeAt_iff := by simp [FreeAt]
  countP_eq := by simp

/-- **The step**: placing a box keeps what the bottoms stand for.  The boxes that its column had
before are no longer seen in the bottoms, but they end before it starts, and so before any later
box does. -/
theorem Tracks.place {p : Box × ℕ} (h : Tracks bottom column past bottoms)
    (hstart : ∀ q ∈ past, q.1.start.toInt ≤ p.1.start.toInt)
    (hcolumn : column p.2 = (place p.1.start.toInt (bottom p.1) bottoms).1) :
    Tracks bottom column (past ++ [p]) (place p.1.start.toInt (bottom p.1) bottoms).2 := by
  constructor
  · intro top htop c
    have hpast : ∀ q ∈ past, q.1.start.toInt ≤ top := fun q hq => htop q (by simp [hq])
    have hp : p.1.start.toInt ≤ top := htop p (by simp)
    simp only [List.forall_mem_append, List.forall_mem_singleton]
    rw [FreeAt, getElem?_place, ← hcolumn]
    by_cases hc : c = column p.2
    · -- The column was free, so the boxes that the new bottom hides have ended by `top`.
      have hfree : FreeAt p.1.start.toInt bottoms c := by
        rw [hc, hcolumn]
        exact (isLeast_place _ _ _).1
      have hended := (h.freeAt_iff _ hstart c).mp hfree
      rw [if_pos hc]
      constructor
      · intro hb
        exact ⟨fun q hq hqc => (hended q hq hqc).trans hp, fun _ => hb _ rfl⟩
      · rintro ⟨-, hb⟩ b hbot
        rw [← Option.mem_some.mp hbot]
        exact hb hc.symm
    · rw [if_neg hc, ← FreeAt, h.freeAt_iff top hpast c]
      constructor
      · intro hq
        exact ⟨hq, fun hpc => absurd hpc.symm hc⟩
      · exact fun hq => hq.1
  · intro top htop
    have hpast : ∀ q ∈ past, q.1.start.toInt ≤ top := fun q hq => htop q (by simp [hq])
    rw [countP_place bottoms (htop p (by simp)), h.countP_eq top hpast, List.countP_append,
      List.countP_singleton]
    simp

/-! ### A whole run -/

theorem map_fst_placeAll (bottom : Box → ℤ) (bottoms : List ℤ) (boxes : List (Box × ℕ)) :
    (placeAll bottom bottoms boxes).1.map Prod.fst = boxes.map Prod.snd := by
  induction boxes generalizing bottoms with
  | nil => rfl
  | cons p rest ih => simp [placeAll, ih]

/-- Columns are never closed. -/
theorem length_le_placeAll (bottom : Box → ℤ) (bottoms : List ℤ) (boxes : List (Box × ℕ)) :
    bottoms.length ≤ (placeAll bottom bottoms boxes).2.length := by
  induction boxes generalizing bottoms with
  | nil => exact le_rfl
  | cons p rest ih =>
    have hplace : bottoms.length ≤ (place p.1.start.toInt (bottom p.1) bottoms).2.length := by
      rw [length_place]
      exact le_max_left _ _
    exact hplace.trans (ih _)

/-- Boxes are put into columns that are open in the end. -/
theorem lt_length_placeAll (bottom : Box → ℤ) (bottoms : List ℤ) (boxes : List (Box × ℕ)) :
    ∀ a ∈ (placeAll bottom bottoms boxes).1, a.2 < (placeAll bottom bottoms boxes).2.length := by
  induction boxes generalizing bottoms with
  | nil => simp [placeAll]
  | cons p rest ih =>
    rw [placeAll]
    intro a ha
    rcases List.mem_cons.mp ha with rfl | ha
    · exact (lt_length_place _ _ _).trans_le (length_le_placeAll _ _ _)
    · exact ih _ a ha

/-- A column that is open in the end was open before, or has one of the boxes. -/
theorem lt_length_or_exists_of_lt_length_placeAll {bottom : Box → ℤ} {bottoms : List ℤ}
    {boxes : List (Box × ℕ)} {c : ℕ} (h : c < (placeAll bottom bottoms boxes).2.length) :
    c < bottoms.length ∨ ∃ a ∈ (placeAll bottom bottoms boxes).1, a.2 = c := by
  induction boxes generalizing bottoms with
  | nil => exact Or.inl h
  | cons p rest ih =>
    rcases ih h with hopen | ⟨a, ha, hc⟩
    · rcases lt_length_or_eq_of_lt_length_place hopen with hlt | hc
      · exact Or.inl hlt
      · exact Or.inr ⟨(p.2, _), by simp [placeAll], hc⟩
    · exact Or.inr ⟨a, by simp [placeAll, ha], hc⟩

/-- **A run under way**: `past` has been placed and `boxes` are yet to come. -/
structure Underway (bottom : Box → ℤ) (column : ℕ → ℕ) (past : List (Box × ℕ)) (bottoms : List ℤ)
    (boxes : List (Box × ℕ)) : Prop where
  /-- The bottoms stand for the boxes placed so far. -/
  tracks : Tracks bottom column past bottoms
  /-- The boxes come by start. -/
  pairwise_start : (past ++ boxes).Pairwise fun p q => p.1.start.toInt ≤ q.1.start.toInt
  /-- The columns of those to come are the ones the run will give them. -/
  column_eq : ∀ a ∈ (placeAll bottom bottoms boxes).1, column a.1 = a.2

namespace Underway

variable {b : Box × ℕ} {boxes : List (Box × ℕ)}

theorem start_le (h : Underway bottom column past bottoms (b :: boxes)) :
    ∀ q ∈ past, q.1.start.toInt ≤ b.1.start.toInt := fun q hq =>
  (List.pairwise_append.mp h.pairwise_start).2.2 q hq b (by simp)

theorem column_head (h : Underway bottom column past bottoms (b :: boxes)) :
    column b.2 = (place b.1.start.toInt (bottom b.1) bottoms).1 :=
  h.column_eq (b.2, _) (by simp [placeAll])

theorem next (h : Underway bottom column past bottoms (b :: boxes)) :
    Underway bottom column (past ++ [b]) (place b.1.start.toInt (bottom b.1) bottoms).2 boxes where
  tracks := h.tracks.place h.start_le h.column_head
  pairwise_start := by simpa using h.pairwise_start
  column_eq := fun a ha => h.column_eq a (by simp [placeAll, ha])

/-- **The column of a box** in a run is the least one all of whose boxes before it end before it
starts. -/
theorem isLeast_column (h : Underway bottom column past bottoms boxes)
    {front rest : List (Box × ℕ)} {p : Box × ℕ} (hsplit : boxes = front ++ p :: rest) :
    IsLeast {c | ∀ q ∈ past ++ front, column q.2 = c → bottom q.1 ≤ p.1.start.toInt}
      (column p.2) := by
  induction boxes generalizing past bottoms front with
  | nil => simp at hsplit
  | cons b boxes ih =>
    rcases List.cons_eq_append_iff.mp hsplit with ⟨rfl, hcons⟩ | ⟨front', rfl, hrest⟩
    · obtain ⟨rfl, -⟩ := List.cons.inj hcons
      have hleast := isLeast_place p.1.start.toInt (bottom p.1) bottoms
      rw [← h.column_head] at hleast
      rw [List.append_nil]
      simpa only [h.tracks.freeAt_iff _ h.start_le] using hleast
    · simpa using ih h.next hrest

/-- **The number of columns in the end** of a run is the greatest number of boxes that have not
ended when one of them starts, together with that one. -/
theorem length_le_iff (h : Underway bottom column past bottoms boxes) (n : ℕ) :
    (placeAll bottom bottoms boxes).2.length ≤ n ↔ bottoms.length ≤ n ∧
      ∀ front p rest, boxes = front ++ p :: rest →
        (past ++ front).countP (fun q => decide (p.1.start.toInt < bottom q.1)) + 1 ≤ n := by
  induction boxes generalizing past bottoms with
  | nil => simp [placeAll]
  | cons b boxes ih =>
    show (placeAll bottom (place b.1.start.toInt (bottom b.1) bottoms).2 boxes).2.length ≤ n ↔ _
    -- The first box opens a column if all are taken, and `countP_eq` counts these in boxes.
    rw [ih h.next, length_place, max_le_iff, h.tracks.countP_eq _ h.start_le]
    constructor
    · rintro ⟨⟨hlen, hfirst⟩, hothers⟩
      refine ⟨hlen, fun front p rest hsplit => ?_⟩
      rcases List.cons_eq_append_iff.mp hsplit with ⟨rfl, hcons⟩ | ⟨front', rfl, hrest⟩
      · obtain ⟨rfl, -⟩ := List.cons.inj hcons
        simpa using hfirst
      · simpa using hothers front' p rest hrest
    · rintro ⟨hlen, hall⟩
      refine ⟨⟨hlen, by simpa using hall [] b boxes rfl⟩, fun front p rest hsplit => ?_⟩
      have hbox := hall (b :: front) p rest (by rw [hsplit, List.cons_append])
      simpa using hbox

end Underway

end Daybook.Packing
