import Mathlib
import Daybook.Proofs.Packing.Ongoing

/-!
# One more box

Where the boxes of a list are found in a longer one that has them in the same order is said by an
embedding of indices.  It keeps pack order (`before_embedding_iff`), and a box that has only boxes
of the list before it is in the same column in both (`columnAt_embedding`), since packing never
looks ahead.

The boxes behind may get any other columns, but the number of columns is a matter of how many boxes
are ongoing at one second (`count_pack_le_iff`, `card_ongoingAt_le_count`).  One more box adds at
most one to that (`count_le_count_add_one`), so when it is put in at an index little changes
(`pack_insertIdx`).
-/

namespace Daybook.Packing

/-! ### A list of boxes within a longer one -/

section Embedding

variable {bottom : Box → ℤ} {least : Int64} {boxes boxes' : List Box}
  {e : Fin boxes.length ↪o Fin boxes'.length}

theorem before_embedding_iff (he : ∀ i, boxes.get i = boxes'.get (e i))
    {i j : Fin boxes.length} : Before least boxes' (e i) (e j) ↔ Before least boxes i j := by
  rw [before_iff, before_iff, ← he, ← he, e.lt_iff_lt]

/-- **Packing never looks ahead**: boxes that have the same boxes before them are in the same
column. -/
theorem columnAt_embedding (he : ∀ i, boxes.get i = boxes'.get (e i)) {i : Fin boxes.length}
    (h : ∀ j', Before least boxes' j' (e i) → ∃ j, e j = j') :
    columnAt bottom least boxes' (e i) = columnAt bottom least boxes i := by
  induction i using before_induction least with
  | step i ih =>
    have hcolumn : ∀ j, Before least boxes j i →
        columnAt bottom least boxes' (e j) = columnAt bottom least boxes j := fun j hj =>
      ih j hj fun k hk => h k (lt_trans hk ((before_embedding_iff he).mpr hj))
    refine columnAt_congr fun c => ?_
    rw [← he]
    constructor
    · intro hfree j hj hc
      rw [he j]
      exact hfree (e j) ((before_embedding_iff he).mpr hj) ((hcolumn j hj).trans hc)
    · intro hfree j' hj' hc
      obtain ⟨j, rfl⟩ := h j' hj'
      have hj := (before_embedding_iff he).mp hj'
      rw [← he j]
      exact hfree j hj ((hcolumn j hj).symm.trans hc)

theorem embedding_mem_ongoing_iff (he : ∀ i, boxes.get i = boxes'.get (e i))
    {i j : Fin boxes.length} : e j ∈ ongoing least boxes' (e i) ↔ j ∈ ongoing least boxes i := by
  rw [mem_ongoing, mem_ongoing, ← he, ← he, e.injective.ne_iff]

/-- More boxes take no fewer columns. -/
theorem count_le_count_of_embedding (least : Int64) (he : ∀ i, boxes.get i = boxes'.get (e i)) :
    (pack least boxes).count ≤ (pack least boxes').count := by
  rw [count_pack_le_iff]
  intro i
  refine le_trans (Nat.add_le_add_right ?_ 1) (card_ongoing_add_one_le least boxes' (e i))
  refine Finset.card_le_card_of_injOn e (fun j hj => ?_) e.injective.injOn
  exact (embedding_mem_ongoing_iff he).mpr hj

/-- **One more box takes one more column at most.** -/
theorem count_le_count_add_one (least : Int64) (he : ∀ i, boxes.get i = boxes'.get (e i))
    {new : Fin boxes'.length} (hnew : ∀ j', j' = new ∨ ∃ j, e j = j') :
    (pack least boxes').count ≤ (pack least boxes).count + 1 := by
  rw [count_pack_le_iff]
  intro j'
  refine Nat.add_le_add_right ?_ 1
  rcases hnew j' with rfl | ⟨i, rfl⟩
  · -- The boxes that are ongoing when the new one starts are so in the list without it.
    refine le_trans ?_ (card_ongoingAt_le_count least boxes (boxes'.get j').start.toInt)
    refine Finset.card_le_card_of_surjOn e fun k hk => ?_
    obtain ⟨hne, hongoing⟩ := mem_ongoing.mp hk
    obtain ⟨j, rfl⟩ := (hnew k).resolve_left hne
    rw [← he j] at hongoing
    exact ⟨j, Finset.mem_filter.mpr ⟨Finset.mem_univ j, hongoing⟩, rfl⟩
  · -- The new one is all that can be ongoing in addition when another box starts.
    have hsub : ongoing least boxes' (e i) ⊆ insert new ((ongoing least boxes i).image e) := by
      intro k hk
      rcases hnew k with rfl | ⟨j, rfl⟩
      · exact Finset.mem_insert_self ..
      · refine Finset.mem_insert_of_mem (Finset.mem_image_of_mem e ?_)
        exact (embedding_mem_ongoing_iff he).mp hk
    calc (ongoing least boxes' (e i)).card
        ≤ ((ongoing least boxes i).image e).card + 1 :=
          (Finset.card_le_card hsub).trans (Finset.card_insert_le ..)
      _ ≤ (ongoing least boxes i).card + 1 := Nat.add_le_add_right Finset.card_image_le 1
      _ ≤ (pack least boxes).count := card_ongoing_add_one_le least boxes i

end Embedding

/-! ### A box put in at an index -/

/-- The index that a box has when another one has been put in at `k`. -/
def pushed (k index : ℕ) : ℕ :=
  if index < k then index else index + 1

theorem pushed_strictMono (k : ℕ) : StrictMono (pushed k) := by
  intro i j hij
  rw [pushed, pushed]
  split_ifs <;> omega

section InsertIdx

variable {boxes : List Box} {k : ℕ}

theorem lt_length_insertIdx (b : Box) (hk : k ≤ boxes.length) :
    k < (boxes.insertIdx k b).length := by
  rw [List.length_insertIdx_of_le_length hk]
  omega

theorem pushed_lt_length_insertIdx (b : Box) (hk : k ≤ boxes.length) (i : Fin boxes.length) :
    pushed k i < (boxes.insertIdx k b).length := by
  rw [List.length_insertIdx_of_le_length hk, pushed]
  split_ifs <;> omega

/-- Where a box of the list is when another one has been put in. -/
def oldAt (b : Box) (hk : k ≤ boxes.length) :
    Fin boxes.length ↪o Fin (boxes.insertIdx k b).length :=
  OrderEmbedding.ofStrictMono (fun i => ⟨pushed k i, pushed_lt_length_insertIdx b hk i⟩)
    fun _ _ hij => pushed_strictMono k hij

/-- Where the new one is. -/
def newAt (b : Box) (hk : k ≤ boxes.length) : Fin (boxes.insertIdx k b).length :=
  ⟨k, lt_length_insertIdx b hk⟩

theorem get_oldAt (b : Box) (hk : k ≤ boxes.length) (i : Fin boxes.length) :
    boxes.get i = (boxes.insertIdx k b).get (oldAt b hk i) := by
  have hget : (boxes.insertIdx k b)[(oldAt b hk i : ℕ)]? = boxes[(i : ℕ)]? := by
    show (boxes.insertIdx k b)[pushed k i]? = boxes[(i : ℕ)]?
    rw [pushed]
    split_ifs with hi
    · exact List.getElem?_insertIdx_of_lt hi
    · exact List.getElem?_insertIdx_of_gt (by omega)
  rw [List.getElem?_eq_getElem (oldAt b hk i).isLt, List.getElem?_eq_getElem i.isLt,
    Option.some_inj] at hget
  exact hget.symm

theorem numbered_oldAt (b : Box) (hk : k ≤ boxes.length) (i : Fin boxes.length) :
    numbered (boxes.insertIdx k b) (oldAt b hk i) = (boxes.get i, pushed k i) :=
  Prod.ext (get_oldAt b hk i).symm rfl

theorem numbered_newAt (b : Box) (hk : k ≤ boxes.length) :
    numbered (boxes.insertIdx k b) (newAt b hk) = (b, k) :=
  Prod.ext (List.getElem_insertIdx_self _) rfl

theorem eq_newAt_or_exists_oldAt (b : Box) (hk : k ≤ boxes.length)
    (j : Fin (boxes.insertIdx k b).length) : j = newAt b hk ∨ ∃ i, oldAt b hk i = j := by
  have hj : (j : ℕ) < boxes.length + 1 := by
    rw [← List.length_insertIdx_of_le_length hk b]
    exact j.isLt
  rcases lt_trichotomy (j : ℕ) k with hlt | heq | hgt
  · exact Or.inr ⟨⟨j, by omega⟩, Fin.ext (if_pos hlt)⟩
  · exact Or.inl (Fin.ext heq)
  · refine Or.inr ⟨⟨j - 1, by omega⟩, Fin.ext ?_⟩
    show pushed k (j - 1) = j
    rw [pushed, if_neg (by omega)]
    omega

end InsertIdx

/-- **One more box disturbs little.**  When a box is put in at an index, the boxes that come before
it in pack order keep their columns, and there is one column more at most. -/
theorem pack_insertIdx (least : Int64) {boxes : List Box} {k : ℕ} (hk : k ≤ boxes.length)
    (b : Box) :
    (∀ i : Fin boxes.length, key least (boxes.get i, pushed k i) < key least (b, k) →
      (pack least (boxes.insertIdx k b)).columnOf? (pushed k i) =
        (pack least boxes).columnOf? i) ∧
    ((pack least (boxes.insertIdx k b)).count = (pack least boxes).count ∨
      (pack least (boxes.insertIdx k b)).count = (pack least boxes).count + 1) := by
  have hget := get_oldAt b hk
  have hcover := eq_newAt_or_exists_oldAt b hk
  constructor
  · intro i hi
    have hcolumn : columnAt (Box.bottom least) least (boxes.insertIdx k b) (oldAt b hk i) =
        columnAt (Box.bottom least) least boxes i := by
      refine columnAt_embedding hget fun j hj => (hcover j).resolve_left ?_
      rintro rfl
      rw [Before, numbered_newAt, numbered_oldAt] at hj
      exact lt_asymm hi hj
    rw [pack, pack, columnOf?_packWith, ← hcolumn]
    exact columnOf?_packWith _ _ _ (oldAt b hk i)
  · have hle := count_le_count_of_embedding least hget
    have hge := count_le_count_add_one least hget hcover
    omega

/-- A box put in between two others, with the start and the height of the first, which it comes
after. -/
theorem pack_insertIdx_twin :
    let boxes : List Box := [⟨0, 2⟩, ⟨1, 2⟩]
    1 ≤ boxes.length ∧ key 0 (⟨0, 2⟩, pushed 1 0) < key 0 (⟨0, 2⟩, 1) ∧
      (pack 0 (boxes.insertIdx 1 ⟨0, 2⟩)).columnOf? (pushed 1 0) = (pack 0 boxes).columnOf? 0 ∧
      ((pack 0 (boxes.insertIdx 1 ⟨0, 2⟩)).count = (pack 0 boxes).count ∨
        (pack 0 (boxes.insertIdx 1 ⟨0, 2⟩)).count = (pack 0 boxes).count + 1) := by
  intro boxes
  have hk : 1 ≤ boxes.length := by decide
  have hkey : key 0 (⟨0, 2⟩, pushed 1 0) < key 0 (⟨0, 2⟩, 1) := by decide
  obtain ⟨hcolumns, hcount⟩ := pack_insertIdx 0 hk ⟨0, 2⟩
  exact ⟨hk, hkey, hcolumns 0 hkey, hcount⟩

end Daybook.Packing
