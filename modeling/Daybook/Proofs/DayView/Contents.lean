import Mathlib
import Daybook.Proofs.DayView.Blocks

/-!
# What a view holds

A view holds the entries that lie within the day and nothing else, once each and as they came.  All
other entries leave no trace: a list with more of them, or with fewer, has the same view
(`build?_eq_of_outside`).  The columns that are counted are those that blocks are in
(`exists_column_eq`), and blocks of one column do not overlap (`entries_shown_in_order_apart`).
-/

namespace Daybook

/-! ### Entries outside the day -/

namespace DayBounds

variable {bounds : DayBounds} {entries entries' : List Entry}

theorem holds_iff {e : Entry} :
    bounds.holds e = true ↔ bounds.start ≤ e.start ∧ e.finish < bounds.finish := by
  rw [holds, decide_eq_true_eq]

/-- Whether the second list is the first one with one more entry, which does not lie within the
day. -/
def OneMoreOutside (bounds : DayBounds) (entries entries' : List Entry) : Prop :=
  ∃ front e rest, ¬ (bounds.start ≤ e.start ∧ e.finish < bounds.finish) ∧
    entries = front ++ rest ∧ entries' = front ++ e :: rest

theorem OneMoreOutside.filter_eq (h : bounds.OneMoreOutside entries entries') :
    entries.filter bounds.holds = entries'.filter bounds.holds := by
  obtain ⟨front, e, rest, hout, rfl, rfl⟩ := h
  have he : ¬ bounds.holds e = true := fun hholds => hout (holds_iff.mp hholds)
  rw [List.filter_append, List.filter_append, List.filter_cons_of_neg he]

/-- However many such entries are put in and taken out, the ones within the day stay the same. -/
theorem filter_eq_of_outside (h : Relation.EqvGen bounds.OneMoreOutside entries entries') :
    entries.filter bounds.holds = entries'.filter bounds.holds := by
  induction h with
  | rel _ _ hmore => exact hmore.filter_eq
  | refl _ => rfl
  | symm _ _ _ ih => exact ih.symm
  | trans _ _ _ _ _ ih ih' => exact ih.trans ih'

end DayBounds

namespace DayView

variable {z : Zone} {d : Date} {bounds : DayBounds} {least : Int64} {entries entries' : List Entry}

/-- **Entries outside the day leave no trace.** -/
theorem build?_eq_of_outside (hday : z.day? d = some bounds)
    (h : Relation.EqvGen bounds.OneMoreOutside entries entries') :
    build? d z least entries' = build? d z least entries := by
  rw [build?, build?, hday, Option.map_some, Option.map_some, ofBounds, ofBounds,
    DayBounds.filter_eq_of_outside h]

/-! ### Columns -/

/-- **Every column that is counted has a block.** -/
theorem exists_column_eq (date : Date) (bounds : DayBounds) (least : Int64) (entries : List Entry)
    {c : ℕ} (hc : c < (ofBounds date bounds least entries).columnCount) :
    ∃ b ∈ (ofBounds date bounds least entries).blocks, b.column = c := by
  have hcount : c < (packWith (Box.bottom least) least
      ((entries.filter bounds.holds).map Entry.box)).count := hc
  obtain ⟨i, hi⟩ := Packing.exists_columnAt_eq hcount
  -- The box is that of an entry, and the block of that entry is in the same column.
  have hlength : (i : ℕ) < (entries.filter bounds.holds).length := by
    simpa using i.isLt
  rw [blocks_ofBounds]
  exact ⟨_, List.mem_ofFn.mpr ⟨⟨i, hlength⟩, rfl⟩, hi⟩

/-! ### The view as a whole -/

/-- **A view holds what lies within the day**: the entries that start no earlier and end before the
day does, in their order, whatever other entries there are.  Blocks are in all columns that are
counted, and two blocks of one column, drawn with their heights, are apart. -/
theorem entries_shown_in_order_apart (hday : z.day? d = some bounds) (least : Int64)
    (entries : List Entry) :
    ∃ v ∈ build? d z least entries,
      v.bounds = bounds ∧
      v.blocks.map Block.entry =
        entries.filter (fun e => bounds.start ≤ e.start ∧ e.finish < bounds.finish) ∧
      (∀ entries', Relation.EqvGen bounds.OneMoreOutside entries entries' →
        build? d z least entries' = some v) ∧
      (∀ c < v.columnCount, ∃ b ∈ v.blocks, b.column = c) ∧
      v.blocks.Pairwise fun p q => p.column = q.column →
        p.offset + max p.duration least.toInt ≤ q.offset ∨
          q.offset + max q.duration least.toInt ≤ p.offset := by
  have hbuild : build? d z least entries = some (ofBounds d bounds least entries) := by
    rw [build?, hday, Option.map_some]
  refine ⟨ofBounds d bounds least entries, hbuild, rfl, ?_, ?_, ?_, ?_⟩
  · exact map_entry_blocks_ofBounds d bounds least entries
  · intro entries' houtside
    rw [build?_eq_of_outside hday houtside, hbuild]
  · intro c hc
    exact exists_column_eq d bounds least entries hc
  · exact pairwise_apart d bounds least entries

/-- Two hours that overlap, and between them in the list an hour that ends with the day and so is
not within it. -/
theorem entries_shown_in_order_apart_midnight :
    let d : Date := ⟨19849, by decide, by decide⟩
    let next : Date := ⟨19850, by decide, by decide⟩
    let e := entryBetween (.ofSeconds 1714989600 (by decide)) (.ofSeconds 1714993200 (by decide))
    let late := entryBetween (.ofSeconds 1715036400 (by decide)) (.ofSeconds 1715040000 (by decide))
    let e' := entryBetween (.ofSeconds 1714991400 (by decide)) (.ofSeconds 1714995000 (by decide))
    Zone.utc.day? d = some ⟨Instant.startOf d, Instant.startOf next⟩ ∧
      ∃ v ∈ build? d Zone.utc 0 [e, late, e'],
        v.blocks.map Block.entry = [e, e'] ∧ build? d Zone.utc 0 [e, e'] = some v ∧
        (v.blocks.Pairwise fun p q => p.column = q.column →
          p.offset + max p.duration 0 ≤ q.offset ∨ q.offset + max q.duration 0 ≤ p.offset) := by
  intro d next e late e'
  have hday : Zone.utc.day? d = some ⟨Instant.startOf d, Instant.startOf next⟩ := by decide
  obtain ⟨v, hv, -, hentries, houtside, -, hapart⟩ :=
    entries_shown_in_order_apart hday 0 [e, late, e']
  have hmore : DayBounds.OneMoreOutside ⟨Instant.startOf d, Instant.startOf next⟩ [e, e']
      [e, late, e'] := ⟨[e], late, [e'], by decide, rfl, rfl⟩
  refine ⟨hday, v, hv, hentries.trans (by decide), ?_, hapart⟩
  exact houtside [e, e'] (.symm _ _ (.rel _ _ hmore))

end DayView

end Daybook
