import Mathlib
import Daybook.Proofs.DayView.Blocks

/-!
# Entries that overlap

Blocks of one column do not overlap in whole seconds, but their entries may: an entry is packed as
if it started with its second and were as long as its whole seconds, so the box can end up to two
seconds before the entry does (`seconds_le_of_spans`).

Entries that start and end with a second are packed as they are.  Two of them that share an instant
stand in different columns, and so do any two entries that share instants more than two seconds
apart (`columns_of_overlapping`).  Two that share less can be drawn on top of each other
(`overlapping_in_one_column`).
-/

namespace Daybook

namespace Entry

/-- Whether an instant belongs to an entry, which has started and not yet ended. -/
def Spans (e : Entry) (t : Instant) : Prop :=
  e.start ≤ t ∧ t < e.finish

/-- Whether an entry starts and ends with a second. -/
def InWholeSeconds (e : Entry) : Prop :=
  e.start.nanos = 0 ∧ e.finish.nanos = 0

instance (e : Entry) (t : Instant) : Decidable (e.Spans t) :=
  inferInstanceAs (Decidable (_ ∧ _))

instance (e : Entry) : Decidable e.InWholeSeconds :=
  inferInstanceAs (Decidable (_ ∧ _))

variable {e e' : Entry} {t t' : Instant}

theorem not_spans_of_inWholeSeconds (he : e.InWholeSeconds)
    (hends : e.start.seconds + e.duration ≤ e'.start.seconds) (h : e.Spans t) : ¬ e'.Spans t := by
  intro h'
  -- Nothing is cut off, so the entry ends with its box.
  rw [duration, Instant.secondsSince_of_nanos_eq_zero he.2 he.1] at hends
  have hlt : t.seconds < e.finish.seconds := (Instant.lt_iff_seconds_lt he.2).mp h.2
  have hle : e'.start ≤ t := h'.1
  rw [Instant.le_iff] at hle
  omega

/-- An entry goes on for two seconds at most after its box has ended. -/
theorem seconds_le_of_spans (hends : e.start.seconds + e.duration ≤ e'.start.seconds)
    (h : e.Spans t) (h' : e'.Spans t') : t.seconds ≤ t'.seconds + 2 := by
  have hcut := abs_le.mp (Instant.abs_secondsSince_sub_le e.finish e.start)
  rw [duration] at hends
  have hlt : t < e.finish := h.2
  have hle : e'.start ≤ t' := h'.1
  rw [Instant.lt_iff] at hlt
  rw [Instant.le_iff] at hle
  omega

end Entry

namespace DayView

theorem pairwise_seconds_le (date : Date) (bounds : DayBounds) (least : Int64)
    (entries : List Entry) :
    (ofBounds date bounds least entries).blocks.Pairwise fun p q => p.column = q.column →
      p.entry.start.seconds + p.entry.duration ≤ q.entry.start.seconds ∨
        q.entry.start.seconds + q.entry.duration ≤ p.entry.start.seconds := by
  refine (pairwise_apart date bounds least entries).imp_of_mem ?_
  intro p q hp hq hapart hcolumn
  obtain ⟨-, hoffset, hduration, -⟩ := mem_blocks_ofBounds hp
  obtain ⟨-, hoffset', hduration', -⟩ := mem_blocks_ofBounds hq
  have hapart := hapart hcolumn
  rw [Block.Apart] at hapart
  omega

/-- **Entries that overlap stand side by side**, if they start and end with a second, or share
instants whose seconds are more than two apart. -/
theorem columns_of_overlapping {z : Zone} {d : Date} {bounds : DayBounds}
    (hday : z.day? d = some bounds) (least : Int64) (entries : List Entry) :
    ∃ v ∈ build? d z least entries, v.blocks.Pairwise fun p q =>
      (p.entry.InWholeSeconds → q.entry.InWholeSeconds →
        ∀ t, p.entry.Spans t → q.entry.Spans t → p.column ≠ q.column) ∧
      ∀ t t', p.entry.Spans t → q.entry.Spans t → p.entry.Spans t' → q.entry.Spans t' →
        t.seconds + 2 < t'.seconds → p.column ≠ q.column := by
  refine ⟨ofBounds d bounds least entries, by rw [build?, hday]; rfl, ?_⟩
  refine (pairwise_seconds_le d bounds least entries).imp ?_
  intro p q hends
  constructor
  · intro hp hq t hspans hspans' hcolumn
    rcases hends hcolumn with hend | hend
    · exact Entry.not_spans_of_inWholeSeconds hp hend hspans hspans'
    · exact Entry.not_spans_of_inWholeSeconds hq hend hspans' hspans
  · intro t t' hspans hspans' hlater hlater' hlt hcolumn
    rcases hends hcolumn with hend | hend
    · have := Entry.seconds_le_of_spans hend hlater hspans'
      omega
    · have := Entry.seconds_le_of_spans hend hlater' hspans
      omega

/-- Two entries in whole seconds that share the last second of the first one, and one that is not
and shares an hour with it. -/
theorem columns_of_overlapping_three :
    let d : Date := ⟨19849, by decide, by decide⟩
    let next : Date := ⟨19850, by decide, by decide⟩
    let later : Instant := ⟨1714993200, 500000000, by decide, by decide, by decide, by decide⟩
    let e := entryBetween (.ofSeconds 1714989600 (by decide)) (.ofSeconds 1714993200 (by decide))
    let e' := entryBetween (.ofSeconds 1714993199 (by decide)) (.ofSeconds 1714996800 (by decide))
    let e'' := entryBetween (.ofSeconds 1714989600 (by decide)) later
    Zone.utc.day? d = some ⟨Instant.startOf d, Instant.startOf next⟩ ∧
      ∃ v ∈ build? d Zone.utc 0 [e, e', e''], v.blocks.Pairwise fun p q =>
        p.entry = e → q.entry = e' ∨ q.entry = e'' → p.column ≠ q.column := by
  intro d next later e e' e''
  have hday : Zone.utc.day? d = some ⟨Instant.startOf d, Instant.startOf next⟩ := by decide
  obtain ⟨v, hv, hblocks⟩ := columns_of_overlapping hday 0 [e, e', e'']
  refine ⟨hday, v, hv, hblocks.imp ?_⟩
  intro p q hcolumns hp hq
  rw [hp] at hcolumns
  rcases hq with hq | hq
  · rw [hq] at hcolumns
    exact hcolumns.1 (by decide) (by decide) (.ofSeconds 1714993199 (by decide)) (by decide)
      (by decide)
  · rw [hq] at hcolumns
    exact hcolumns.2 (.ofSeconds 1714989600 (by decide)) (.ofSeconds 1714993199 (by decide))
      (by decide) (by decide) (by decide) (by decide) (by decide)

/-- **Entries that overlap can stand in one column.** The first one is 1.9 seconds long and packed
as one second from the start of its first, so that it seems to be over when the second one starts;
but they share 1.8 seconds. -/
theorem overlapping_in_one_column :
    let d : Date := ⟨19849, by decide, by decide⟩
    let start : Instant := ⟨1714989600, 900000000, by decide, by decide, by decide, by decide⟩
    let finish : Instant := ⟨1714989602, 800000000, by decide, by decide, by decide, by decide⟩
    let start' := Instant.ofSeconds 1714989601 (by decide)
    let finish' := Instant.ofSeconds 1714989603 (by decide)
    let e := entryBetween start finish
    let e' : Entry := .activity ⟨⟨2, by decide⟩, ⟨1, by decide⟩, "", start', finish', false, ""⟩
    (∀ e'' ∈ [e, e'], e''.start ≤ e''.finish) ∧ (∃ t, e.Spans t ∧ e'.Spans t) ∧
      ∃ v ∈ build? d Zone.utc 0 [e, e'], ∃ p q, v.blocks = [p, q] ∧ p.entry = e ∧ q.entry = e' ∧
        p.column = q.column := by
  intro d start finish start' finish' e e'
  have hblocks : (build? d Zone.utc 0 [e, e']).map DayView.blocks =
      some [⟨e, 0, 36000, 1⟩, ⟨e', 0, 36001, 2⟩] := by cbv
  obtain ⟨v, hv, hblocks⟩ := Option.map_eq_some_iff.mp hblocks
  exact ⟨by decide, ⟨start', by decide, by decide⟩, v, hv, _, _, hblocks, rfl, rfl, rfl⟩

end DayView

end Daybook
