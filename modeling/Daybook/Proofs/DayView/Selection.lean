import Mathlib
import Daybook.DayView.Basic
import Daybook.Proofs.Calendar.Days
import Daybook.Proofs.Packing.FirstFit

/-!
# Which entries a day shows

The blocks of a view are those entries, in their order, that lie within the day
(`map_entry_blocks_ofBounds`).  Since the days of a run of dates are a partition of it, an entry
that ends no earlier than it starts is shown on one date at most, the one that covers its start
(`Shows.covers`), and it is missing if and only if it reaches or crosses the end of that day
(`not_shows_iff`).
-/

namespace Daybook

namespace DayView

/-! ### The entries of a view -/

/-- An activity of which nothing is told but its time, which alone decides where it is shown. -/
def entryBetween (start finish : Instant) : Entry :=
  .activity ⟨⟨1, by decide⟩, ⟨1, by decide⟩, "", start, finish, false, ""⟩

theorem map_entry_zipWith_of (start : Instant) (entries : List Entry) (columns : List ℕ)
    (h : columns.length = entries.length) :
    (List.zipWith (Block.of start) entries columns).map Block.entry = entries := by
  induction entries generalizing columns with
  | nil => simp
  | cons e entries ih =>
    cases columns with
    | nil => simp at h
    | cons column columns => simp [Block.of, ih columns (by simpa using h)]

/-- **A view shows the entries that lie within the day**, in their order. -/
theorem map_entry_blocks_ofBounds (date : Date) (bounds : DayBounds) (least : Int64)
    (entries : List Entry) :
    (ofBounds date bounds least entries).blocks.map Block.entry = entries.filter bounds.holds := by
  apply map_entry_zipWith_of
  rw [Packing.length_columns_pack, List.length_map]

/-- Whether the view of a date shows an entry. -/
def Shows (z : Zone) (least : Int64) (entries : List Entry) (d : Date) (e : Entry) : Prop :=
  ∃ v ∈ build? d z least entries, ∃ b ∈ v.blocks, b.entry = e

variable {z : Zone} {least : Int64} {entries : List Entry} {d d' first last next : Date} {e : Entry}

theorem shows_iff : Shows z least entries d e ↔
    e ∈ entries ∧ ∃ b ∈ z.day? d, b.start ≤ e.start ∧ e.finish < b.finish := by
  have hblocks : ∀ bounds : DayBounds,
      (∃ b ∈ (ofBounds d bounds least entries).blocks, b.entry = e) ↔
        e ∈ entries ∧ bounds.start ≤ e.start ∧ e.finish < bounds.finish := by
    intro bounds
    rw [← List.mem_map, map_entry_blocks_ofBounds, List.mem_filter, DayBounds.holds,
      decide_eq_true_eq]
  simp only [Shows, build?, Option.mem_map, exists_exists_and_eq_and, hblocks]
  constructor
  · rintro ⟨b, hb, he, hlies⟩
    exact ⟨he, b, hb, hlies⟩
  · rintro ⟨he, b, hb, hlies⟩
    exact ⟨b, hb, he, hlies⟩

/-- An entry is shown on the date that its start belongs to. -/
theorem Shows.covers (h : Shows z least entries d e) (he : e.start ≤ e.finish) :
    z.Covers d e.start := by
  obtain ⟨-, b, hb, hstart, hfinish⟩ := shows_iff.mp h
  exact ⟨b, hb, hstart, he.trans_lt hfinish⟩

/-! ### Entries that no day shows -/

/-- Whether a date of a run starts at an instant, or the run ends at it. -/
def Boundary (z : Zone) (first last : Date) (t : Instant) : Prop :=
  (∃ d ∈ Set.Icc first last, ∃ b ∈ z.day? d, t = b.start) ∨ ∃ b ∈ z.day? last, t = b.finish

/-- The boundaries of a run are the starts of its dates and of the next one. -/
theorem boundary_iff (hb : z.Bounded) (hz : z.Ascending) (hle : first ≤ last)
    (hnext : next.day = last.day + 1) (hlast : next.day < Date.lastDay) {t : Instant} :
    Boundary z first last t ↔ ∃ d ∈ Set.Icc first next, t = z.startOf d := by
  -- The days of the run begin at their starts, and the last one ends at the start of `next`.
  have hstart : ∀ d ∈ Set.Icc first last, ∃ b ∈ z.day? d, b.start = z.startOf d := by
    intro d hd
    have hdLast := Date.le_iff.mp hd.2
    obtain ⟨dNext, hdNext⟩ := Date.exists_next (d := d) (by omega)
    exact ⟨_, Zone.day?_eq_some hb hz hdNext (by omega), rfl⟩
  have hlastNext : last ≤ next := Date.le_iff.mpr (by omega)
  constructor
  · rintro (⟨d, hd, b, hbounds, rfl⟩ | ⟨b, hbounds, rfl⟩)
    · obtain ⟨b', hb', hstart⟩ := hstart d hd
      obtain rfl := Option.mem_unique hbounds hb'
      exact ⟨d, ⟨hd.1, hd.2.trans hlastNext⟩, hstart⟩
    · rw [Zone.day?_eq_some hb hz hnext hlast, Option.mem_some] at hbounds
      exact ⟨next, ⟨hle.trans hlastNext, le_rfl⟩, by rw [← hbounds]⟩
  · rintro ⟨d, hd, rfl⟩
    rcases hd.2.lt_or_eq with hlt | rfl
    · rw [Date.lt_iff] at hlt
      have hdLast : d ∈ Set.Icc first last := ⟨hd.1, Date.le_iff.mpr (by omega)⟩
      obtain ⟨b, hb', hstart⟩ := hstart d hdLast
      exact Or.inl ⟨d, hdLast, b, hb', hstart.symm⟩
    · exact Or.inr ⟨_, Zone.day?_eq_some hb hz hnext hlast, rfl⟩

/-- **An entry that starts in a run is not shown if it reaches or crosses a boundary.** -/
theorem not_shows_iff (hb : z.Bounded) (hz : z.Spaced) (hle : first ≤ last)
    (hnext : next.day = last.day + 1) (hlast : next.day < Date.lastDay) (he : e ∈ entries)
    (hstart : z.startOf first ≤ e.start) (hfinish : e.start < z.startOf next) :
    (∀ d ∈ Set.Icc first last, ¬ Shows z least entries d e) ↔
      ∃ t, Boundary z first last t ∧ e.start < t ∧ t ≤ e.finish := by
  simp only [boundary_iff hb hz.ascending hle hnext hlast]
  constructor
  · intro hnone
    -- The day that covers the start ends too early.
    obtain ⟨d, ⟨hd, hcovers⟩, -⟩ := Zone.existsUnique_covers hb hz hle hnext hlast hstart hfinish
    have hfirstDay := Date.le_iff.mp hd.1
    have hlastDay := Date.le_iff.mp hd.2
    obtain ⟨dNext, hdNext⟩ := Date.exists_next (d := d) (by omega)
    have hbounds := Zone.day?_eq_some hb hz.ascending hdNext (by omega)
    rw [Zone.covers_iff hb hz.ascending hdNext (by omega)] at hcovers
    refine ⟨z.startOf dNext, ⟨dNext, ⟨?_, ?_⟩, rfl⟩, hcovers.2, ?_⟩
    · exact Date.le_iff.mpr (by omega)
    · exact Date.le_iff.mpr (by omega)
    · by_contra hlt
      exact hnone d hd (shows_iff.mpr ⟨he, _, hbounds, hcovers.1, not_le.mp hlt⟩)
  · rintro ⟨_, ⟨d', hd', rfl⟩, hlt, hge⟩ d hd hshows
    -- A day that shows the entry would have a boundary inside.
    have hlastDay := Date.le_iff.mp hd.2
    have hlastDay' := Date.le_iff.mp hd'.2
    obtain ⟨dNext, hdNext⟩ := Date.exists_next (d := d) (by omega)
    obtain ⟨-, b, hbounds, hstarts, hends⟩ := shows_iff.mp hshows
    rw [Zone.day?_eq_some hb hz.ascending hdNext (by omega), Option.mem_some] at hbounds
    rw [← hbounds] at hstarts hends
    have hafter := hstarts.trans_lt hlt
    have hbefore := hge.trans_lt hends
    rw [Zone.startOf_lt_startOf_iff_lt hb hz (by omega) (by omega)] at hafter hbefore
    omega

/-! ### Days are a partition, and show entries once -/

/-- **Days are a partition, and show entries once.** Each day ends, after it has started, where the
next one starts, and an instant of a run of dates belongs to one of them.  So an entry is shown on
one date of a run at most, and on none if and only if it reaches or crosses a boundary of the run
after it has started. -/
theorem days_partition_shown_once (z : Zone) (hb : z.Bounded) (hz : z.Spaced) :
    (∀ d : Date, d.day + 3 ≤ Date.lastDay →
      ∃ next ∈ d.next?, ∃ b ∈ z.day? d, ∃ b' ∈ z.day? next,
        b.start < b.finish ∧ b.finish = b'.start) ∧
    ∀ first last : Date, first ≤ last → last.day + 3 ≤ Date.lastDay →
      ∃ b ∈ z.day? first, ∃ b' ∈ z.day? last,
        (∀ t, b.start ≤ t → t < b'.finish → ∃! d, d ∈ Set.Icc first last ∧ z.Covers d t) ∧
        ∀ least entries, ∀ e ∈ entries, e.start ≤ e.finish →
          (∀ d ∈ Set.Icc first last, ∀ d' ∈ Set.Icc first last,
            Shows z least entries d e → Shows z least entries d' e → d = d') ∧
          (b.start ≤ e.start → e.start < b'.finish →
            ((∀ d ∈ Set.Icc first last, ¬ Shows z least entries d e) ↔
              ∃ t, Boundary z first last t ∧ e.start < t ∧ t ≤ e.finish)) := by
  constructor
  · intro d hd
    obtain ⟨next, hnext⟩ := Date.exists_next (d := d) (by omega)
    obtain ⟨afterNext, hafterNext⟩ := Date.exists_next (d := next) (by omega)
    exact ⟨next, Date.next?_eq_some_iff.mpr hnext,
      _, Zone.day?_eq_some hb hz.ascending hnext (by omega),
      _, Zone.day?_eq_some hb hz.ascending hafterNext (by omega),
      Zone.startOf_lt_startOf_next hb hz hnext (by omega), rfl⟩
  · intro first last hle hlast
    have hfirstLast := Date.le_iff.mp hle
    obtain ⟨second, hsecond⟩ := Date.exists_next (d := first) (by omega)
    obtain ⟨next, hnext⟩ := Date.exists_next (d := last) (by omega)
    refine ⟨_, Zone.day?_eq_some hb hz.ascending hsecond (by omega),
      _, Zone.day?_eq_some hb hz.ascending hnext (by omega), ?_, ?_⟩
    · intro t hstart hfinish
      exact Zone.existsUnique_covers hb hz hle hnext (by omega) hstart hfinish
    · intro least entries e he hends
      constructor
      · intro d hd d' hd' hshows hshows'
        have hdLast := Date.le_iff.mp hd.2
        have hdLast' := Date.le_iff.mp hd'.2
        exact (hshows.covers hends).unique hb hz (hshows'.covers hends) (by omega) (by omega)
      · intro hstart hfinish
        exact not_shows_iff hb hz hle hnext (by omega) he hstart hfinish

/-- A zone that skips the midnight of a Sunday, and two entries of the Saturday night, one of which
goes on after midnight. -/
theorem days_partition_shown_once_skipped_midnight :
    let z : Zone := ⟨-14400, [⟨1725768000, -10800⟩]⟩
    let saturday : Date := ⟨19973, by decide, by decide⟩
    let sunday : Date := ⟨19974, by decide, by decide⟩
    let start := Instant.ofSeconds 1725766200 (by decide)
    let within := entryBetween start (.ofSeconds 1725767940 (by decide))
    let across := entryBetween start (.ofSeconds 1725769800 (by decide))
    z.Bounded ∧ z.Spaced ∧ saturday ≤ sunday ∧ sunday.day + 3 ≤ Date.lastDay ∧
      (∃! d, d ∈ Set.Icc saturday sunday ∧ z.Covers d across.start) ∧
      Shows z 0 [within] saturday within ∧
      (∀ d ∈ Set.Icc saturday sunday, Shows z 0 [within] d within → d = saturday) ∧
      ((∀ d ∈ Set.Icc saturday sunday, ¬ Shows z 0 [across] d across) ↔
        ∃ t, Boundary z saturday sunday t ∧ across.start < t ∧ t ≤ across.finish) := by
  intro z saturday sunday start within across
  have hb : z.Bounded := by decide
  have hz : z.Spaced := by decide
  have hle : saturday ≤ sunday := by decide
  have hlast : sunday.day + 3 ≤ Date.lastDay := by decide
  have hshows : Shows z 0 [within] saturday within := shows_iff.mpr ⟨by decide, by decide⟩
  have hstart : ∀ b ∈ z.day? saturday, b.start ≤ across.start := by decide
  have hfinish : ∀ b ∈ z.day? sunday, across.start < b.finish := by decide
  obtain ⟨b, hb₁, b', hb₂, hcovers, hentries⟩ :=
    (days_partition_shown_once z hb hz).2 saturday sunday hle hlast
  refine ⟨hb, hz, hle, hlast, hcovers _ (hstart b hb₁) (hfinish b' hb₂), hshows, ?_, ?_⟩
  · intro d hd hd'
    have hwithin := (hentries 0 [within] within (by simp) (by decide)).1
    exact hwithin d hd saturday ⟨le_rfl, hle⟩ hd' hshows
  · exact (hentries 0 [across] across (by simp) (by decide)).2 (hstart b hb₁) (hfinish b' hb₂)

end DayView

end Daybook
