import Mathlib
import Daybook.Proofs.Calendar.Readings

/-!
# Days follow one another

The start of a date is found by one of three rules: the first reading of midnight, else the first
reading of one o'clock, else midnight in UTC.  Whichever rules apply to a date and to the next one,
the next one starts later if the zone's changes are 96 hours apart (`startOf_lt_startOf_next`): all
that matters happens in 96 hours, so there is one change to look at.

The starts of all dates therefore ascend (`startOf_strictMonoOn`), each day ends where the next one
starts, and an instant of a run of dates belongs to one of them (`existsUnique_covers`).
-/

namespace Daybook.Zone

variable {z z' : Zone}

/-! ### The first reading -/

theorem earliest?_congr {clock : ℤ} (h : z.readings clock = z'.readings clock) :
    z.earliest? clock = z'.earliest? clock := by
  unfold earliest?
  rw [h]

theorem head?_readings_of_earliest? {clock : ℤ} {t : Instant} (h : z.earliest? clock = some t) :
    (z.readings clock).head? = some t.seconds ∧ t.nanos = 0 := by
  unfold earliest? at h
  split at h
  · contradiction
  · rename_i first others hreadings
    obtain ⟨-, -, hfirst⟩ := Option.bind_eq_some_iff.mp h
    obtain ⟨hseconds, hnanos⟩ := Instant.ofSeconds?_eq_some_iff.mp hfirst
    rw [hreadings, List.head?_cons, hseconds]
    exact ⟨rfl, hnanos⟩

theorem mem_readings_of_earliest? {clock : ℤ} {t : Instant} (h : z.earliest? clock = some t) :
    t.seconds ∈ z.readings clock :=
  List.mem_of_head? (head?_readings_of_earliest? h).1

/-- If there is no first reading, there is no reading at all, or one out of range. -/
theorem exists_out_of_range_of_earliest? {clock : ℤ} (h : z.earliest? clock = none) :
    z.readings clock = [] ∨
      ∃ t ∈ z.readings clock, t < Instant.firstSecond ∨ Instant.lastSecond < t := by
  unfold earliest? at h
  split at h
  · rename_i hreadings
    exact Or.inl hreadings
  · rename_i first others hreadings
    right
    rw [hreadings]
    have hrange : ∀ {t}, Instant.ofSeconds? t = none →
        t < Instant.firstSecond ∨ Instant.lastSecond < t := by
      intro t ht
      have hsome := Instant.ofSeconds?_isSome_iff.not.mp (by rw [ht]; simp)
      omega
    cases hlast : Instant.ofSeconds? ((first :: others).getLast (by simp)) with
    | none => exact ⟨_, List.getLast_mem _, hrange hlast⟩
    | some last =>
      rw [hlast, Option.bind_some] at h
      exact ⟨first, List.mem_cons_self .., hrange h⟩

/-! ### The three rules for the start of a date -/

theorem startOf_congr {d : Date}
    (hmidnight : z.readings (d.day * secondsPerDay) = z'.readings (d.day * secondsPerDay))
    (hone : z.readings (d.day * secondsPerDay + 3600) =
      z'.readings (d.day * secondsPerDay + 3600)) : z.startOf d = z'.startOf d := by
  simp only [startOf, earliest?_congr hmidnight, earliest?_congr hone]

/-- **The three rules.** A date starts at midnight, else at one o'clock, else at midnight in UTC. -/
theorem startOf_cases (z : Zone) (d : Date) :
    z.earliest? (d.day * secondsPerDay) = some (z.startOf d) ∨
      z.earliest? (d.day * secondsPerDay) = none ∧
        (z.earliest? (d.day * secondsPerDay + 3600) = some (z.startOf d) ∨
          z.earliest? (d.day * secondsPerDay + 3600) = none ∧ z.startOf d = Instant.startOf d) := by
  rw [startOf]
  cases hmidnight : z.earliest? (d.day * secondsPerDay) with
  | some t => exact Or.inl rfl
  | none =>
    refine Or.inr ⟨rfl, ?_⟩
    cases hone : z.earliest? (d.day * secondsPerDay + 3600) with
    | some t => exact Or.inl rfl
    | none => exact Or.inr ⟨rfl, rfl⟩

/-- A date starts with a second. -/
theorem nanos_startOf (z : Zone) (d : Date) : (z.startOf d).nanos = 0 := by
  rcases z.startOf_cases d with h | ⟨-, h | ⟨-, h⟩⟩
  · exact (head?_readings_of_earliest? h).2
  · exact (head?_readings_of_earliest? h).2
  · rw [h]
    rfl

theorem startOf_lt_startOf_iff {d d' : Date} :
    z.startOf d < z.startOf d' ↔ (z.startOf d).seconds < (z.startOf d').seconds := by
  rw [Instant.lt_iff, nanos_startOf, nanos_startOf]
  omega

/-- A date starts less than a day and an hour after its midnight in UTC. -/
theorem seconds_startOf_lt (hb : z.Bounded) (hz : z.Ascending) (d : Date) :
    (z.startOf d).seconds < d.day * secondsPerDay + 3600 + secondsPerDay := by
  have hread : ∀ {clock t}, z.earliest? clock = some t → t.seconds < clock + secondsPerDay := by
    intro clock t h
    have hclock := (mem_readings hz).mp (mem_readings_of_earliest? h)
    have hoff := hb.offsetAt t.seconds
    rw [clockAt] at hclock
    omega
  rcases z.startOf_cases d with h | ⟨-, h | ⟨-, h⟩⟩
  · have := hread h
    omega
  · have := hread h
    omega
  · rw [h]
    simp only [Instant.startOf, secondsPerDay]
    omega

/-! ### Around a single change -/

variable {before second after : ℤ}

/-- Whether `t` is the first second at which clocks with one change show a time: it is read before
the change if it can be, and else after it. -/
def ReadsAt (before second after clock t : ℤ) : Prop :=
  clock - before < second ∧ t = clock - before ∨
    second ≤ clock - before ∧ second ≤ clock - after ∧ t = clock - after

/-- Whether clocks with one change skip a time, or show it out of range. -/
def Unreadable (before second after clock : ℤ) : Prop :=
  second ≤ clock - before ∧ clock - after < second ∨
    clock - before < second ∧
      (clock - before < Instant.firstSecond ∨ Instant.lastSecond < clock - before) ∨
    second ≤ clock - after ∧
      (clock - after < Instant.firstSecond ∨ Instant.lastSecond < clock - after)

theorem readsAt_of_earliest? {clock : ℤ} {t : Instant}
    (h : (single before second after).earliest? clock = some t) :
    ReadsAt before second after clock t.seconds := by
  have hhead := (head?_readings_of_earliest? h).1
  rw [readings_single] at hhead
  by_cases hbefore : clock - before < second
  · rw [if_pos hbefore, List.singleton_append, List.head?_cons, Option.some_inj] at hhead
    exact Or.inl ⟨hbefore, hhead.symm⟩
  · rw [if_neg hbefore, List.nil_append] at hhead
    split_ifs at hhead with hafter
    · rw [List.head?_singleton, Option.some_inj] at hhead
      exact Or.inr ⟨not_lt.mp hbefore, hafter, hhead.symm⟩
    · contradiction

theorem unreadable_of_earliest? {clock : ℤ}
    (h : (single before second after).earliest? clock = none) :
    Unreadable before second after clock := by
  unfold Unreadable
  rcases exists_out_of_range_of_earliest? h with hnil | ⟨t, ht, hrange⟩
  · rw [readings_single, List.append_eq_nil_iff] at hnil
    simp only [ite_eq_right_iff, List.cons_ne_nil, imp_false] at hnil
    omega
  · rw [readings_single, List.mem_append] at ht
    simp only [List.mem_ite_nil_right, List.mem_singleton] at ht
    rcases ht with ⟨hbefore, rfl⟩ | ⟨hafter, rfl⟩
    · exact Or.inr (Or.inl ⟨hbefore, hrange⟩)
    · exact Or.inr (Or.inr ⟨hafter, hrange⟩)

/-- **The three rules around a single change.** -/
theorem startOf_single_cases (before second after : ℤ) (d : Date) :
    ReadsAt before second after (d.day * secondsPerDay)
        ((single before second after).startOf d).seconds ∨
      Unreadable before second after (d.day * secondsPerDay) ∧
        (ReadsAt before second after (d.day * secondsPerDay + 3600)
            ((single before second after).startOf d).seconds ∨
          Unreadable before second after (d.day * secondsPerDay + 3600) ∧
            ((single before second after).startOf d).seconds = d.day * secondsPerDay) := by
  rcases (single before second after).startOf_cases d with h | ⟨hnone, h | ⟨hnone', h⟩⟩
  · exact Or.inl (readsAt_of_earliest? h)
  · exact Or.inr ⟨unreadable_of_earliest? hnone, Or.inl (readsAt_of_earliest? h)⟩
  · exact Or.inr ⟨unreadable_of_earliest? hnone,
      Or.inr ⟨unreadable_of_earliest? hnone', congrArg Instant.seconds h⟩⟩

/-- Around a single change, the next date starts later. -/
theorem startOf_single_lt (hb : (single before second after).Bounded) {d next : Date}
    (hnext : next.day = d.day + 1) (hlast : next.day < Date.lastDay) :
    ((single before second after).startOf d).seconds <
      ((single before second after).startOf next).seconds := by
  obtain ⟨hbefore, hafter⟩ := bounded_single_iff.mp hb
  have hmidnight : next.day * secondsPerDay = d.day * secondsPerDay + secondsPerDay := by
    rw [hnext, secondsPerDay]
    omega
  have hfirst : Instant.firstSecond ≤ d.day * secondsPerDay := (Instant.startOf d).firstSecond_le
  have hlate : d.day * secondsPerDay + 2 * secondsPerDay + 3600 ≤ Instant.lastSecond := by
    simp only [Instant.lastSecond, Date.lastDay, secondsPerDay] at hlast ⊢
    omega
  have hrange := ((single before second after).startOf d).firstSecond_le
  have hday : secondsPerDay = 86400 := rfl
  have hstart := startOf_single_cases before second after d
  have hstart' := startOf_single_cases before second after next
  rw [hmidnight] at hstart'
  simp only [ReadsAt, Unreadable] at hstart hstart'
  generalize d.day * secondsPerDay = midnight at *
  rcases hstart with h | ⟨hnone, h | h⟩
  · -- The date starts at midnight.
    rcases hstart' with h' | ⟨hnone', h' | h'⟩ <;> omega
  · -- Its midnight cannot be read, and it starts at one o'clock.
    rcases hstart' with h' | ⟨hnone', h' | h'⟩ <;> omega
  · -- Neither can one o'clock, and it starts at midnight in UTC.
    rcases hstart' with h' | ⟨hnone', h' | h'⟩ <;> omega

/-! ### The starts of all dates -/

/-- **The next date starts later.** -/
theorem startOf_lt_startOf_next (hb : z.Bounded) (hz : z.Spaced) {d next : Date}
    (hnext : next.day = d.day + 1) (hlast : next.day < Date.lastDay) :
    z.startOf d < z.startOf next := by
  -- The readings that the two starts depend on are less than 96 hours apart.
  obtain ⟨before, second, after, hbounded, hoff⟩ :=
    exists_single_of_spaced hb hz (d.day * secondsPerDay - secondsPerDay)
  have hread : ∀ clock, d.day * secondsPerDay ≤ clock →
      clock ≤ d.day * secondsPerDay + secondsPerDay + 3600 →
      z.readings clock = (single before second after).readings clock := by
    intro clock hlow hhigh
    apply readings_congr hz.ascending (ascending_single ..) hb hbounded
    intro t ht ht'
    apply hoff
    · omega
    · simp only [secondsPerDay] at *
      omega
  have hday : next.day * secondsPerDay = d.day * secondsPerDay + secondsPerDay := by
    rw [hnext, secondsPerDay]
    omega
  have hpos : 0 < secondsPerDay := by decide
  have hd : z.startOf d = (single before second after).startOf d :=
    startOf_congr (hread _ (by omega) (by omega)) (hread _ (by omega) (by omega))
  have hd' : z.startOf next = (single before second after).startOf next :=
    startOf_congr (hread _ (by omega) (by omega)) (hread _ (by omega) (by omega))
  rw [hd, hd', startOf_lt_startOf_iff]
  exact startOf_single_lt hbounded hnext hlast

/-- **Dates start in their order**, up to the last one. -/
theorem startOf_strictMonoOn (hb : z.Bounded) (hz : z.Spaced) :
    StrictMonoOn z.startOf {d | d.day < Date.lastDay} := by
  -- The induction is on the number of dates in between.
  have hsteps : ∀ (n : ℕ) (d d' : Date), d'.day = d.day + 1 + n → d'.day < Date.lastDay →
      z.startOf d < z.startOf d' := by
    intro n
    induction n with
    | zero => exact fun d d' hday hlast => startOf_lt_startOf_next hb hz (by omega) hlast
    | succ n ih =>
      intro d d' hday hlast
      have hlt : d < d' := Date.lt_iff.mpr (by omega)
      obtain ⟨previous, hprevious⟩ := Date.exists_previous hlt
      exact (ih d previous (by omega) (by omega)).trans
        (startOf_lt_startOf_next hb hz hprevious hlast)
  intro d _ d' hd' hlt
  rw [Date.lt_iff] at hlt
  exact hsteps (d'.day - d.day - 1).toNat d d' (by omega) hd'

theorem startOf_lt_startOf_iff_lt (hb : z.Bounded) (hz : z.Spaced) {d d' : Date}
    (hd : d.day < Date.lastDay) (hd' : d'.day < Date.lastDay) :
    z.startOf d < z.startOf d' ↔ d.day < d'.day :=
  (startOf_strictMonoOn hb hz).lt_iff_lt hd hd'

/-! ### Days -/

/-- Whether an instant belongs to the day of a date. -/
def Covers (z : Zone) (d : Date) (t : Instant) : Prop :=
  ∃ b ∈ z.day? d, b.start ≤ t ∧ t < b.finish

/-- Days start and end with a second. -/
theorem nanos_of_day? {d : Date} {b : DayBounds} (h : z.day? d = some b) :
    b.start.nanos = 0 ∧ b.finish.nanos = 0 := by
  obtain ⟨later, hlater, rfl⟩ := Option.map_eq_some_iff.mp h
  refine ⟨nanos_startOf z d, ?_⟩
  cases hnext : d.next? with
  | some next => exact nanos_startOf z next
  | none => exact (Instant.ofSeconds?_eq_some_iff.mp hlater).2

/-- A day ends where the next one starts. -/
theorem day?_eq_some (hb : z.Bounded) (hz : z.Ascending) {d next : Date}
    (hnext : next.day = d.day + 1) (hlast : next.day < Date.lastDay) :
    z.day? d = some { start := z.startOf d, finish := z.startOf next } := by
  obtain ⟨later, hlater⟩ : ∃ later,
      Instant.ofSeconds? ((z.startOf d).seconds + secondsPerDay) = some later := by
    rw [← Option.isSome_iff_exists, Instant.ofSeconds?_isSome_iff]
    have hstart := seconds_startOf_lt hb hz d
    have hfirst := (z.startOf d).firstSecond_le
    simp only [Instant.lastSecond, Date.lastDay, secondsPerDay] at *
    omega
  simp only [day?, hlater, Date.next?_eq_some_iff.mpr hnext, Option.map_some]

theorem covers_iff (hb : z.Bounded) (hz : z.Ascending) {d next : Date} {t : Instant}
    (hnext : next.day = d.day + 1) (hlast : next.day < Date.lastDay) :
    z.Covers d t ↔ z.startOf d ≤ t ∧ t < z.startOf next := by
  simp [Covers, day?_eq_some hb hz hnext hlast]

/-- An earlier instant belongs to an earlier date, or to the same one. -/
theorem Covers.le (hb : z.Bounded) (hz : z.Spaced) {d d' : Date} {t t' : Instant}
    (h : z.Covers d t) (h' : z.Covers d' t') (hd : d.day + 1 < Date.lastDay)
    (hd' : d'.day + 1 < Date.lastDay) (ht : t ≤ t') : d ≤ d' := by
  obtain ⟨next, hnext⟩ := Date.exists_next (d := d) (by omega)
  obtain ⟨next', hnext'⟩ := Date.exists_next (d := d') (by omega)
  rw [covers_iff hb hz.ascending hnext (by omega)] at h
  rw [covers_iff hb hz.ascending hnext' (by omega)] at h'
  have hlt : z.startOf d < z.startOf next' := h.1.trans_lt (ht.trans_lt h'.2)
  rw [startOf_lt_startOf_iff_lt hb hz (by omega) (by omega)] at hlt
  rw [Date.le_iff]
  omega

theorem Covers.unique (hb : z.Bounded) (hz : z.Spaced) {d d' : Date} {t : Instant}
    (h : z.Covers d t) (h' : z.Covers d' t) (hd : d.day + 1 < Date.lastDay)
    (hd' : d'.day + 1 < Date.lastDay) : d = d' :=
  le_antisymm (h.le hb hz h' hd hd' le_rfl) (h'.le hb hz h hd' hd le_rfl)

/-- **The days of a run of dates are a partition of it.** -/
theorem existsUnique_covers (hb : z.Bounded) (hz : z.Spaced) {first last next : Date}
    (hle : first ≤ last) (hnext : next.day = last.day + 1) (hlast : next.day < Date.lastDay)
    {t : Instant} (hstart : z.startOf first ≤ t) (hfinish : t < z.startOf next) :
    ∃! d, d ∈ Set.Icc first last ∧ z.Covers d t := by
  -- The induction is on the length of the run: an instant that the last date does not cover lies in
  -- the run without it.
  have hexists : ∀ (n : ℕ) (last next : Date), last.day = first.day + n →
      next.day = last.day + 1 → next.day < Date.lastDay → t < z.startOf next →
      ∃ d ∈ Set.Icc first last, z.Covers d t := by
    intro n
    induction n with
    | zero =>
      intro last next hday hnext hlast hfinish
      obtain rfl : first = last := Date.day_injective (by omega)
      exact ⟨first, ⟨le_rfl, le_rfl⟩,
        (covers_iff hb hz.ascending hnext hlast).mpr ⟨hstart, hfinish⟩⟩
    | succ n ih =>
      intro last next hday hnext hlast hfinish
      have hlt : first < last := Date.lt_iff.mpr (by omega)
      by_cases ht : z.startOf last ≤ t
      · exact ⟨last, ⟨hlt.le, le_rfl⟩,
          (covers_iff hb hz.ascending hnext hlast).mpr ⟨ht, hfinish⟩⟩
      · obtain ⟨previous, hprevious⟩ := Date.exists_previous hlt
        obtain ⟨d, hd, hcovers⟩ :=
          ih previous last (by omega) hprevious (by omega) (not_le.mp ht)
        exact ⟨d, ⟨hd.1, hd.2.trans (Date.le_iff.mpr (by omega))⟩, hcovers⟩
  rw [Date.le_iff] at hle
  obtain ⟨d, hd, hcovers⟩ :=
    hexists (last.day - first.day).toNat last next (by omega) hnext hlast hfinish
  refine ⟨d, ⟨hd, hcovers⟩, ?_⟩
  rintro d' ⟨hd', hcovers'⟩
  have hdLast := Date.le_iff.mp hd.2
  have hdLast' := Date.le_iff.mp hd'.2
  exact hcovers'.unique hb hz hcovers (by omega) (by omega)

end Daybook.Zone
