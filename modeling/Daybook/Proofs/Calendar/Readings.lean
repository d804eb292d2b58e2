import Mathlib
import Daybook.Proofs.Calendar.Order

/-!
# What clocks show, and when

The readings of a clock time are the seconds at which clocks show it, in ascending order, if the
changes of the zone ascend (`mem_readings`, `pairwise_readings`).  So they are told by the offsets
that are in force around it: where two zones agree on these, they agree on the readings
(`readings_congr`).

A zone whose changes are 96 hours apart has one change at most in any 96 hours, and agrees there
with a zone that has no other (`exists_single_of_spaced`).  What is proved of a clock time and zones
with a single change holds of all such zones.
-/

namespace Daybook.Zone

/-! ### Offsets -/

/-- All offsets that are in force at some time. -/
def offsets (z : Zone) : List ℤ :=
  z.initial :: z.changes.map Change.offset

/-- **Clocks are less than a day ahead or behind.** -/
def Bounded (z : Zone) : Prop :=
  ∀ offset ∈ z.offsets, -secondsPerDay < offset ∧ offset < secondsPerDay

/-- Changes come one after the other. -/
def Ascending (z : Zone) : Prop :=
  z.changes.Pairwise fun a b => a.second ≤ b.second

/-- **Changes are at least 96 hours apart.** -/
def Spaced (z : Zone) : Prop :=
  z.changes.Pairwise fun a b => a.second + 96 * 3600 ≤ b.second

instance (z : Zone) : Decidable z.Bounded :=
  inferInstanceAs (Decidable (∀ offset ∈ z.offsets, _))

instance (z : Zone) : Decidable z.Spaced :=
  inferInstanceAs (Decidable (List.Pairwise _ _))

theorem Spaced.ascending {z : Zone} (h : z.Spaced) : z.Ascending :=
  List.Pairwise.imp (fun {_ _} hab => by omega) h

/-- A zone with one change. -/
def single (before second after : ℤ) : Zone :=
  ⟨before, [⟨second, after⟩]⟩

theorem ascending_single (before second after : ℤ) : (single before second after).Ascending :=
  List.pairwise_singleton _ _

theorem bounded_single_iff {before second after : ℤ} : (single before second after).Bounded ↔
    (-secondsPerDay < before ∧ before < secondsPerDay) ∧
      (-secondsPerDay < after ∧ after < secondsPerDay) := by
  simp [Bounded, offsets, single]

theorem offsetFrom_mem (offset : ℤ) (changes : List Change) (second : ℤ) :
    offsetFrom offset changes second ∈ offset :: changes.map Change.offset := by
  induction changes generalizing offset with
  | nil => simp [offsetFrom]
  | cons change changes ih =>
    rw [offsetFrom]
    split_ifs
    · exact List.mem_cons_self ..
    · exact List.mem_cons_of_mem _ (ih change.offset)

theorem Bounded.offsetAt {z : Zone} (h : z.Bounded) (second : ℤ) :
    -secondsPerDay < z.offsetAt second ∧ z.offsetAt second < secondsPerDay :=
  h _ (offsetFrom_mem z.initial z.changes second)

/-- Before the first change the initial offset is in force. -/
theorem offsetFrom_of_lt {offset second : ℤ} {changes : List Change}
    (h : ∀ change ∈ changes, second < change.second) :
    offsetFrom offset changes second = offset := by
  cases changes with
  | nil => rfl
  | cons change changes => rw [offsetFrom, if_pos (h change (List.mem_cons_self ..))]

/-! ### Readings -/

theorem all_le_iff {since : Option ℤ} {second : ℤ} :
    since.all (· ≤ second) = true ↔ ∀ s ∈ since, s ≤ second := by
  cases since <;> simp

/-- The readings of the stretches from `since` on are the seconds from `since` on at which clocks
show the time. -/
theorem mem_readingsFrom {since : Option ℤ} {offset clock second : ℤ} {changes : List Change}
    (hsince : ∀ s ∈ since, ∀ change ∈ changes, s ≤ change.second)
    (hchanges : changes.Pairwise fun a b => a.second ≤ b.second) :
    second ∈ readingsFrom since offset clock changes ↔
      (∀ s ∈ since, s ≤ second) ∧ second + offsetFrom offset changes second = clock := by
  induction changes generalizing since offset with
  | nil =>
    simp only [readingsFrom, offsetFrom, all_le_iff, List.mem_ite_nil_right, List.mem_singleton]
    constructor
    · rintro ⟨h, rfl⟩
      exact ⟨h, by omega⟩
    · rintro ⟨h, hclock⟩
      obtain rfl : second = clock - offset := by omega
      exact ⟨h, rfl⟩
  | cons change changes ih =>
    rw [List.pairwise_cons] at hchanges
    have hrest : second ∈ readingsFrom (some change.second) change.offset clock changes ↔
        change.second ≤ second ∧ second + offsetFrom change.offset changes second = clock := by
      rw [ih (by simpa using hchanges.1) hchanges.2]
      simp
    rw [readingsFrom, List.mem_append, hrest, offsetFrom]
    -- The offset before the change counts up to it, and the later ones from then on.
    simp only [all_le_iff, List.mem_ite_nil_right, List.mem_singleton]
    by_cases hlt : second < change.second
    · rw [if_pos hlt]
      constructor
      · rintro (⟨⟨h, -⟩, rfl⟩ | ⟨h, -⟩)
        · exact ⟨h, by omega⟩
        · omega
      · rintro ⟨h, hclock⟩
        obtain rfl : second = clock - offset := by omega
        exact Or.inl ⟨⟨h, hlt⟩, rfl⟩
    · rw [if_neg hlt]
      constructor
      · rintro (⟨⟨-, h⟩, rfl⟩ | ⟨h, hclock⟩)
        · omega
        · exact ⟨fun s hs => (hsince s hs change (List.mem_cons_self ..)).trans h, hclock⟩
      · rintro ⟨-, hclock⟩
        exact Or.inr ⟨not_lt.mp hlt, hclock⟩

theorem pairwise_readingsFrom {since : Option ℤ} {offset clock : ℤ} {changes : List Change}
    (hchanges : changes.Pairwise fun a b => a.second ≤ b.second) :
    (readingsFrom since offset clock changes).Pairwise (· < ·) := by
  induction changes generalizing since offset with
  | nil =>
    unfold readingsFrom
    split_ifs <;> simp
  | cons change changes ih =>
    rw [List.pairwise_cons] at hchanges
    rw [readingsFrom, List.pairwise_append]
    refine ⟨?_, ih hchanges.2, ?_⟩
    · split_ifs <;> simp
    · -- A reading of this stretch comes before the change, and the others come from then on.
      intro a ha b hb
      simp only [List.mem_ite_nil_right, List.mem_singleton] at ha
      rw [mem_readingsFrom (by simpa using hchanges.1) hchanges.2] at hb
      have hab := hb.1 change.second rfl
      omega

variable {z z' : Zone}

/-- **Readings are the seconds at which clocks show a time.** -/
theorem mem_readings (hz : z.Ascending) {clock second : ℤ} :
    second ∈ z.readings clock ↔ z.clockAt second = clock := by
  rw [readings, mem_readingsFrom (by simp) hz]
  simp [clockAt, offsetAt]

theorem pairwise_readings (hz : z.Ascending) (clock : ℤ) :
    (z.readings clock).Pairwise (· < ·) :=
  pairwise_readingsFrom hz

/-- Where two zones have the same offsets for a day to each side, they have the same readings. -/
theorem readings_congr (hz : z.Ascending) (hz' : z'.Ascending) (hb : z.Bounded) (hb' : z'.Bounded)
    {clock : ℤ} (h : ∀ second, clock - secondsPerDay < second → second < clock + secondsPerDay →
      z.offsetAt second = z'.offsetAt second) : z.readings clock = z'.readings clock := by
  -- A second that is read as `clock` is off by the offset, so by less than a day.
  have hmem : ∀ second, second ∈ z.readings clock ↔ second ∈ z'.readings clock := by
    intro second
    rw [mem_readings hz, mem_readings hz', clockAt, clockAt]
    have hoff := hb.offsetAt second
    have hoff' := hb'.offsetAt second
    constructor
    · intro hclock
      rw [← h second (by omega) (by omega)]
      exact hclock
    · intro hclock
      rw [h second (by omega) (by omega)]
      exact hclock
  have hsorted := (pairwise_readings hz clock).sortedLT
  exact hsorted.eq_of_mem_iff (pairwise_readings hz' clock).sortedLT hmem

/-! ### At most one change in 96 hours -/

theorem offsetAt_single (before second after t : ℤ) :
    (single before second after).offsetAt t = if t < second then before else after :=
  rfl

theorem readings_single (before second after clock : ℤ) :
    (single before second after).readings clock =
      (if clock - before < second then [clock - before] else []) ++
        if second ≤ clock - after then [clock - after] else [] := by
  simp [single, readings, readingsFrom]

/-- **Any 96 hours see one change at most**: the zone agrees there with one that has a single
change. -/
theorem exists_single_of_spaced (hb : z.Bounded) (hz : z.Spaced) (start : ℤ) :
    ∃ before second after, (single before second after).Bounded ∧
      ∀ t, start ≤ t → t < start + 96 * 3600 →
        z.offsetAt t = (single before second after).offsetAt t := by
  obtain ⟨initial, changes⟩ := z
  induction changes generalizing initial with
  | nil =>
    refine ⟨initial, start, initial, ?_, fun t _ _ => ?_⟩
    · simpa [Bounded, offsets, single] using hb
    · rw [offsetAt_single, ite_self]
      rfl
  | cons change changes ih =>
    have hspaced := List.pairwise_cons.mp hz
    by_cases hstart : change.second ≤ start
    · -- The change is over when the 96 hours begin.
      obtain ⟨before, second, after, hbounded, hoff⟩ := ih change.offset
        (fun offset hoffset => hb offset (List.mem_cons_of_mem _ hoffset)) hspaced.2
      refine ⟨before, second, after, hbounded, fun t ht ht' => ?_⟩
      rw [← hoff t ht ht']
      show offsetFrom initial (change :: changes) t = offsetFrom change.offset changes t
      rw [offsetFrom, if_neg (by omega)]
    · -- All later changes come when the 96 hours are over.
      refine ⟨initial, change.second, change.offset, ?_, fun t ht ht' => ?_⟩
      · intro offset hoffset
        apply hb offset
        simp only [offsets, single, List.map_cons, List.map_nil, List.mem_cons,
          List.not_mem_nil, or_false] at hoffset ⊢
        tauto
      · rw [offsetAt_single]
        show offsetFrom initial (change :: changes) t = _
        rw [offsetFrom, offsetFrom_of_lt fun later hlater => ?_]
        have := hspaced.1 later hlater
        omega

end Daybook.Zone
