import Mathlib
import Daybook.Proofs.DayView.AlignedGrid
import Daybook.Proofs.DayView.Lines

/-!
# The text of a day in range

The text of a day is computed with numbers of 64 bits, spans of time and instants, each of which has
a range, and its rows are written by a loop that has no bound.  `rangedText` is the text with all of
that: it stops at the first thing that is out of range, and has no result at all if the loop does
not end (`Ranged`).

What a view is built from keeps it in range, even if entries end before they start: no block begins
before the day, and none ends later than the last second of all (`inRange_of_build?`).  A row begins
at zero or after a slot at least, so that the next one begins at twice the seconds at most
(`IsTop.inInt64_next`).  So each step of the loop writes a row and goes on with the next one
(`rangedStep_of_lt`), the loop ends with the rows of the grid (`rangedRows_eq`), and nothing is ever
out of range but the seconds of a slot (`text_in_range_up_to_slot`).
-/

namespace Daybook

/-! ### Computations with a range -/

/-- **What can be out of range.** -/
inductive OutOfRange where
  /-- A number of 64 bits. -/
  | number
  /-- A span of time. -/
  | span
  /-- An instant. -/
  | instant
  deriving DecidableEq

/-- **A computation that may run out of range**, or have no result since it never ends. -/
abbrev Ranged (α : Type) : Type :=
  ExceptT OutOfRange Part α

/-- Whether a number fits 64 bits. -/
def InInt64 (n : ℤ) : Prop :=
  Int64.minValue.toInt ≤ n ∧ n ≤ Int64.maxValue.toInt

instance (n : ℤ) : Decidable (InInt64 n) :=
  inferInstanceAs (Decidable (_ ∧ _))

namespace Ranged

/-- A number of 64 bits. -/
def number (n : ℤ) : Ranged ℤ :=
  if InInt64 n then pure n else throw .number

/-- The seconds of a span of time, whose milliseconds have to fit 64 bits. -/
def span (seconds : ℤ) : Ranged ℤ :=
  if |seconds| ≤ Int64.maxValue.toInt / 1000 then pure seconds else throw .span

/-- The start of a second. -/
def instant (second : ℤ) : Ranged Instant :=
  match Instant.ofSeconds? second with
  | some t => pure t
  | none => throw .instant

/-- Takes steps from a state on until one gives a result or runs out of range. -/
def loop {σ α : Type} (step : σ → Ranged (α ⊕ σ)) : σ → Ranged α :=
  PFun.fix fun s => (step s).run.map fun
    | .error out => .inl (.error out)
    | .ok (.inl result) => .inl (.ok result)
    | .ok (.inr next) => .inr next

theorem pure_ne_throw {α : Type} {result : α} {out : OutOfRange} :
    (pure result : Ranged α) ≠ throw out :=
  fun h => nomatch Part.some_inj.mp h

theorem number_of_inInt64 {n : ℤ} (h : InInt64 n) : number n = pure n :=
  if_pos h

theorem number_of_not_inInt64 {n : ℤ} (h : ¬ InInt64 n) : number n = throw .number :=
  if_neg h

theorem span_of_le {seconds : ℤ} (h : |seconds| ≤ Int64.maxValue.toInt / 1000) :
    span seconds = pure seconds :=
  if_pos h

theorem instant_of_ofSeconds? {second : ℤ} {t : Instant} (h : Instant.ofSeconds? second = some t) :
    instant second = pure t := by
  rw [instant, h]

section Loop

variable {σ α : Type} {step : σ → Ranged (α ⊕ σ)} {s : σ}

theorem loop_of_result {result : α} (h : step s = pure (.inl result)) :
    loop step s = pure result := by
  refine Part.eq_some_iff.mpr (PFun.fix_stop ?_)
  rw [h]
  exact ⟨trivial, rfl⟩

theorem loop_of_next {next : σ} (h : step s = pure (.inr next)) :
    loop step s = loop step next := by
  refine PFun.fix_fwd_eq ?_
  rw [h]
  exact ⟨trivial, rfl⟩

end Loop

theorem mapM_eq_pure {α β : Type} {f : α → Ranged β} {g : α → β} {xs : List α}
    (h : ∀ x ∈ xs, f x = pure (g x)) : xs.mapM f = pure (xs.map g) := by
  induction xs with
  | nil => rfl
  | cons x xs ih =>
    obtain ⟨hx, hxs⟩ := List.forall_mem_cons.mp h
    rw [List.mapM_cons, hx, ih hxs, pure_bind, pure_bind, List.map_cons]

end Ranged

namespace DayView

open Ranged

/-! ### The text in range -/

/-- The ends of the blocks in the grid. -/
def rangedBottoms (v : DayView) : Ranged (List ℤ) :=
  v.blocks.mapM fun b => number (b.offset + max b.duration 1)

/-- The row from `top` to `next`. -/
def rangedRow (v : DayView) (clocks : Zone) (top next : ℤ) : Ranged (List Char) := do
  let _bottoms ← v.rangedBottoms
  let seconds ← span top
  let t ← instant (v.bounds.start.seconds + seconds)
  let cells := paint v.blocks top next (List.replicate v.columnCount ' ')
  return clockMinuteText (clocks.clockAt t.seconds) ++ ' ' :: '|' :: Text.trimEnd cells

/-- A step of the loop over the rows, from the start of the next row and the rows so far: one row
more, or the result if all blocks have ended. -/
def rangedStep (v : DayView) (clocks : Zone) (slot last : ℤ) :
    ℤ × List (List Char) → Ranged (List (List Char) ⊕ ℤ × List (List Char))
  | (top, rows) => do
    if top < last then
      let next ← number (top + slot)
      let row ← v.rangedRow clocks top next
      return .inr (next, rows ++ [row])
    else return .inl rows

/-- The rows from `top` on.  There is no bound on their number. -/
def rangedRows (v : DayView) (clocks : Zone) (slot last top : ℤ) : Ranged (List (List Char)) :=
  loop (v.rangedStep clocks slot last) (top, [])

/-- The grid with slots of the given minutes. -/
def rangedGrid (v : DayView) (clocks : Zone) (minutes : Int64) : Ranged (List (List Char)) := do
  let slot ← number (max minutes.toInt 1 * 60)
  let bottoms ← v.rangedBottoms
  match (v.blocks.map Block.offset).min?, bottoms.max? with
  | some first, some last =>
    let top ← number (first / slot * slot)
    v.rangedRows clocks slot last top
  | _, _ => return []

/-- **The text of a day in range.** -/
def rangedText (v : DayView) (a : Agenda) (clocks : Zone) (minutes : Int64) :
    Ranged (List Char) := do
  if v.blocks.isEmpty then return endLine (v.heading ++ ": no entries".toList)
  let rows ← v.rangedGrid clocks minutes
  return ((v.items a clocks rows).map endLine).flatten

/-! ### Views in range -/

variable {v : DayView} {a : Agenda} {clocks : Zone} {minutes : Int64} {slot first last top : ℤ}

/-- **What keeps a view in range.** -/
structure InRange (v : DayView) : Prop where
  /-- No block begins before the day. -/
  offset_nonneg : ∀ b ∈ v.blocks, 0 ≤ b.offset
  /-- Blocks end with the last second of all. -/
  start_add_bottom_le : ∀ b ∈ v.blocks,
    v.bounds.start.seconds + (b.offset + max b.duration 1) ≤ Instant.lastSecond + 1

/-- **Views are in range**, whatever they are built from. -/
theorem inRange_of_build? {z : Zone} {d : Date} {least : Int64} {entries : List Entry}
    (hv : v ∈ build? d z least entries) : v.InRange := by
  obtain ⟨bounds, hday, rfl⟩ := Option.map_eq_some_iff.mp hv
  obtain ⟨hnanos, hnanos'⟩ := Zone.nanos_of_day? hday
  constructor
  · intro b hb
    obtain ⟨⟨-, hstart, -⟩, hoffset, -⟩ := mem_blocks_ofBounds hb
    rw [Instant.le_iff_seconds_le hnanos] at hstart
    omega
  · intro b hb
    obtain ⟨⟨-, -, hfinish⟩, hoffset, hduration, -⟩ := mem_blocks_ofBounds hb
    rw [Instant.lt_iff_seconds_lt hnanos'] at hfinish
    have hstart := b.entry.start.le_lastSecond
    have hend := bounds.finish.le_lastSecond
    -- Leap seconds make a block two seconds longer at most than it is by the clock.
    have hcut := abs_le.mp (Instant.abs_secondsSince_sub_le b.entry.finish b.entry.start)
    rw [hoffset, hduration, Entry.duration]
    show bounds.start.seconds + _ ≤ _
    omega

/-- Numbers within the time that instants span fit 64 bits. -/
theorem inInt64_of_le {n : ℤ} (hnonneg : 0 ≤ n)
    (hle : n ≤ Instant.lastSecond + 1 - Instant.firstSecond) : InInt64 n := by
  have hmin : Int64.minValue.toInt ≤ 0 := by decide
  have hmax : Instant.lastSecond + 1 - Instant.firstSecond ≤ Int64.maxValue.toInt := by decide
  exact ⟨by omega, by omega⟩

namespace InRange

variable (h : v.InRange)
include h

theorem bottom_in_range : ∀ b ∈ v.blocks, InInt64 (b.offset + max b.duration 1) := by
  intro b hb
  have hoffset := h.offset_nonneg b hb
  have hbottom := h.start_add_bottom_le b hb
  have hstart := v.bounds.start.firstSecond_le
  exact inInt64_of_le (by omega) (by omega)

theorem rangedBottoms_eq : v.rangedBottoms = pure (v.blocks.map Block.bottom) :=
  mapM_eq_pure fun b hb => number_of_inInt64 (h.bottom_in_range b hb)

theorem bounds_of_isLeast (hfirst : IsLeast v.starts first) :
    0 ≤ first ∧ first ≤ Instant.lastSecond - Instant.firstSecond := by
  obtain ⟨b, hb, rfl⟩ := hfirst.1
  have hstart := v.bounds.start.firstSecond_le
  have hbottom := h.start_add_bottom_le b hb
  exact ⟨h.offset_nonneg b hb, by omega⟩

theorem start_add_le_of_isGreatest (hlast : IsGreatest v.ends last) :
    v.bounds.start.seconds + last ≤ Instant.lastSecond + 1 := by
  obtain ⟨b, hb, rfl⟩ := hlast.1
  exact h.start_add_bottom_le b hb

end InRange

/-! ### The loop over the rows -/

/-- Whether a row may begin at a second: it is in the day, some slots after its start. -/
structure IsTop (slot top : ℤ) : Prop where
  nonneg : 0 ≤ top
  dvd : slot ∣ top

theorem isTop_rowStart (hslot : 0 < slot) (hfirst : 0 ≤ first) (k : ℕ) :
    IsTop slot (rowStart first slot k) where
  nonneg := by
    have hquotient := Int.ediv_nonneg hfirst hslot.le
    exact mul_nonneg (by omega) hslot.le
  dvd := dvd_rowStart first slot k

theorem IsTop.next (htop : IsTop slot top) (hslot : 0 < slot) : IsTop slot (top + slot) where
  nonneg := add_nonneg htop.nonneg hslot.le
  dvd := dvd_add_self_right.mpr htop.dvd

/-- **The next row is in range**: it begins after a single slot, or at twice the seconds at most. -/
theorem IsTop.inInt64_next (htop : IsTop slot top) (hslot : 0 < slot) (hrange : InInt64 slot)
    (hle : top ≤ Instant.lastSecond - Instant.firstSecond) : InInt64 (top + slot) := by
  have hmin : Int64.minValue.toInt ≤ 0 := by decide
  have hmax : 2 * (Instant.lastSecond - Instant.firstSecond) ≤ Int64.maxValue.toInt := by decide
  have hnonneg := htop.nonneg
  rcases hnonneg.eq_or_lt with rfl | hpos
  · rwa [zero_add]
  · have hslot_le := Int.le_of_dvd hpos htop.dvd
    exact ⟨by omega, by omega⟩

namespace InRange

variable (h : v.InRange)
include h

/-- **A row that begins before the last second is in range.** -/
theorem rangedRow_eq (htop : 0 ≤ top) (hle : v.bounds.start.seconds + top ≤ Instant.lastSecond) :
    v.rangedRow clocks top (top + slot) = pure (v.row clocks slot top) := by
  have hstart := v.bounds.start.firstSecond_le
  have hspan : |top| ≤ Int64.maxValue.toInt / 1000 := by
    have hmax : Instant.lastSecond - Instant.firstSecond ≤ Int64.maxValue.toInt / 1000 := by decide
    rw [abs_of_nonneg htop]
    omega
  obtain ⟨t, ht⟩ := Option.isSome_iff_exists.mp
    (Instant.ofSeconds?_isSome_iff.mpr ⟨by omega, hle⟩)
  obtain ⟨hseconds, -⟩ := Instant.ofSeconds?_eq_some_iff.mp ht
  rw [rangedRow, h.rangedBottoms_eq, span_of_le hspan]
  simp only [pure_bind, instant_of_ofSeconds? ht, hseconds, row]

variable (hslot : 0 < slot) (hrange : InInt64 slot)
  (hlast : v.bounds.start.seconds + last ≤ Instant.lastSecond + 1) (htop : IsTop slot top)
include hslot hrange hlast htop

/-- **What a step of the loop does**: it writes a row, and the next row is in range. -/
theorem rangedStep_of_lt (hlt : top < last) (rows : List (List Char)) :
    v.rangedStep clocks slot last (top, rows) =
      pure (.inr (top + slot, rows ++ [v.row clocks slot top])) := by
  have hstart := v.bounds.start.firstSecond_le
  have hnext := htop.inInt64_next hslot hrange (by omega)
  rw [rangedStep, if_pos hlt, number_of_inInt64 hnext, pure_bind,
    h.rangedRow_eq htop.nonneg (by omega), pure_bind]

/-- **The loop ends**, with the rows of the grid. -/
theorem rangedRows_eq : v.rangedRows clocks slot last top =
    pure ((rowStartsFrom slot last top).map (v.row clocks slot)) := by
  -- Generalized over the rows so far, which stay in front of all that follow.
  have hloop : ∀ rows, loop (v.rangedStep clocks slot last) (top, rows) =
      pure (rows ++ (rowStartsFrom slot last top).map (v.row clocks slot)) := by
    fun_induction rowStartsFrom slot last top with
    | case1 top hlt ih =>
      intro rows
      rw [loop_of_next (h.rangedStep_of_lt hslot hrange hlast htop hlt.2 rows),
        ih (htop.next hslot), List.map_cons, List.append_assoc, List.singleton_append]
    | case2 top hge =>
      intro rows
      rw [List.map_nil, List.append_nil]
      refine loop_of_result ?_
      rw [rangedStep, if_neg fun hlt => hge ⟨hslot, hlt⟩]
  exact hloop []

end InRange

/-! ### The text as a whole -/

/-- The seconds of a slot are out of range if they are too many. -/
theorem slotSeconds?_eq_none_iff :
    slotSeconds? minutes = none ↔ Int64.maxValue.toInt < max minutes.toInt 1 * 60 := by
  rw [slotSeconds?, ite_eq_right_iff, ← not_le]
  simp

theorem eq_of_slotSeconds? (h : slotSeconds? minutes = some slot) :
    slot = max minutes.toInt 1 * 60 ∧ slot ≤ Int64.maxValue.toInt := by
  rw [slotSeconds?, Option.ite_none_right_eq_some, Option.some_inj] at h
  obtain ⟨hle, rfl⟩ := h
  exact ⟨rfl, hle⟩

theorem rangedGrid_of_slotSeconds? (hslot : slotSeconds? minutes = none) :
    v.rangedGrid clocks minutes = throw .number := by
  have hlt := slotSeconds?_eq_none_iff.mp hslot
  rw [rangedGrid, number_of_not_inInt64 fun hrange => hrange.2.not_gt hlt, ExceptT.bind_throw]

/-- **The grid is in range** if the seconds of its slots are. -/
theorem InRange.rangedGrid_eq (h : v.InRange) (hslot : slotSeconds? minutes = some slot) :
    v.rangedGrid clocks minutes = pure (v.grid clocks slot) := by
  obtain ⟨hseconds, hle⟩ := eq_of_slotSeconds? hslot
  have hpos : 0 < slot := by omega
  have hrange : InInt64 slot := ⟨hpos.le.trans' (by decide), hle⟩
  rw [rangedGrid, ← hseconds, number_of_inInt64 hrange, pure_bind, h.rangedBottoms_eq, pure_bind,
    grid, rowStarts]
  cases hfirst : (v.blocks.map Block.offset).min? with
  | none => rfl
  | some first =>
    cases hlast : (v.blocks.map Block.bottom).max? with
    | none => rfl
    | some last =>
      obtain ⟨hnonneg, hle⟩ := h.bounds_of_isLeast (min?_offset_eq_some_iff.mp hfirst)
      have hend := h.start_add_le_of_isGreatest (max?_bottom_eq_some_iff.mp hlast)
      have htop : IsTop slot (first / slot * slot) := by
        simpa [rowStart] using isTop_rowStart hpos hnonneg 0
      have hfloor := Int.ediv_mul_le first hpos.ne'
      have htop_range := inInt64_of_le htop.nonneg (by omega)
      simp only [number_of_inInt64 htop_range, pure_bind, h.rangedRows_eq hpos hrange hend htop]

/-- **The text is in range** if it is without blocks or the seconds of its slots are. -/
theorem InRange.rangedText_eq (h : v.InRange) :
    v.rangedText a clocks minutes = (v.text? a clocks minutes).elim (throw .number) pure := by
  by_cases hblocks : v.blocks = []
  · rw [text?_of_nil hblocks, rangedText, hblocks]
    rfl
  · rw [text?_of_blocks hblocks, rangedText, if_neg (by simpa using hblocks)]
    cases hslot : slotSeconds? minutes with
    | none =>
      rw [rangedGrid_of_slotSeconds? hslot, ExceptT.bind_throw]
      rfl
    | some slot =>
      rw [h.rangedGrid_eq hslot, pure_bind]
      rfl

/-- **How many rows there are**: as many as slots begin before all blocks have ended. -/
theorem length_grid_eq_ceil (hslot : 0 < slot) (hfirst : IsLeast v.starts first)
    (hlast : IsGreatest v.ends last) :
    ((v.grid clocks slot).length : ℤ) =
      ⌈((last - first / slot * slot : ℤ) : ℚ) / slot⌉ := by
  have hrows := lt_length_grid_iff hslot hfirst hlast (z := clocks)
  have hend : last ≤ rowStart first slot (v.grid clocks slot).length :=
    not_lt.mp ((hrows _).not.mp (lt_irrefl _))
  -- The first block begins in the first row, so that there is a last one.
  obtain ⟨b, hb, hoffset⟩ := hfirst.1
  have hlt : first < last := by
    have hbottom := hlast.2 ⟨b, hb, rfl⟩
    omega
  have hzero : rowStart first slot 0 < last := by
    simpa [rowStart] using (Int.ediv_mul_le first hslot.ne').trans_lt hlt
  obtain ⟨n, hn⟩ := Nat.exists_eq_succ_of_ne_zero ((hrows 0).mpr hzero).ne'
  have hbegin : rowStart first slot n < last := (hrows n).mp (by omega)
  have hslot' : (0 : ℚ) < slot := by exact_mod_cast hslot
  rw [eq_comm, Int.ceil_eq_iff, lt_div_iff₀ hslot', div_le_iff₀ hslot']
  rw [hn] at hend ⊢
  rw [rowStart, add_mul] at hend hbegin
  push_cast at hend
  constructor
  · have hcount : (n : ℤ) * slot < last - first / slot * slot := by omega
    push_cast
    rw [add_sub_cancel_right]
    exact_mod_cast hcount
  · have hcount : last - first / slot * slot ≤ ((n : ℤ) + 1) * slot := by omega
    exact_mod_cast hcount

/-- The end of a row is in range, and so is the instant at which it begins. -/
theorem InRange.row_in_range (h : v.InRange) (hslot : 0 < slot) (hrange : InInt64 slot)
    (hfirst : IsLeast v.starts first) (hlast : IsGreatest v.ends last) {k : ℕ}
    (hk : rowStart first slot k < last) :
    InInt64 (rowStart first slot k + slot) ∧
      (Instant.ofSeconds? (v.bounds.start.seconds + rowStart first slot k)).isSome := by
  have htop := isTop_rowStart hslot (h.bounds_of_isLeast hfirst).1 k
  have hend := h.start_add_le_of_isGreatest hlast
  have hstart := v.bounds.start.firstSecond_le
  have hnonneg := htop.nonneg
  refine ⟨htop.inInt64_next hslot hrange (by omega), ?_⟩
  rw [Instant.ofSeconds?_isSome_iff]
  omega

/-- Whether the seconds of a slot are too many for a text with blocks. -/
def SlotTooLong (v : DayView) (minutes : Int64) : Prop :=
  v.blocks ≠ [] ∧ Int64.maxValue.toInt < max minutes.toInt 1 * 60

theorem text?_eq_none_iff (a : Agenda) (clocks : Zone) :
    v.text? a clocks minutes = none ↔ v.SlotTooLong minutes := by
  by_cases hblocks : v.blocks = []
  · simp [text?_of_nil hblocks, SlotTooLong, hblocks]
  · rw [text?_of_blocks hblocks, Option.map_eq_none_iff, slotSeconds?_eq_none_iff, SlotTooLong]
    simp [hblocks]

/-- **Only the seconds of a slot can be out of range.** Whatever entries a view is built from, its
text stops at something out of range if and only if it has blocks and slots whose seconds do not fit
64 bits.  In all other cases the loop ends and the text is the one that was to be written.  The
number of rows is the time from the first row to the end of the last block, in slots and rounded up;
no end of a block, no start of another row and no instant of a row is out of range then. -/
theorem text_in_range_up_to_slot {z : Zone} {d : Date} {least : Int64} {entries : List Entry}
    (hv : v ∈ build? d z least entries) (a : Agenda) (clocks : Zone) (minutes : Int64) :
    ((∃ out, v.rangedText a clocks minutes = throw out) ↔ v.SlotTooLong minutes) ∧
    (¬ v.SlotTooLong minutes → ∃ text ∈ v.text? a clocks minutes,
      v.rangedText a clocks minutes = pure text) ∧
    (v.blocks ≠ [] → ∀ slot, slot = max minutes.toInt 1 * 60 → slot ≤ Int64.maxValue.toInt →
      ∃ first last, IsLeast v.starts first ∧ IsGreatest v.ends last ∧
        ((v.grid clocks slot).length : ℤ) =
          ⌈((last - first / slot * slot : ℤ) : ℚ) / slot⌉ ∧
        (∀ b ∈ v.blocks, InInt64 (b.offset + max b.duration 1)) ∧
        ∀ k < (v.grid clocks slot).length, InInt64 (rowStart first slot k + slot) ∧
          (Instant.ofSeconds? (v.bounds.start.seconds + rowStart first slot k)).isSome) := by
  have h := inRange_of_build? hv
  refine ⟨?_, fun hslot => ?_, fun hblocks slot hslot hle => ?_⟩
  · rw [h.rangedText_eq, ← text?_eq_none_iff a clocks]
    cases htext : v.text? a clocks minutes with
    | none => exact ⟨fun _ => rfl, fun _ => ⟨.number, rfl⟩⟩
    | some text => exact ⟨fun ⟨_, hout⟩ => absurd hout pure_ne_throw, fun hnone => nomatch hnone⟩
  · rw [← text?_eq_none_iff a clocks] at hslot
    obtain ⟨text, htext⟩ := Option.ne_none_iff_exists'.mp hslot
    refine ⟨text, htext, ?_⟩
    rw [h.rangedText_eq, htext]
    rfl
  · have hpos : 0 < slot := by omega
    have hrange : InInt64 slot := ⟨hpos.le.trans' (by decide), hle⟩
    obtain ⟨first, hfirst⟩ := exists_isLeast_starts hblocks
    obtain ⟨last, hlast⟩ := exists_isGreatest_ends hblocks
    refine ⟨first, last, hfirst, hlast, length_grid_eq_ceil hpos hfirst hlast,
      h.bottom_in_range, fun k hk => ?_⟩
    exact h.row_in_range hpos hrange hfirst hlast
      ((lt_length_grid_iff hpos hfirst hlast k).mp hk)

/-- A plan that ends before it starts: it has one row in slots of half an hour, and its text is in
range also with the longest slots that fit 64 bits, but not with slots a minute longer. -/
theorem text_in_range_up_to_slot_inverted :
    let d : Date := ⟨19849, by decide, by decide⟩
    let start := Instant.ofSeconds 1714989600 (by decide)
    let finish := Instant.ofSeconds 1714986000 (by decide)
    let e : Entry :=
      .plan ⟨⟨1, by decide⟩, ⟨1, by decide⟩, none, "", start, finish, none, none⟩
    let a : Agenda := ⟨[], [], []⟩
    ∃ v ∈ build? d Zone.utc 0 [e],
      v.blocks = [⟨e, 0, 36000, -3600⟩] ∧
      (∃ text ∈ v.text? a Zone.utc 30, v.rangedText a Zone.utc 30 = pure text) ∧
      (v.grid Zone.utc 1800).length = 1 ∧
      (∃ text ∈ v.text? a Zone.utc 153722867280912930,
        v.rangedText a Zone.utc 153722867280912930 = pure text) ∧
      ∃ out, v.rangedText a Zone.utc 153722867280912931 = throw out := by
  intro d start finish e a
  have hblocks : (build? d Zone.utc 0 [e]).map DayView.blocks =
      some [⟨e, 0, 36000, -3600⟩] := by cbv
  obtain ⟨v, hv, hblocks⟩ := Option.map_eq_some_iff.mp hblocks
  have hne : v.blocks ≠ [] := by simp [hblocks]
  have hshort : ¬ v.SlotTooLong 30 := fun h => absurd h.2 (by decide)
  have hlong : ¬ v.SlotTooLong 153722867280912930 := fun h => absurd h.2 (by decide)
  have htoo : v.SlotTooLong 153722867280912931 := ⟨hne, by decide⟩
  obtain ⟨first, last, hfirst, hlast, hcount, -⟩ :=
    (text_in_range_up_to_slot hv a Zone.utc 30).2.2 hne 1800 (by decide) (by decide)
  obtain rfl : first = 36000 :=
    hfirst.unique (min?_offset_eq_some_iff.mp (by rw [hblocks]; rfl))
  obtain rfl : last = 36001 :=
    hlast.unique (max?_bottom_eq_some_iff.mp (by rw [hblocks]; rfl))
  refine ⟨v, hv, hblocks, (text_in_range_up_to_slot hv a Zone.utc _).2.1 hshort, ?_,
    (text_in_range_up_to_slot hv a Zone.utc _).2.1 hlong,
    (text_in_range_up_to_slot hv a Zone.utc _).1.mpr htoo⟩
  norm_num at hcount
  exact_mod_cast hcount

end DayView

end Daybook
