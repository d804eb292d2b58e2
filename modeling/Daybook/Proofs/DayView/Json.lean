import Mathlib
import Daybook.DayView.Json
import Daybook.Proofs.Agenda.RoundTrip
import Daybook.Proofs.Calendar.DateText
import Daybook.Proofs.DayView.Blocks

/-!
# The view of a day as JSON

Days are only written, but nothing of them is lost in doing so.  `DayView.form` says how a day is
read back from what is written, each part as what it is: dates and instants from their texts,
entries as entries, and the numbers exactly.  The blocks come in their order.  Since each part is
read back, so is the day (`DayView.readsBack`), and so is the report of a day of an agenda
(`DayView.json_report_read_back`).
-/

namespace Daybook

open Json (Field RecordForm Reader ReadsBack)

/-! ### Numbers and dates -/

namespace Json

/-- Reads a whole number of any size, as it is written. -/
def integer : Reader ℤ
  | .number n =>
    let value : ℤ := if n.negative then -Text.naturalOf n.whole else Text.naturalOf n.whole
    if n = .ofInt value then .ok value else .error .malformed
  | j => .error (wrongType "an integer" j)

/-- Reads a whole number that is not negative. -/
def natural : Reader ℕ := fun j => do
  let n ← integer j
  if 0 ≤ n then return n.toNat else throw .malformed

theorem readsBack_integer : ReadsBack ofInt integer where
  proper := proper_ofInt
  reader_write n := by
    have hwhole : Text.naturalOf (Number.ofInt n).whole = n.natAbs := Text.naturalOf_natural _
    have hvalue : (if (Number.ofInt n).negative then -(n.natAbs : ℤ) else n.natAbs) = n := by
      simp only [Number.ofInt, decide_eq_true_eq]
      split <;> omega
    rw [ofInt, integer]
    simp only [hwhole, hvalue, if_pos]

theorem readsBack_natural : ReadsBack (fun n : ℕ => ofInt n) natural where
  proper n := proper_ofInt n
  reader_write n := by
    refine Except.bind_eq_ok (readsBack_integer.reader_write n) ?_
    rw [if_pos (Int.natCast_nonneg n), Int.toNat_natCast]
    rfl

end Json

namespace Date

/-- Writes a date. -/
def toJson (d : Date) : Json :=
  .ofString (String.ofList d.text)

/-- Reads a date. -/
def reader : Reader Date := fun j => do
  let text ← Json.text j
  (ofText text.toList).mapError fun fault => .mismatch (.refused fault.message)

theorem readsBack : ReadsBack toJson reader where
  proper d := .string _
  reader_write d := by
    refine Except.bind_eq_ok (Json.readsBack_text.reader_write _) ?_
    rw [Except.mapError_eq_ok_iff, String.toList_ofList, d.ofText_text]

end Date

/-! ### Blocks and days -/

namespace DayView

/-- The form of a block. -/
def Block.form : RecordForm Block (Entry × ℕ × ℤ × ℤ × Unit) where
  title := "struct DayBlock"
  form :=
    .cons (.required "entry" Entry.reader Entry.toJson) <|
    .cons (.required "column" Json.natural fun column => .ofInt column) <|
    .cons (.required "offset" Json.integer .ofInt) <|
    .cons (.required "duration" Json.integer .ofInt) <|
    .nil
  toTuple b := (b.entry, b.column, b.offset, b.duration, ())
  ofTuple := fun (entry, column, offset, duration, _) => { entry, column, offset, duration }

/-- The form of a day. -/
def form : RecordForm DayView (Date × Instant × Instant × ℕ × List Block × Unit) where
  title := "struct DayView"
  form :=
    .cons (.required "date" Date.reader Date.toJson) <|
    .cons (.required "start" Instant.reader Instant.toJson) <|
    .cons (.required "end" Instant.reader Instant.toJson) <|
    .cons (.required "column_count" Json.natural fun count => .ofInt count) <|
    .cons (.required "blocks" (Json.listOf Block.form.reader)
      fun blocks => .ofList (blocks.map Block.toJson)) <|
    .nil
  toTuple v := (v.date, v.bounds.start, v.bounds.finish, v.columnCount, v.blocks, ())
  ofTuple := fun (date, start, finish, columnCount, blocks, _) =>
    { date, bounds := { start, finish }, columnCount, blocks }

theorem Block.lossless_form : Block.form.Lossless Json.Proper where
  form_lossless :=
    ⟨Field.lossless_required Entry.readsBack Entry.readsBack.proper, by decide,
      Field.lossless_required Json.readsBack_natural Json.readsBack_natural.proper, by decide,
      Field.lossless_required Json.readsBack_integer Json.proper_ofInt, by decide,
      Field.lossless_required Json.readsBack_integer Json.proper_ofInt, by decide, trivial⟩
  ofTuple_toTuple _ := rfl

/-- **A block is read back.** -/
theorem Block.readsBack : ReadsBack Block.toJson Block.form.reader :=
  Block.lossless_form.readsBack fun _ => id

theorem lossless_form : form.Lossless Json.Proper :=
  have hblocks := Block.readsBack.listOf
  { form_lossless :=
      ⟨Field.lossless_required Date.readsBack Date.readsBack.proper, by decide,
        Field.lossless_required Instant.readsBack Instant.readsBack.proper, by decide,
        Field.lossless_required Instant.readsBack Instant.readsBack.proper, by decide,
        Field.lossless_required Json.readsBack_natural Json.readsBack_natural.proper, by decide,
        Field.lossless_required hblocks hblocks.proper, by decide, trivial⟩
    ofTuple_toTuple := fun _ => rfl }

/-- **A day is read back**, because its blocks are. -/
theorem readsBack : ReadsBack toJson form.reader :=
  lossless_form.readsBack fun _ => id

/-! ### The report of a day -/

variable {z : Zone} {d : Date} {bounds : DayBounds}

/-- **The report of a day as JSON loses nothing.**  If the date has a day, there is a report, and it
is the same for all slots.  It is one object with nothing behind it, and the view of the day is read
back from it: its date and bounds, the number of its columns, and its blocks in their order, each
with the column, the offset and the duration that it has, and with an entry of the agenda that lies
within the day. -/
theorem json_report_read_back (hday : z.day? d = some bounds) (least : Int64) (agenda : Agenda) :
    ∃ v ∈ build? d z least agenda.entries, ∃ text members,
      (∀ slotMinutes,
        DayReport.text? { date := d, least, slotMinutes, json := true } agenda z = some text) ∧
      Json.parse text = { root := .object members true, ended := true } ∧
      Json.read form.reader text = .ok v ∧
      v.date = d ∧ v.bounds = bounds ∧
      v.blocks.map Block.entry =
        agenda.entries.filter (fun e => bounds.start ≤ e.start ∧ e.finish < bounds.finish) := by
  have hbuild :
      build? d z least agenda.entries = some (ofBounds d bounds least agenda.entries) := by
    rw [build?, hday, Option.map_some]
  generalize hv : ofBounds d bounds least agenda.entries = v at hbuild
  have hproper := readsBack.proper v
  have hparse := hproper.parse_line (Json.spells_pretty hproper 0)
  refine ⟨v, hbuild, v.toJson.pretty 0 ++ ['\n'], _, ?_, hparse, ?_, ?_, ?_, ?_⟩
  · intro slotMinutes
    rw [DayReport.text?, hbuild]
    rfl
  · rw [Json.read, hparse]
    exact Except.bind_eq_ok (readsBack.reader_write v) rfl
  · rw [← hv]
    rfl
  · rw [← hv]
    rfl
  · rw [← hv]
    exact map_entry_blocks_ofBounds d bounds least agenda.entries

/-- An hour in UTC whose place is told in two lines and with quotes. -/
theorem json_report_read_back_quotes :
    let d : Date := ⟨19849, by decide, by decide⟩
    let next : Date := ⟨19850, by decide, by decide⟩
    let start := Instant.ofSeconds 1714989600 (by decide)
    let finish := Instant.ofSeconds 1714993200 (by decide)
    let activity : Activity :=
      ⟨⟨1, by decide⟩, ⟨1, by decide⟩, "\"Room\"\n\\2", start, finish, false, ""⟩
    let agenda : Agenda := ⟨[], [activity], []⟩
    Zone.utc.day? d = some ⟨Instant.startOf d, Instant.startOf next⟩ ∧
      ∃ v, v.blocks.map Block.entry = [.activity activity] ∧ ∃ text,
        (∀ slotMinutes, DayReport.text? ⟨d, 900, slotMinutes, true⟩ agenda Zone.utc = some text) ∧
        Json.read form.reader text = .ok v := by
  intro d next start finish activity agenda
  have hday : Zone.utc.day? d = some ⟨Instant.startOf d, Instant.startOf next⟩ := by decide
  obtain ⟨v, -, text, -, htext, -, hread, -, -, hentries⟩ := json_report_read_back hday 900 agenda
  exact ⟨hday, v, hentries.trans (by decide), text, htext, hread⟩

end DayView

end Daybook
