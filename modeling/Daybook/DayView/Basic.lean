import Daybook.Agenda.Basic
import Daybook.Calendar.Zone

/-!
# The view of a day

`DayView.build?` picks the entries that lie within a day, packs them into columns and says how far
from the start of the day each one begins.  Entries are packed with a least height, so that short
ones keep some room; the duration of a block is the true one.
-/

namespace Daybook

/-- **An entry in its place on the day.** -/
structure DayView.Block where
  entry : Entry
  column : Nat
  /-- Seconds from the start of the day to the start of the entry. -/
  offset : Int
  /-- The length of the entry in seconds. -/
  duration : Int
  deriving DecidableEq

/-- **The entries of a day in columns.** -/
structure DayView where
  date : Date
  /-- The stretch of time that the date covers. -/
  bounds : DayBounds
  columnCount : Nat
  /-- The blocks, in the order of their entries. -/
  blocks : List DayView.Block
  deriving DecidableEq

/-- Whether an entry lies within a day: it starts no earlier and ends before the day does. -/
def DayBounds.holds (b : DayBounds) (e : Entry) : Bool :=
  decide (b.start ≤ e.start ∧ e.finish < b.finish)

namespace DayView

/-- The block of an entry. -/
def Block.of (start : Instant) (e : Entry) (column : Nat) : Block :=
  { entry := e, column, offset := e.start.seconds - start.seconds, duration := e.duration }

/-- The view of a date whose bounds are known. -/
def ofBounds (date : Date) (bounds : DayBounds) (least : Int64) (entries : List Entry) : DayView :=
  let shown := entries.filter bounds.holds
  let packing := pack least (shown.map Entry.box)
  { date
    bounds
    columnCount := packing.count
    blocks := List.zipWith (Block.of bounds.start) shown packing.columns }

/-- **The view of a date in a zone.**  There is none if the day runs out of range. -/
def build? (date : Date) (zone : Zone) (least : Int64) (entries : List Entry) : Option DayView :=
  (zone.day? date).map fun bounds => ofBounds date bounds least entries

/-- The length of the day in seconds. -/
def length (v : DayView) : Int :=
  v.bounds.length

/-- Whether a block comes no later than another in reading order: by start, then by column. -/
def Block.before (p q : Block) : Bool :=
  decide (p.offset < q.offset ∨ p.offset = q.offset ∧ p.column ≤ q.column)

/-- The blocks in reading order. -/
def inReadingOrder (v : DayView) : List Block :=
  v.blocks.mergeSort Block.before

/-- The part of the day before a block. -/
def topFraction (v : DayView) (b : Block) : Float :=
  Float.ofInt b.offset / Float.ofInt v.length

/-- The part of the day that a block takes. -/
def heightFraction (v : DayView) (b : Block) : Float :=
  Float.ofInt b.duration / Float.ofInt v.length

end DayView

end Daybook
