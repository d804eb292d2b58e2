import Daybook.Agenda.Json
import Daybook.DayView.Text

/-!
# A day as JSON, and the report of a day

`DayView.toJson` writes a day with all of its blocks.  `DayReport.text?` is what is shown of a day
of an agenda, as text or as JSON.
-/

namespace Daybook

namespace DayView

/-- A block as JSON. -/
def Block.toJson (b : Block) : Json :=
  .ofMembers
    [ ("entry", b.entry.toJson),
      ("column", .ofInt b.column),
      ("offset", .ofInt b.offset),
      ("duration", .ofInt b.duration) ]

/-- A day as JSON. -/
def toJson (v : DayView) : Json :=
  .ofMembers
    [ ("date", .ofString (String.ofList v.date.text)),
      ("start", v.bounds.start.toJson),
      ("end", v.bounds.finish.toJson),
      ("column_count", .ofInt v.columnCount),
      ("blocks", .ofList (v.blocks.map Block.toJson)) ]

end DayView

/-- **What to show of a day, and how.** -/
structure DayReport where
  date : Date
  /-- The least height of an entry in packing, in seconds. -/
  least : Int64
  /-- The minutes of a row of the grid. -/
  slotMinutes : Int64
  /-- Whether to write JSON. -/
  json : Bool

/-- **The report of a day.**  There is none if the day runs out of range or the text's slot does. -/
def DayReport.text? (r : DayReport) (agenda : Agenda) (zone : Zone) : Option (List Char) := do
  let view ← DayView.build? r.date zone r.least agenda.entries
  if r.json then return view.toJson.pretty 0 ++ ['\n']
  else view.text? agenda zone r.slotMinutes

end Daybook
