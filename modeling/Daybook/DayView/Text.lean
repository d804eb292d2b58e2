import Daybook.Calendar.DateText
import Daybook.DayView.Basic

/-!
# A day as text

The text of a day has a heading, a line for each block in reading order, and below an empty line a
grid.  A row of the grid stands for a slot of time and has a letter in each column that is taken
during the slot.  Rows begin at multiples of the slot, counted from the start of the day, and go
from the first slot that is taken to the last.

All times are those of the clock.  The text fails only if the seconds of a slot do not fit 64 bits.
-/

namespace Daybook

/-- Hours and minutes of a clock time. -/
def clockMinuteText (clock : Int) : List Char :=
  let second := (clock % secondsPerDay).toNat
  Text.padded 2 (second / 3600) ++ ':' :: Text.padded 2 (second / 60 % 60)

namespace DayView

/-! ### The list of blocks -/

/-- The title of the task of an entry. -/
def titleOf (agenda : Agenda) (e : Entry) : List Char :=
  match agenda.task? e.task with
  | some task => task.title.toList
  | none => "(unknown task ".toList ++ e.task.text ++ [')']

/-- Fills up with blanks on the right. -/
def fillUp (width : Nat) (cs : List Char) : List Char :=
  cs.rightpad width ' '

/-- What is added to the line of an activity that finished its task. -/
def doneMark : Entry → List Char
  | .activity a => if a.done then " (done)".toList else []
  | .plan _ => []

/-- The line of a block. -/
def Block.line (agenda : Agenda) (zone : Zone) (b : Block) : List Char :=
  let e := b.entry
  clockMinuteText (zone.clockAt e.start.seconds) ++ '-' ::
    clockMinuteText (zone.clockAt e.finish.seconds) ++ "  col ".toList ++ Text.natural b.column ++
    "  ".toList ++ fillUp 8 e.kind.name.toList ++ " #".toList ++
    fillUp 4 (Text.integer e.number.toInt) ++ ' ' :: titleOf agenda e ++ doneMark e

/-! ### The grid -/

/-- The seconds of a slot, at least a minute; none if they do not fit 64 bits. -/
def slotSeconds? (minutes : Int64) : Option Int :=
  let seconds := max minutes.toInt 1 * 60
  if seconds ≤ Int64.maxValue.toInt then some seconds else none

/-- Where a block ends in the grid.  One without length still takes a second. -/
def Block.bottom (b : Block) : Int :=
  b.offset + max b.duration 1

/-- The letter of a block. -/
def Block.letter (b : Block) : Char :=
  match b.entry with
  | .activity _ => 'a'
  | .plan _ => 'p'

/-- Whether a block takes any part of the time from `top` to `bottom`. -/
def Block.meets (b : Block) (top bottom : Int) : Bool :=
  decide (b.offset < bottom ∧ top < b.bottom)

/-- Writes the letters of all blocks that take part of the time from `top` to `bottom`, each in its
column.  A later block covers an earlier one. -/
def paint (blocks : List Block) (top bottom : Int) (cells : List Char) : List Char :=
  blocks.foldl (fun cells b => if b.meets top bottom then cells.set b.column b.letter else cells)
    cells

/-- The starts of rows from `top` on, one slot after the other, as long as they come before `last`.
A slot that takes no time has no rows. -/
def rowStartsFrom (slot last top : Int) : List Int :=
  if 0 < slot ∧ top < last then top :: rowStartsFrom slot last (top + slot) else []
termination_by (last - top).toNat
decreasing_by omega

/-- The starts of the rows, in seconds from the start of the day. -/
def rowStarts (blocks : List Block) (slot : Int) : List Int :=
  match (blocks.map Block.offset).min?, (blocks.map Block.bottom).max? with
  | some first, some last => rowStartsFrom slot last (first / slot * slot)
  | _, _ => []

/-- The row that begins at `top`. -/
def row (v : DayView) (zone : Zone) (slot top : Int) : List Char :=
  let cells := paint v.blocks top (top + slot) (List.replicate v.columnCount ' ')
  clockMinuteText (zone.clockAt (v.bounds.start.seconds + top)) ++ ' ' :: '|' :: Text.trimEnd cells

/-- The rows of the grid. -/
def grid (v : DayView) (zone : Zone) (slot : Int) : List (List Char) :=
  (rowStarts v.blocks slot).map (v.row zone slot)

/-! ### The whole text -/

/-- Ends a line. -/
def endLine (cs : List Char) : List Char :=
  cs ++ ['\n']

/-- The date and the day of the week. -/
def heading (v : DayView) : List Char :=
  v.date.text ++ ' ' :: v.date.weekdayName.toList

/-- **The text of a day**, with slots of the given minutes. -/
def text? (v : DayView) (agenda : Agenda) (zone : Zone) (slotMinutes : Int64) :
    Option (List Char) :=
  if v.blocks.isEmpty then some (endLine (v.heading ++ ": no entries".toList))
  else
    (slotSeconds? slotMinutes).map fun slot =>
      endLine (v.heading ++ ": ".toList ++ Text.natural v.blocks.length ++ " entries in ".toList ++
        Text.natural v.columnCount ++ " columns".toList) ++
      (v.inReadingOrder.map fun b => endLine (b.line agenda zone)).flatten ++
      endLine [] ++
      ((v.grid zone slot).map endLine).flatten

end DayView

end Daybook
