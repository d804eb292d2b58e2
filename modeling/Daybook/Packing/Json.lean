import Daybook.Json.Printer
import Daybook.Json.Record
import Daybook.Packing

/-!
# Packing boxes given as JSON

The boxes come as a list of objects with `start` and `duration`, and the columns go out as one line.
A box may be of negative length where packing is concerned, but not in such a list.
-/

namespace Daybook

/-- The form of a box. -/
def Box.form : Json.RecordForm Box (Int64 × Int64 × Unit) where
  title := "struct RawBox"
  form :=
    .cons { name := "start", reader := Json.int64, absent := none
            write := fun n => some (.ofInt n.toInt) } <|
    .cons { name := "duration", reader := Json.int64, absent := none
            write := fun n => some (.ofInt n.toInt) } <|
    .nil
  toTuple b := (b.start, b.duration, ())
  ofTuple := fun (start, duration, _) => { start, duration }

namespace Packing

/-- A packing as JSON. -/
def toJson (p : Packing) : Json :=
  .ofMembers
    [ ("column_count", .ofInt p.count),
      ("columns", .ofList (p.columns.map fun (column : Nat) => .ofInt column)) ]

/-- **Why a text gives no boxes to pack.** -/
inductive ReadError where
  /-- The text is no list of boxes. -/
  | json (why : Json.Error)
  /-- A box is of negative length. -/
  | negative (index : Nat) (duration : Int64)

/-- The text of an error without its reason. -/
def ReadError.summary : ReadError → String
  | .json _ => "invalid input, expected a JSON array of boxes"
  | .negative index duration =>
    s!"box {Text.showNat index} has negative duration {Text.showInt duration.toInt}"

/-- The text of an error. -/
def ReadError.message : ReadError → String
  | .json (.mismatch why) => s!"{(ReadError.json (.mismatch why)).summary}: {why.message}"
  | error => error.summary

/-- The boxes that a text lists. -/
def boxesOfText (text : List Char) : Except ReadError (List Box) := do
  let boxes ← (Json.read (Json.listOf Box.form.reader) text).mapError .json
  match boxes.zipIdx.find? fun (box, _) => box.duration.toInt < 0 with
  | some (box, index) => throw (.negative index box.duration)
  | none => return boxes

/-- **The columns of the boxes that a text lists**, as one line of JSON. -/
def lineOfText (least : Int64) (text : List Char) : Except ReadError (List Char) := do
  let boxes ← boxesOfText text
  return (pack least boxes).toJson.compact ++ ['\n']

end Packing

end Daybook
