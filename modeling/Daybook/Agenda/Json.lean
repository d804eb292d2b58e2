import Daybook.Agenda.Basic
import Daybook.Calendar.InstantText
import Daybook.Json.Printer
import Daybook.Json.Record

/-!
# Agendas in JSON

How each kind of record is written and read.  Instants are texts and ids are numbers.  A task,
activity or plan is a record of its fields; what has a default may be absent, but only what is
optional may be `null`, and only that is left out when there is nothing to write.

An entry is the record of an activity or a plan with one more member, `kind`, which may stand
anywhere in the object.  The kind decides how the other members are read, so they are kept until the
object has ended.  What is kept is bounded: it may not be nested deeper than `Entry.maxDepth`, and
all of its strings and numbers must stand for something, whether they are used or not.
-/

namespace Daybook

open Json (Field Form RecordForm Reader Mismatch)

/-! ### Leaves -/

/-- Reads an id. -/
def Id.reader (of : Numbered) : Reader (Id of) := fun j => do
  let number ← Json.int64 j
  (Id.ofNumber of number).mapError fun problem => .mismatch (.refused problem.message)

/-- Writes an id. -/
def Id.toJson (id : Id of) : Json :=
  .ofInt id.number.toInt

/-- Reads an instant. -/
def Instant.reader : Reader Instant := fun j => do
  let text ← Json.stringAs "an RFC 3339 formatted date and time string" j
  (Instant.ofText text.toList).mapError fun fault => .mismatch (.refused fault.message)

/-- Writes an instant. -/
def Instant.toJson (t : Instant) : Json :=
  .ofString (String.ofList t.text)

/-! ### Fields -/

namespace Json.Field

/-- A field that has to be there. -/
def required (name : String) (reader : Reader α) (write : α → Json) : Field α :=
  { name, reader, absent := none, write := fun x => some (write x) }

/-- A field that has a default. -/
def defaulted (name : String) (absent : α) (reader : Reader α) (write : α → Json) : Field α :=
  { name, reader, absent := some absent, write := fun x => some (write x) }

/-- A field that may be `null` or absent, and is left out if there is nothing to write. -/
def optional (name : String) (reader : Reader α) (write : α → Json) : Field (Option α) :=
  { name, reader := Json.optional reader, absent := some none, write := Option.map write }

/-- A text that is empty by default. -/
def text (name : String) : Field String :=
  defaulted name "" Json.text .ofString

end Json.Field

/-! ### Records -/

/-- The form of a task. -/
def Task.form : RecordForm Task (TaskId × String × String × Option Instant × Option Instant × Unit)
    where
  title := "struct Task"
  form :=
    .cons (.required "id" (Id.reader .task) Id.toJson) <|
    .cons (.required "quick_title" Json.text .ofString) <|
    .cons (.text "description") <|
    .cons (.optional "deadline" Instant.reader Instant.toJson) <|
    .cons (.optional "due" Instant.reader Instant.toJson) <|
    .nil
  toTuple t := (t.id, t.title, t.description, t.deadline, t.due, ())
  ofTuple := fun (id, title, description, deadline, due, _) =>
    { id, title, description, deadline, due }

/-- The form of an activity. -/
def Activity.form :
    RecordForm Activity
      (ActivityId × TaskId × String × Instant × Instant × Bool × String × Unit) where
  title := "struct Activity"
  form :=
    .cons (.required "id" (Id.reader .activity) Id.toJson) <|
    .cons (.required "task_id" (Id.reader .task) Id.toJson) <|
    .cons (.text "location") <|
    .cons (.required "time_start" Instant.reader Instant.toJson) <|
    .cons (.required "time_end" Instant.reader Instant.toJson) <|
    .cons (.defaulted "done" false Json.boolean .bool) <|
    .cons (.text "note") <|
    .nil
  toTuple a := (a.id, a.task, a.location, a.start, a.finish, a.done, a.note, ())
  ofTuple := fun (id, task, location, start, finish, done, note, _) =>
    { id, task, location, start, finish, done, note }

/-- The form of a plan. -/
def Plan.form :
    RecordForm Plan
      (PlanId × TaskId × Option ActivityId × String × Instant × Instant × Option Int64 ×
        Option Int64 × Unit) where
  title := "struct Plan"
  form :=
    .cons (.required "id" (Id.reader .plan) Id.toJson) <|
    .cons (.required "task_id" (Id.reader .task) Id.toJson) <|
    .cons (.optional "activity_id" (Id.reader .activity) Id.toJson) <|
    .cons (.text "location") <|
    .cons (.required "time_at_after" Instant.reader Instant.toJson) <|
    .cons (.required "time_before" Instant.reader Instant.toJson) <|
    .cons (.optional "duration_ge" Json.int64 fun n => .ofInt n.toInt) <|
    .cons (.optional "duration_lt" Json.int64 fun n => .ofInt n.toInt) <|
    .nil
  toTuple p :=
    (p.id, p.task, p.activity, p.location, p.start, p.finish, p.atLeast, p.below, ())
  ofTuple := fun (id, task, activity, location, start, finish, atLeast, below, _) =>
    { id, task, activity, location, start, finish, atLeast, below }

/-- The form of an agenda. -/
def Agenda.form : RecordForm Agenda (List Task × List Activity × List Plan × Unit) where
  title := "struct Agenda"
  form :=
    .cons (.defaulted "tasks" [] (Json.listOf Task.form.reader)
      fun tasks => .ofList (tasks.map Task.form.toJson)) <|
    .cons (.defaulted "activities" [] (Json.listOf Activity.form.reader)
      fun activities => .ofList (activities.map Activity.form.toJson)) <|
    .cons (.defaulted "plans" [] (Json.listOf Plan.form.reader)
      fun plans => .ofList (plans.map Plan.form.toJson)) <|
    .nil
  toTuple a := (a.tasks, a.activities, a.plans, ())
  ofTuple := fun (tasks, activities, plans, _) => { tasks, activities, plans }

/-! ### Entries -/

namespace Json

mutual

/-- Whether a value can be kept: nothing of it is missing, its strings and numbers stand for
something, and it is nested at most `depth` deep. -/
def keepable (depth : Nat) : Json → Bool
  | .null => true
  | .bool _ => true
  | .number n => n.numeral?.isSome
  | .string s => s.isSome
  | .array items closed =>
    match depth with
    | 0 => false
    | depth + 1 => keepableItems depth items && closed
  | .object members closed =>
    match depth with
    | 0 => false
    | depth + 1 => keepableMembers depth members && closed
  | .broken => false

/-- Whether all items can be kept. -/
def keepableItems (depth : Nat) : List Json → Bool
  | [] => true
  | item :: items => keepable depth item && keepableItems depth items

/-- Whether all members can be kept. -/
def keepableMembers (depth : Nat) : List (Option String × Json) → Bool
  | [] => true
  | (key, value) :: members =>
    key.isSome && keepable depth value && keepableMembers depth members

end

end Json

namespace Entry

/-- The key of the member that tells the kind. -/
def kindKey : String := "kind"

/-- How deep an entry may be nested, its own braces counted. -/
def maxDepth : Nat := 127

/-- Reads a kind. -/
def Kind.reader : Reader Kind := fun j => do
  let name ← Json.stringAs "variant identifier" j
  if name = Kind.activity.name then return .activity
  else if name = Kind.plan.name then return .plan
  else throw (.mismatch (.unknownVariant name "`activity` or `plan`"))

/-- The kind among the members of an object, after `found`.  It is read where it stands; all other
members only have to be such that they can be kept. -/
def findKind (found : Option Kind) : List (Option String × Json) → Except Json.Error (Option Kind)
  | [] => .ok found
  | (none, _) :: _ => .error .malformed
  | (some key, value) :: members =>
    if key = kindKey then
      match found with
      | some _ => .error (.mismatch (.duplicateField kindKey))
      | none =>
        match Kind.reader value with
        | .ok kind => findKind (some kind) members
        | .error e => .error e
    else if value.keepable (maxDepth - 1) then findKind found members
    else .error .malformed

/-- The members other than the kind. -/
def withoutKind (members : List (Option String × Json)) : List (Option String × Json) :=
  members.filter fun (key, _) => key ≠ some kindKey

/-- A record from the items of a list behind the kind. -/
def recordOfItems (record : RecordForm ρ α) (items : List Json) : Except Json.Error ρ := do
  let (x, left) ← record.form.ofItems record.short 0 items
  if left.isEmpty then return record.ofTuple x
  else
    throw (.mismatch (.wrongLength items.length
      s!"{Text.showNat record.form.size} elements in sequence"))

/-- Reads an entry. -/
def reader : Reader Entry
  | .object members closed => do
    let kind ← findKind none members
    if !closed then throw .malformed
    match kind with
    | none => throw (.mismatch (.missingField kindKey))
    | some .activity => .activity <$> Activity.form.ofMembers (withoutKind members) true
    | some .plan => .plan <$> Plan.form.ofMembers (withoutKind members) true
  | .array [] closed =>
    .error (if closed then .mismatch (.missingField kindKey) else .malformed)
  | .array (first :: items) closed => do
    let kind ← Kind.reader first
    if !Json.keepableItems (maxDepth - 1) items || !closed then throw .malformed
    match kind with
    | .activity => .activity <$> recordOfItems Activity.form items
    | .plan => .plan <$> recordOfItems Plan.form items
  | j => .error (Json.wrongType "internally tagged enum Entry" j)

/-- The members of an entry. -/
def members (e : Entry) : List (String × Json) :=
  (kindKey, .ofString e.kind.name) ::
    match e with
    | .activity a => Activity.form.members a
    | .plan p => Plan.form.members p

/-- Writes an entry. -/
def toJson (e : Entry) : Json :=
  .ofMembers e.members

end Entry

/-! ### Agendas -/

namespace Agenda

/-- **Why a text is no agenda that can be used.** -/
inductive ReadError where
  /-- The text is no agenda. -/
  | json (why : Json.Error)
  /-- Something is wrong with the agenda. -/
  | problem (what : Problem)

/-- Reads an agenda and checks it. -/
def ofText (text : List Char) : Except ReadError Agenda := do
  let agenda ← (Json.read Agenda.form.reader text).mapError .json
  agenda.check.mapError .problem
  return agenda

/-- The text of an error. -/
def ReadError.message : ReadError → String
  | .json .malformed => "invalid agenda JSON"
  | .json (.mismatch why) => s!"invalid agenda JSON: {why.message}"
  | .problem what => s!"invalid agenda: {what.message}"

end Agenda

end Daybook
