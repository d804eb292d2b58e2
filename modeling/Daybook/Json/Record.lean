import Daybook.Json.Reader

/-!
# Records in JSON

A record is written as an object with a member for each field.  It is read from such an object, in
any order and with unknown members among the known ones, or from a list of the fields in their
order.  A `Form` lists the fields of a record, from first to last, and says for each how it is read
and written and what it is when it is absent; all reading and writing of records follows from it.

The values of the fields form a nested pair, one component for each field; `RecordForm` ties such
pairs to a structure.
-/

namespace Daybook.Json

/-- **A field of a record.** -/
structure Field (α : Type) where
  /-- The key of its member. -/
  name : String
  /-- How its value is read. -/
  reader : Reader α
  /-- Its value when the member is absent; none if it has to be there. -/
  absent : Option α
  /-- How its value is written; none if the member is left out. -/
  write : α → Option Json

/-- **The fields of a record**, first to last. -/
inductive Form : Type → Type 1 where
  | nil : Form Unit
  | cons (field : Field α) (rest : Form β) : Form (α × β)

namespace Form

/-- How many fields there are. -/
def size : Form α → Nat
  | .nil => 0
  | .cons _ rest => rest.size + 1

/-- A place for the value of each field. -/
def Slots : Form α → Type
  | .nil => Unit
  | .cons (α := α) _ rest => Option α × rest.Slots

/-- No field has a value yet. -/
def empty : (form : Form α) → form.Slots
  | .nil => ()
  | .cons _ rest => (none, rest.empty)

/-- Puts the value of a member in its place; none if no field has that name.  A second member of one
name is an error, whatever its value. -/
def put? : (form : Form α) → form.Slots → String → Json → Except Error (Option form.Slots)
  | .nil, _, _, _ => .ok none
  | .cons field rest, slots, key, value =>
    let (slot, others) : Option _ × rest.Slots := slots
    if key = field.name then
      match slot with
      | some _ => .error (.mismatch (.duplicateField key))
      | none => (fun x => some (some x, others)) <$> field.reader value
    else Option.map (fun others' => (slot, others')) <$> rest.put? others key value

/-- Puts the values of members in their places, in their order.  Unknown members are passed over, if
nothing of them is missing. -/
def putAll (form : Form α) : form.Slots → List (Option String × Json) → Except Error form.Slots
  | slots, [] => .ok slots
  | _, (none, _) :: _ => .error .malformed
  | slots, (some key, value) :: members =>
    match form.put? slots key value with
    | .error e => .error e
    | .ok (some slots') => form.putAll slots' members
    | .ok none => if value.isWhole then form.putAll slots members else .error .malformed

/-- The value of a field that has a value, or can do without one. -/
def fill (field : Field α) : Option α → Except Error α
  | some x => .ok x
  | none =>
    match field.absent with
    | some x => .ok x
    | none => .error (.mismatch (.missingField field.name))

/-- The values of all fields; the first that is missing is an error. -/
def finish : (form : Form α) → form.Slots → Except Error α
  | .nil, _ => .ok ()
  | .cons field rest, slots => do
    let (slot, others) : Option _ × rest.Slots := slots
    let x ← fill field slot
    let y ← rest.finish others
    return (x, y)

/-- The values of all fields from the members of an object. -/
def ofMembers (form : Form α) (members : List (Option String × Json)) (closed : Bool) :
    Except Error α := do
  let slots ← form.putAll form.empty members
  if closed then form.finish slots else throw .malformed

/-- The values of all fields from the items of a list, and the items that are left over.  Fields
that may be absent can be left off at the end; `index` counts the fields, and `short` gives the
error at one that may not. -/
def ofItems (short : Nat → Error) : (form : Form α) → (index : Nat) → List Json →
    Except Error (α × List Json)
  | .nil, _, items => .ok ((), items)
  | .cons field rest, index, item :: items => do
    let x ← field.reader item
    let (y, left) ← rest.ofItems short (index + 1) items
    return ((x, y), left)
  | .cons field rest, index, [] =>
    match field.absent with
    | none => .error (short index)
    | some x => do
      let (y, left) ← rest.ofItems short (index + 1) []
      return ((x, y), left)

/-- The members of a record. -/
def write : (form : Form α) → α → List (String × Json)
  | .nil, _ => []
  | .cons field rest, (x, y) =>
    match field.write x with
    | some j => (field.name, j) :: rest.write y
    | none => rest.write y

end Form

/-- **The form of a structure** `ρ` whose fields make up the tuple `α`. -/
structure RecordForm (ρ α : Type) where
  /-- What an error calls the structure. -/
  title : String
  form : Form α
  /-- The fields of a structure. -/
  toTuple : ρ → α
  /-- The structure of given fields. -/
  ofTuple : α → ρ

namespace RecordForm

/-- The error at a list that ends before the field at `index`. -/
def short (record : RecordForm ρ α) (index : Nat) : Error :=
  .mismatch (.wrongLength index s!"{record.title} with {Text.showNat record.form.size} elements")

/-- A record from the members of an object. -/
def ofMembers (record : RecordForm ρ α) (members : List (Option String × Json)) (closed : Bool) :
    Except Error ρ :=
  record.ofTuple <$> record.form.ofMembers members closed

/-- Reads a record. -/
def reader (record : RecordForm ρ α) : Reader ρ
  | .object members closed => record.ofMembers members closed
  | .array items closed => do
    let short := if closed then record.short else fun _ => .malformed
    let (x, left) ← record.form.ofItems short 0 items
    if left.isEmpty && closed then return record.ofTuple x else throw .malformed
  | j => .error (wrongType record.title j)

/-- The members that a record is written with. -/
def members (record : RecordForm ρ α) (x : ρ) : List (String × Json) :=
  record.form.write (record.toTuple x)

/-- Writes a record. -/
def toJson (record : RecordForm ρ α) (x : ρ) : Json :=
  .ofMembers (record.members x)

end RecordForm

end Daybook.Json
