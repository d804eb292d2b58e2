import Daybook.Text.Digits

/-!
# JSON documents

`Json` is a document as far as it can be read.  A text may stop being JSON somewhere; the document
then holds everything up to that place, the containers that were still open are marked as not
closed, and `broken` stands where a value was expected.  A reader of such a document meets what is
wrong with it in the order of the text, and so reports a wrong value before a later fault.

Numbers keep their digits (`Json.Number`), since whether a number fits is for the reader of the
value to say.  A string that holds an escape of one half of a surrogate pair stands for no text; it
is kept as `string none`, because it does no harm where nobody reads it.
-/

namespace Daybook

/-- **A number as it is written.** -/
structure Json.Number where
  /-- Whether there is a minus sign. -/
  negative : Bool
  /-- The digits before the point. -/
  whole : List Char
  /-- The digits behind the point, none if there is no point. -/
  fraction : List Char
  /-- The exponent, if one is written. -/
  exponent : Option Int
  deriving DecidableEq

/-- **A JSON document**, as far as it can be read. -/
inductive Json where
  | null
  | bool (b : Bool)
  | number (n : Json.Number)
  /-- A string, with its text if it stands for one. -/
  | string (s : Option String)
  /-- A list in brackets; `closed` says that the closing bracket was found. -/
  | array (items : List Json) (closed : Bool)
  /-- Members in braces, each a key and a value; `closed` says that the closing brace was found. -/
  | object (members : List (Option String × Json)) (closed : Bool)
  /-- A place where the text has no value. -/
  | broken

namespace Json

instance : Inhabited Json := ⟨.broken⟩

/-- The number written for a whole number. -/
def Number.ofInt (n : Int) : Number :=
  { negative := decide (n < 0), whole := Text.natural n.natAbs, fraction := [], exponent := none }

/-- A whole number as a document. -/
def ofInt (n : Int) : Json :=
  .number (.ofInt n)

/-- A text as a document. -/
def ofString (s : String) : Json :=
  .string (some s)

/-- A list as a document. -/
def ofList (items : List Json) : Json :=
  .array items true

/-- Named values as a document. -/
def ofMembers (members : List (String × Json)) : Json :=
  .object (members.map fun (key, value) => (some key, value)) true

/-- Whether nothing of the value is missing.  A container is closed only after all of its content
has been read, so its own mark is enough. -/
def isWhole : Json → Bool
  | .array _ closed => closed
  | .object _ closed => closed
  | .broken => false
  | _ => true

end Json

end Daybook
