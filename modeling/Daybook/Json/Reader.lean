import Daybook.Json.Document
import Daybook.Json.Mismatch

/-!
# Reading values from JSON

A `Reader` turns a document into a value or says why it cannot.  What is wrong is reported in the
order of the text: in a list the first item that cannot be read, and only then that the list does
not end.
-/

namespace Daybook.Json

/-- **How values are read from documents.** -/
abbrev Reader (α : Type) := Json → Except Error α

/-- Reads the value that a text holds.  Nothing but blanks may follow it. -/
def read (reader : Reader α) (text : List Char) : Except Error α := do
  let document := parse text
  let value ← reader document.root
  if document.ended then return value else throw .malformed

/-- A whole number of 64 bits. -/
def int64 : Reader Int64
  | .number n =>
    match n.numeral? with
    | some (.integer value) => .ok value
    | some (.large value) => .error (.mismatch (.outOfRange value "i64"))
    | some (.real x) => .error (.mismatch (.wrongType (.numeral (.real x)) "i64"))
    | none => .error .malformed
  | j => .error (wrongType "i64" j)

/-- A text, where an error speaks of `expected`. -/
def stringAs (expected : String) : Reader String
  | .string (some s) => .ok s
  | j => .error (wrongType expected j)

/-- A text. -/
def text : Reader String :=
  stringAs "a string"

/-- A truth value. -/
def boolean : Reader Bool
  | .bool b => .ok b
  | j => .error (wrongType "a boolean" j)

/-- A value that may be `null`. -/
def optional (reader : Reader α) : Reader (Option α)
  | .null => .ok none
  | j => some <$> reader j

/-- A list. -/
def listOf (reader : Reader α) : Reader (List α)
  | .array items closed => do
    let values ← items.mapM reader
    if closed then return values else throw .malformed
  | j => .error (wrongType "a sequence" j)

end Daybook.Json
