import Daybook.Json.Numeral
import Daybook.Text.Quoted

/-!
# Why a document is not what was expected

`Json.Error` tells a text that is no JSON from one that holds something else than what was asked
for.  The first has no message of its own.  The second is a `Mismatch`, with the wording in
`Mismatch.message`.
-/

namespace Daybook.Json

/-- **What was found** in place of the expected value. -/
inductive Found where
  | null
  | bool (b : Bool)
  | numeral (n : Numeral)
  | string (s : String)
  /-- A list. -/
  | sequence
  /-- An object. -/
  | map

/-- **A well formed value that is not the expected one.** -/
inductive Mismatch where
  /-- A value of another kind. -/
  | wrongType (found : Found) (expected : String)
  /-- A whole number out of range. -/
  | outOfRange (value : Nat) (expected : String)
  /-- An object without a field that it needs. -/
  | missingField (name : String)
  /-- An object with a field twice. -/
  | duplicateField (name : String)
  /-- A name that is none of those allowed. -/
  | unknownVariant (name : String) (expected : String)
  /-- A list that is too short or too long. -/
  | wrongLength (length : Nat) (expected : String)
  /-- A value of the right kind which the field does not take, with the reason. -/
  | refused (reason : String)

/-- **Why a value cannot be read.** -/
inductive Error where
  /-- The text is no JSON. -/
  | malformed
  /-- The text is JSON, but not of the expected shape. -/
  | mismatch (why : Mismatch)

/-- A number in an error text. -/
def Numeral.text : Numeral → String
  | .integer n => s!"integer `{Text.showInt n.toInt}`"
  | .large n => s!"integer `{Text.showNat n}`"
  | .real x => s!"floating point `{String.ofList (Decimal.text Number.layout x)}`"

/-- What was found, in an error text. -/
def Found.text : Found → String
  | .null => "null"
  | .bool true => "boolean `true`"
  | .bool false => "boolean `false`"
  | .numeral n => n.text
  | .string s => s!"string {Text.quote s}"
  | .sequence => "sequence"
  | .map => "map"

/-- The text of a mismatch. -/
def Mismatch.message : Mismatch → String
  | .wrongType found expected => s!"invalid type: {found.text}, expected {expected}"
  | .outOfRange value expected =>
    s!"invalid value: integer `{Text.showNat value}`, expected {expected}"
  | .missingField name => s!"missing field `{name}`"
  | .duplicateField name => s!"duplicate field `{name}`"
  | .unknownVariant name expected => s!"unknown variant `{name}`, expected {expected}"
  | .wrongLength length expected =>
    s!"invalid length {Text.showNat length}, expected {expected}"
  | .refused reason => reason

/-- The text of an error; there is none for a text that is no JSON. -/
def Error.message : Error → String
  | .malformed => ""
  | .mismatch why => why.message

/-- The error at a value that is not of the expected kind.  A value that cannot be read at all is no
JSON, and neither is a string without a text or a number that is too great. -/
def wrongType (expected : String) : Json → Error
  | .null => .mismatch (.wrongType .null expected)
  | .bool b => .mismatch (.wrongType (.bool b) expected)
  | .number n =>
    match n.numeral? with
    | some value => .mismatch (.wrongType (.numeral value) expected)
    | none => .malformed
  | .string (some s) => .mismatch (.wrongType (.string s) expected)
  | .string none => .malformed
  | .array _ _ => .mismatch (.wrongType .sequence expected)
  | .object _ _ => .mismatch (.wrongType .map expected)
  | .broken => .malformed

end Daybook.Json
