import Daybook.Json.Token

/-!
# From text to document

`Json.parse` puts the tokens of a text together.  The containers that are open at a place in the
text are kept in a list of frames, innermost first, so documents may be nested to any depth.  One
token is one `step`; the first that does not fit, or the end of the text, makes an end of the
document with everything that was read up to there (`abandon`).
-/

namespace Daybook.Json

/-- **A container that is still open**, with what was read of it, last first. -/
inductive Frame where
  | items (done : List Json)
  /-- An object between two members. -/
  | members (done : List (Option String × Json))
  /-- An object at the value of the given key. -/
  | member (key : Option String) (done : List (Option String × Json))

/-- **What has to come next.** -/
inductive Expect where
  | value
  /-- The first item of a list, or its end. -/
  | firstItem
  /-- The key of a member. -/
  | key
  /-- The key of the first member of an object, or its end. -/
  | firstKey
  /-- The colon between a key and its value. -/
  | colon
  /-- A comma, or the end of the innermost container. -/
  | separator

/-- Where the reading of a document stands. -/
inductive Progress where
  /-- Within the document. -/
  | inside (expect : Expect) (frames : List Frame)
  /-- The document is read. -/
  | complete (value : Json)

/-- **What a text holds.** -/
structure Document where
  /-- The document, as far as it can be read. -/
  root : Json
  /-- Whether the text ends with it. -/
  ended : Bool

/-- The whole document when the text breaks off where `value` would go. -/
def abandon (value : Json) : List Frame → Json
  | [] => value
  | .items done :: frames => abandon (.array (value :: done).reverse false) frames
  | .members done :: frames => abandon (.object done.reverse false) frames
  | .member key done :: frames => abandon (.object ((key, value) :: done).reverse false) frames

/-- Puts a value that was read in its place. -/
def supply (value : Json) : List Frame → Progress
  | [] => .complete value
  | .items done :: frames => .inside .separator (.items (value :: done) :: frames)
  | .members done :: frames => .inside .separator (.members done :: frames)
  | .member key done :: frames => .inside .separator (.members ((key, value) :: done) :: frames)

/-- Begins a value with a token, if a value can begin with it. -/
def beginValue (frames : List Frame) : Token → Option Progress
  | .openArray => some (.inside .firstItem (.items [] :: frames))
  | .openObject => some (.inside .firstKey (.members [] :: frames))
  | .null => some (supply .null frames)
  | .bool b => some (supply (.bool b) frames)
  | .number n => some (supply (.number n) frames)
  | .string s => some (supply (.string s) frames)
  | _ => none

/-- Takes one token, if it fits. -/
def step : Expect → List Frame → Token → Option Progress
  | .firstItem, .items done :: frames, .closeArray =>
    some (supply (.array done.reverse true) frames)
  | .firstItem, frames, t => beginValue frames t
  | .value, frames, t => beginValue frames t
  | .firstKey, .members done :: frames, .closeObject =>
    some (supply (.object done.reverse true) frames)
  | .firstKey, .members done :: frames, .string key =>
    some (.inside .colon (.member key done :: frames))
  | .key, .members done :: frames, .string key => some (.inside .colon (.member key done :: frames))
  | .colon, frames, .colon => some (.inside .value frames)
  | .separator, .items done :: frames, .comma => some (.inside .value (.items done :: frames))
  | .separator, .items done :: frames, .closeArray =>
    some (supply (.array done.reverse true) frames)
  | .separator, .members done :: frames, .comma => some (.inside .key (.members done :: frames))
  | .separator, .members done :: frames, .closeObject =>
    some (supply (.object done.reverse true) frames)
  | _, _, _ => none

/-- Whether nothing but blanks is left. -/
def atEnd (cs : List Char) : Bool :=
  match next cs with
  | .nothing => true
  | _ => false

/-- Reads on from a place within the document. -/
def run (expect : Expect) (frames : List Frame) (cs : List Char) : Document :=
  match _h : next cs with
  | .token t rest =>
    match step expect frames t with
    | some (.inside expect frames) => run expect frames rest
    | some (.complete value) => { root := value, ended := atEnd rest }
    | none => { root := abandon .broken frames, ended := false }
  | _ => { root := abandon .broken frames, ended := false }
termination_by cs.length
decreasing_by exact length_next_lt _h

/-- **The document that a text holds.** -/
def parse (cs : List Char) : Document :=
  run .value [] cs

end Daybook.Json
