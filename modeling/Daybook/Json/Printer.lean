import Daybook.Json.Basic

/-!
# Writing JSON

`Json.compact` writes a document without blanks, `Json.pretty` on lines of its own with an indent of
two.  In strings only the quote, the backslash and the control characters below the blank are
escaped, by a letter where there is one.  A container that is not closed, and a place without a
value, are written as far as they go.
-/

namespace Daybook.Json

/-! ### Leaves -/

/-- The number as it is written. -/
def Number.text (n : Number) : List Char :=
  (if n.negative then ['-'] else []) ++ n.whole ++
    (if n.fraction.isEmpty then [] else '.' :: n.fraction) ++
    (match n.exponent with
      | some e => 'e' :: Text.integer e
      | none => [])

/-- How a character is written inside a string. -/
def stringChar (c : Char) : List Char :=
  match c with
  | '"' => ['\\', '"']
  | '\\' => ['\\', '\\']
  | '\x08' => ['\\', 'b']
  | '\x0c' => ['\\', 'f']
  | '\n' => ['\\', 'n']
  | '\r' => ['\\', 'r']
  | '\t' => ['\\', 't']
  | c =>
    if c.toNat < 0x20 then
      ['\\', 'u', '0', '0', Nat.digitChar (c.toNat / 16), Nat.digitChar (c.toNat % 16)]
    else [c]

/-- A text as a string.  What stands for no text is written as one half of a surrogate pair. -/
def stringText : Option String → List Char
  | some s => '"' :: s.toList.flatMap stringChar ++ ['"']
  | none => ['"', '\\', 'u', 'd', '8', '0', '0', '"']

/-- The document, if it is neither a list nor an object. -/
def leafText : Json → List Char
  | .null => ['n', 'u', 'l', 'l']
  | .bool true => ['t', 'r', 'u', 'e']
  | .bool false => ['f', 'a', 'l', 's', 'e']
  | .number n => n.text
  | .string s => stringText s
  | _ => []

/-! ### Without blanks -/

mutual

/-- A document without blanks. -/
def compact : Json → List Char
  | .array items closed => '[' :: compactItems items ++ (if closed then [']'] else [])
  | .object members closed =>
    '\x7b' :: compactMembers members ++ (if closed then ['\x7d'] else [])
  | .null => leafText .null
  | .bool b => leafText (.bool b)
  | .number n => leafText (.number n)
  | .string s => leafText (.string s)
  | .broken => []

/-- Items with commas between them. -/
def compactItems : List Json → List Char
  | [] => []
  | [item] => compact item
  | item :: items => compact item ++ ',' :: compactItems items

/-- Members with commas between them. -/
def compactMembers : List (Option String × Json) → List Char
  | [] => []
  | [(key, value)] => stringText key ++ ':' :: compact value
  | (key, value) :: members =>
    stringText key ++ ':' :: compact value ++ ',' :: compactMembers members

end

/-! ### On lines of its own -/

/-- A new line with an indent. -/
def newLine (depth : Nat) : List Char :=
  '\n' :: List.replicate (2 * depth) ' '

mutual

/-- A document whose lists and objects have their content on lines of its own.  An empty one stays
on its line. -/
def pretty (depth : Nat) : Json → List Char
  | .array [] closed => '[' :: (if closed then [']'] else [])
  | .array items closed =>
    '[' :: prettyItems (depth + 1) items ++ newLine depth ++ (if closed then [']'] else [])
  | .object [] closed => '\x7b' :: (if closed then ['\x7d'] else [])
  | .object members closed =>
    '\x7b' :: prettyMembers (depth + 1) members ++ newLine depth ++
      (if closed then ['\x7d'] else [])
  | .null => leafText .null
  | .bool b => leafText (.bool b)
  | .number n => leafText (.number n)
  | .string s => leafText (.string s)
  | .broken => []

/-- Items, each on a line. -/
def prettyItems (depth : Nat) : List Json → List Char
  | [] => []
  | [item] => newLine depth ++ pretty depth item
  | item :: items => newLine depth ++ pretty depth item ++ ',' :: prettyItems depth items

/-- Members, each on a line. -/
def prettyMembers (depth : Nat) : List (Option String × Json) → List Char
  | [] => []
  | [(key, value)] => newLine depth ++ stringText key ++ ':' :: ' ' :: pretty depth value
  | (key, value) :: members =>
    newLine depth ++ stringText key ++ ':' :: ' ' :: pretty depth value ++
      ',' :: prettyMembers depth members

end

end Daybook.Json
