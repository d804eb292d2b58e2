import Daybook.Text.Unprintable

/-!
# Quoted text

`Text.quoted` shows a text inside double quotes for a message: quotes and backslashes get a
backslash, the four common controls their letter, and other unprintable characters stand as their
number in braces.  Everything else stands for itself.
-/

namespace Daybook.Text

/-- How a character is written between the quotes. -/
def quotedChar (c : Char) : List Char :=
  match c with
  | '"' => ['\\', '"']
  | '\\' => ['\\', '\\']
  | '\n' => ['\\', 'n']
  | '\r' => ['\\', 'r']
  | '\t' => ['\\', 't']
  | '\x00' => ['\\', '0']
  | c =>
    if isUnprintable c then
      ['\\', 'u', '\x7b'] ++ Nat.toDigits 16 c.toNat ++ ['\x7d']
    else [c]

/-- A text in double quotes. -/
def quoted (cs : List Char) : List Char :=
  '"' :: cs.flatMap quotedChar ++ ['"']

/-- `quoted` on strings. -/
def quote (s : String) : String :=
  String.ofList (quoted s.toList)

end Daybook.Text
