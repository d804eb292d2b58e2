import Daybook.Toml.Scalar

/-!
# Tables in TOML

A table is filled piece by piece: by its own header, by keys with points in them, or just because a
header further down goes through it.  What may be added to a table depends on how it came about
(`Origin`), since no table can be defined twice.
-/

namespace Daybook.Toml

/-- **How a table came about.** -/
inductive Origin where
  /-- By a header of its own, or as a value in braces. -/
  | defined
  /-- By a key with points in it. -/
  | dotted
  /-- By the header of a table inside of it. -/
  | implied
  deriving DecidableEq

/-- **A value, or a table that can still be added to.** -/
inductive Value where
  | text (s : String)
  /-- A number, a truth value, a date or a time. -/
  | scalar (s : Scalar)
  | array (items : List Value)
  /-- A table in braces. -/
  | inline (entries : List (String × Value))
  | table (origin : Origin) (entries : List (String × Value))
  /-- A list of tables, the last of which is given apart. -/
  | tables (before : List Value) (last : List (String × Value))

namespace Value

/-- The entry of a key. -/
def find? (key : String) (entries : List (String × Value)) : Option Value :=
  entries.lookup key

/-- Puts an entry in the place of the one with its key, or behind the others. -/
def put (key : String) (value : Value) : List (String × Value) → List (String × Value)
  | [] => [(key, value)]
  | (k, v) :: entries => if k = key then (k, value) :: entries else (k, v) :: put key value entries

/-- Changes the table that a header's path leads to.  A list of tables stands for its last. -/
def atHeader (change : List (String × Value) → Option (List (String × Value))) :
    (path : List String) → List (String × Value) → Option (List (String × Value))
  | [], entries => change entries
  | key :: path, entries =>
    match find? key entries with
    | none => (atHeader change path []).map fun inner => put key (.table .implied inner) entries
    | some (.table origin inner) =>
      (atHeader change path inner).map fun inner => put key (.table origin inner) entries
    | some (.tables before last) =>
      (atHeader change path last).map fun last => put key (.tables before last) entries
    | some _ => none

/-- Adds a value under a key of several parts.  The tables on the way must not have been defined,
and the last of them must have come about by such keys. -/
def addDotted (value : Value) :
    (path : List String) → (last : String) → List (String × Value) → Option (List (String × Value))
  | [], last, entries =>
    match find? last entries with
    | none => some (put last value entries)
    | some _ => none
  | key :: path, last, entries =>
    match find? key entries with
    | none =>
      (addDotted value path last []).map fun inner => put key (.table .dotted inner) entries
    | some (.table origin inner) =>
      if origin = .defined ∨ (path.isEmpty ∧ origin ≠ .dotted) then none
      else (addDotted value path last inner).map fun inner => put key (.table origin inner) entries
    | some (.tables before inner) =>
      if path.isEmpty then none
      else
        (addDotted value path last inner).map fun inner => put key (.tables before inner) entries
    | some _ => none

/-- Begins a table under a key. -/
def define (key : String) (entries : List (String × Value)) : Option (List (String × Value)) :=
  match find? key entries with
  | none => some (put key (.table .defined []) entries)
  | some (.table .implied inner) => some (put key (.table .defined inner) entries)
  | some _ => none

/-- Begins one more table of a list of tables under a key. -/
def defineNext (key : String) (entries : List (String × Value)) :
    Option (List (String × Value)) :=
  match find? key entries with
  | none => some (put key (.tables [] []) entries)
  | some (.tables before last) =>
    some (put key (.tables (before ++ [.table .defined last]) []) entries)
  | some _ => none

end Value

end Daybook.Toml
