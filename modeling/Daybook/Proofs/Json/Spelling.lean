import Mathlib
import Daybook.Json.Document

/-!
# Texts of a document

A document is a sequence of tokens (`Json.tokens`), and a text spells it if it spells these tokens
one after the other, with blanks between them wherever there may be some (`Spells`).  A token can
have many spellings: the exponent of a number may have a plus sign, and a character of a string may
be written as it is, by a letter behind a backslash, or by its number.

`Proper` documents are those of the standard.  All of their containers are closed, nothing is broken
in them, and their numbers have digits where digits belong.
-/

namespace Daybook.Json

/-! ### Numbers -/

/-- Whether a text is made of digits, at least one of them. -/
def IsDigits (ds : List Char) : Prop :=
  ds ≠ [] ∧ ∀ d ∈ ds, d.isDigit = true

namespace Number

/-- Whether a number has digits before its point, without needless zeros, and nothing but digits
behind it. -/
structure Proper (n : Number) : Prop where
  isDigits_whole : IsDigits n.whole
  whole_eq_zero : n.whole.head? = some '0' → n.whole = ['0']
  isDigit_fraction : ∀ d ∈ n.fraction, d.isDigit = true

/-- How the exponent of a number is spelled. -/
inductive SpellsExponent : Option ℤ → List Char → Prop where
  | absent : SpellsExponent none []
  | unsigned {e : Char} {ds : List Char} (he : e = 'e' ∨ e = 'E') (hds : IsDigits ds) :
    SpellsExponent (some (Text.naturalOf ds)) (e :: ds)
  | plus {e : Char} {ds : List Char} (he : e = 'e' ∨ e = 'E') (hds : IsDigits ds) :
    SpellsExponent (some (Text.naturalOf ds)) (e :: '+' :: ds)
  | minus {e : Char} {ds : List Char} (he : e = 'e' ∨ e = 'E') (hds : IsDigits ds) :
    SpellsExponent (some (-Text.naturalOf ds)) (e :: '-' :: ds)

/-- The sign in front of a number. -/
def signText (n : Number) : List Char :=
  if n.negative then ['-'] else []

/-- The point of a number with the digits behind it, or nothing if there are none. -/
def fractionText (n : Number) : List Char :=
  if n.fraction.isEmpty then [] else '.' :: n.fraction

/-- How a number is spelled. -/
def Spells (n : Number) (cs : List Char) : Prop :=
  n.Proper ∧ ∃ power, SpellsExponent n.exponent power ∧
    cs = n.signText ++ (n.whole ++ (n.fractionText ++ power))

end Number

/-! ### Strings -/

/-- How a piece of a string is spelled. -/
inductive Piece.Spells : Piece → List Char → Prop where
  | plain {c : Char} (hc : 0x20 ≤ c.toNat) (hquote : c ≠ '"') (hslash : c ≠ '\\') :
    Spells (.char c) [c]
  | short {e c : Char} (h : StringToken.escape? e = some c) : Spells (.char c) ['\\', e]
  | unit {a b c d : Char} {u : ℕ} (h : StringToken.hexUnit? a b c d = some u) :
    Spells (.unit u) ['\\', 'u', a, b, c, d]

/-- How the pieces of a string are spelled. -/
inductive SpellsPieces : List Piece → List Char → Prop where
  | nil : SpellsPieces [] []
  | cons {p : Piece} {ps : List Piece} {cs cs' : List Char} (hp : p.Spells cs)
    (hps : SpellsPieces ps cs') : SpellsPieces (p :: ps) (cs ++ cs')

/-! ### Tokens -/

/-- How a token is spelled. -/
inductive Token.Spells : Token → List Char → Prop where
  | openArray : Spells .openArray ['[']
  | closeArray : Spells .closeArray [']']
  | openObject : Spells .openObject ['\x7b']
  | closeObject : Spells .closeObject ['\x7d']
  | comma : Spells .comma [',']
  | colon : Spells .colon [':']
  | null : Spells .null ['n', 'u', 'l', 'l']
  | boolTrue : Spells (.bool true) ['t', 'r', 'u', 'e']
  | boolFalse : Spells (.bool false) ['f', 'a', 'l', 's', 'e']
  | number {n : Number} {cs : List Char} (h : n.Spells cs) : Spells (.number n) cs
  | string {ps : List Piece} {cs : List Char} (h : SpellsPieces ps cs) :
    Spells (.string ((StringToken.join? ps).map String.ofList)) ('"' :: (cs ++ ['"']))

/-- Whether a text begins with nothing that a number could go on with. -/
def Ends (cs : List Char) : Prop :=
  ∀ c ∈ cs.head?, c.isDigit = false ∧ c ≠ '.' ∧ c ≠ 'e' ∧ c ≠ 'E'

/-- Whether a token is a number. -/
def Token.IsNumber (t : Token) : Prop :=
  ∃ n, t = .number n

/-- **How tokens are spelled**: in their order, with any blanks before, between and after them. -/
inductive SpellsTokens : List Token → List Char → Prop where
  | nil {blanks : List Char} (hblanks : ∀ c ∈ blanks, isSpace c = true) : SpellsTokens [] blanks
  | cons {t : Token} {ts : List Token} {blanks cs rest : List Char}
    (hblanks : ∀ c ∈ blanks, isSpace c = true) (ht : t.Spells cs) (hts : SpellsTokens ts rest)
    (hends : t.IsNumber → Ends rest) : SpellsTokens (t :: ts) (blanks ++ (cs ++ rest))

/-! ### Documents -/

/-- **A document of the standard.** -/
inductive Proper : Json → Prop where
  | null : Proper .null
  | bool (b : Bool) : Proper (.bool b)
  | number {n : Number} (h : n.Proper) : Proper (.number n)
  | string (s : Option String) : Proper (.string s)
  | array {items : List Json} (h : ∀ item ∈ items, Proper item) : Proper (.array items true)
  | object {members : List (Option String × Json)} (h : ∀ m ∈ members, Proper m.2) :
    Proper (.object members true)

theorem proper_ofList_iff {items : List Json} :
    (ofList items).Proper ↔ ∀ item ∈ items, item.Proper := by
  constructor
  · rintro ⟨⟩
    assumption
  · exact .array

theorem proper_object_iff {members : List (Option String × Json)} :
    (object members true).Proper ↔ ∀ m ∈ members, m.2.Proper := by
  constructor
  · rintro ⟨⟩
    assumption
  · exact .object

theorem proper_ofMembers_iff {members : List (String × Json)} :
    (ofMembers members).Proper ↔ ∀ m ∈ members, m.2.Proper := by
  constructor
  · rintro ⟨⟩ m hm
    rename_i h
    exact h _ (List.mem_map_of_mem hm)
  · intro h
    refine .object fun m' hm' => ?_
    obtain ⟨m, hm, rfl⟩ := List.mem_map.mp hm'
    exact h m hm

/-- Nothing is missing of a document of the standard. -/
theorem Proper.isWhole {j : Json} (h : j.Proper) : j.isWhole = true := by
  cases h <;> rfl

mutual

/-- The tokens of a document. -/
def tokens : Json → List Token
  | .null => [.null]
  | .bool b => [.bool b]
  | .number n => [.number n]
  | .string s => [.string s]
  | .array [] closed => .openArray :: (if closed then [.closeArray] else [])
  | .array (item :: items) closed =>
    .openArray :: (tokens item ++ (moreItems items ++ if closed then [.closeArray] else []))
  | .object [] closed => .openObject :: (if closed then [.closeObject] else [])
  | .object ((key, value) :: members) closed =>
    .openObject :: .string key :: .colon ::
      (tokens value ++ (moreMembers members ++ if closed then [.closeObject] else []))
  | .broken => []

/-- The tokens of items behind the first, with a comma before each. -/
def moreItems : List Json → List Token
  | [] => []
  | item :: items => .comma :: (tokens item ++ moreItems items)

/-- The tokens of members behind the first, with a comma before each. -/
def moreMembers : List (Option String × Json) → List Token
  | [] => []
  | (key, value) :: members =>
    .comma :: .string key :: .colon :: (tokens value ++ moreMembers members)

end

theorem moreItems_eq_flatMap (items : List Json) :
    moreItems items = items.flatMap fun item => .comma :: item.tokens := by
  induction items with
  | nil => rfl
  | cons item items ih => rw [moreItems, ih, List.flatMap_cons, List.cons_append]

theorem moreMembers_eq_flatMap (members : List (Option String × Json)) :
    moreMembers members =
      members.flatMap fun m => .comma :: .string m.1 :: .colon :: m.2.tokens := by
  induction members with
  | nil => rfl
  | cons m members ih =>
    rw [moreMembers, ih, List.flatMap_cons, List.cons_append, List.cons_append, List.cons_append]

/-- **Whether a text spells a document.** -/
def Spells (j : Json) (cs : List Char) : Prop :=
  SpellsTokens j.tokens cs

end Daybook.Json
