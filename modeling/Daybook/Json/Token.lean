import Daybook.Json.Basic

/-!
# Tokens of JSON text

`Json.next` takes the first token off a text.  The blanks of JSON are four characters only, and the
forms of numbers and strings are those of the standard: no leading zeros, at least one digit on each
side of a point and in an exponent, no control characters inside strings.

A string's escapes are taken in two steps.  `StringToken.scan` finds the closing quote and leaves
every `\u` escape as a 16-bit unit; `StringToken.join` puts the halves of surrogate pairs together.
The first step fails only where the text is no JSON, the second where a half stands alone.
-/

namespace Daybook.Json

/-- **A token.** -/
inductive Token where
  | openArray
  | closeArray
  | openObject
  | closeObject
  | comma
  | colon
  | null
  | bool (b : Bool)
  | number (n : Number)
  /-- A string, with its text if it stands for one. -/
  | string (s : Option String)

/-- Whether a character may stand between tokens. -/
def isSpace (c : Char) : Bool :=
  c == ' ' || c == '\n' || c == '\t' || c == '\r'

/-! ### Numbers -/

namespace Number

/-- The digits at the front of a text, and what follows them. -/
def scanDigits (cs : List Char) : List Char × List Char :=
  (cs.takeWhile Char.isDigit, cs.dropWhile Char.isDigit)

/-- The exponent at the front of a text, if there is one.  Fails for an `e` without digits. -/
def scanExponent? (cs : List Char) : Option (Option Int × List Char) :=
  let digits (sign : Int) (cs : List Char) : Option (Option Int × List Char) :=
    match scanDigits cs with
    | ([], _) => none
    | (ds, rest) => some (some (sign * Text.naturalOf ds), rest)
  match cs with
  | c :: rest =>
    if c == 'e' || c == 'E' then
      match rest with
      | '+' :: rest => digits 1 rest
      | '-' :: rest => digits (-1) rest
      | rest => digits 1 rest
    else some (none, cs)
  | [] => some (none, [])

/-- The fraction at the front of a text, if there is one.  Fails for a point without digits. -/
def scanFraction? (cs : List Char) : Option (List Char × List Char) :=
  match cs with
  | '.' :: rest =>
    match scanDigits rest with
    | ([], _) => none
    | (ds, rest) => some (ds, rest)
  | cs => some ([], cs)

/-- The digits before the point.  Fails if there are none, or several of which the first is zero. -/
def scanWhole? (cs : List Char) : Option (List Char × List Char) :=
  match scanDigits cs with
  | ([], _) => none
  | ('0' :: _ :: _, _) => none
  | (ds, rest) => some (ds, rest)

/-- The number at the front of a text. -/
def scan? (cs : List Char) : Option (Number × List Char) := do
  let (negative, cs) := match cs with
    | '-' :: rest => (true, rest)
    | cs => (false, cs)
  let (whole, cs) ← scanWhole? cs
  let (fraction, cs) ← scanFraction? cs
  let (exponent, cs) ← scanExponent? cs
  return ({ negative, whole, fraction, exponent }, cs)

end Number

/-! ### Strings -/

/-- A piece of a string: a character, or the unit of a `\u` escape. -/
inductive Piece where
  /-- A character, written as it is or by a short escape. -/
  | char (c : Char)
  /-- A 16-bit unit, written by its number. -/
  | unit (u : Nat)

namespace StringToken

/-- The value of a hexadecimal digit. -/
def hexDigit? (c : Char) : Option Nat :=
  if c.isDigit then some (c.toNat - '0'.toNat)
  else if 'a' ≤ c ∧ c ≤ 'f' then some (c.toNat - 'a'.toNat + 10)
  else if 'A' ≤ c ∧ c ≤ 'F' then some (c.toNat - 'A'.toNat + 10)
  else none

/-- The value of four hexadecimal digits. -/
def hexUnit? (a b c d : Char) : Option Nat := do
  return (((← hexDigit? a) * 16 + (← hexDigit? b)) * 16 + (← hexDigit? c)) * 16 + (← hexDigit? d)

/-- The character of a short escape. -/
def escape? : Char → Option Char
  | '"' => some '"'
  | '\\' => some '\\'
  | '/' => some '/'
  | 'b' => some '\x08'
  | 'f' => some '\x0c'
  | 'n' => some '\n'
  | 'r' => some '\r'
  | 't' => some '\t'
  | _ => none

/-- The pieces up to the closing quote, before which `done` were read (last first), and what follows
the quote. -/
def scan? (done : List Piece) : List Char → Option (List Piece × List Char)
  | [] => none
  | '"' :: rest => some (done.reverse, rest)
  | '\\' :: 'u' :: a :: b :: c :: d :: rest =>
    match hexUnit? a b c d with
    | some u => scan? (.unit u :: done) rest
    | none => none
  | '\\' :: e :: rest =>
    match escape? e with
    | some c => scan? (.char c :: done) rest
    | none => none
  | c :: rest => if c.toNat < 0x20 || c == '\\' then none else scan? (.char c :: done) rest

/-- Whether a unit is the first half of a surrogate pair. -/
def isHigh (u : Nat) : Bool :=
  0xD800 ≤ u && u < 0xDC00

/-- Whether a unit is the second half of a surrogate pair. -/
def isLow (u : Nat) : Bool :=
  0xDC00 ≤ u && u < 0xE000

/-- The characters of a string: pairs are put together, and a half that stands alone is none. -/
def join? : List Piece → Option (List Char)
  | [] => some []
  | .char c :: rest => (join? rest).map (c :: ·)
  | .unit u :: rest =>
    if isHigh u then
      match rest with
      | .unit v :: rest =>
        if isLow v then
          (join? rest).map (Char.ofNat (0x10000 + (u - 0xD800) * 0x400 + (v - 0xDC00)) :: ·)
        else none
      | _ => none
    else if isLow u then none
    else (join? rest).map (Char.ofNat u :: ·)

end StringToken

/-! ### The first token -/

/-- What stands first in a text. -/
inductive Next where
  /-- Nothing but blanks. -/
  | nothing
  /-- A token, and the text behind it. -/
  | token (t : Token) (rest : List Char)
  /-- Something that is no token. -/
  | bad

/-- The rest of a text that begins with the given word. -/
def afterWord? : List Char → List Char → Option (List Char)
  | [], cs => some cs
  | _ :: _, [] => none
  | w :: ws, c :: cs => if w == c then afterWord? ws cs else none

/-- The token that a text without blanks in front begins with. -/
def nextHere : List Char → Next
  | [] => .nothing
  | '[' :: rest => .token .openArray rest
  | ']' :: rest => .token .closeArray rest
  | '\x7b' :: rest => .token .openObject rest
  | '\x7d' :: rest => .token .closeObject rest
  | ',' :: rest => .token .comma rest
  | ':' :: rest => .token .colon rest
  | '"' :: rest =>
    match StringToken.scan? [] rest with
    | some (pieces, rest) => .token (.string ((StringToken.join? pieces).map String.ofList)) rest
    | none => .bad
  | c :: rest =>
    match c with
    | 'n' =>
      match afterWord? ['u', 'l', 'l'] rest with
      | some rest => .token .null rest
      | none => .bad
    | 't' =>
      match afterWord? ['r', 'u', 'e'] rest with
      | some rest => .token (.bool true) rest
      | none => .bad
    | 'f' =>
      match afterWord? ['a', 'l', 's', 'e'] rest with
      | some rest => .token (.bool false) rest
      | none => .bad
    | c =>
      match Number.scan? (c :: rest) with
      | some (n, rest) => .token (.number n) rest
      | none => .bad

/-- The first token of a text. -/
def next (cs : List Char) : Next :=
  nextHere (cs.dropWhile isSpace)

/-! ### A token takes at least one character -/

namespace Number

theorem length_scanDigits_le {cs ds rest : List Char} (h : scanDigits cs = (ds, rest)) :
    rest.length ≤ cs.length := by
  cases h
  exact (List.dropWhile_sublist _).length_le

theorem length_scanWhole?_lt {cs ds rest : List Char} (h : scanWhole? cs = some (ds, rest)) :
    rest.length < cs.length := by
  have hlen : (scanDigits cs).1.length + (scanDigits cs).2.length = cs.length := by
    have h := congrArg List.length (List.takeWhile_append_dropWhile (p := Char.isDigit) (l := cs))
    rw [List.length_append] at h
    exact h
  unfold scanWhole? at h
  split at h
  · cases h
  · cases h
  · next ds' rest' hne _ heq =>
    cases h
    rw [heq] at hlen
    cases ds with
    | nil => exact (hne rfl).elim
    | cons d ds => simp only [List.length_cons] at hlen; omega

theorem length_scanFraction?_le {cs ds rest : List Char}
    (h : scanFraction? cs = some (ds, rest)) : rest.length ≤ cs.length := by
  unfold scanFraction? at h
  split at h
  · next rest' =>
    split at h
    · cases h
    · next heq =>
      cases h
      have := length_scanDigits_le heq
      simp only [List.length_cons]; omega
  · cases h; exact Nat.le_refl _

theorem length_scanExponent?_le {cs rest : List Char} {e : Option Int}
    (h : scanExponent? cs = some (e, rest)) : rest.length ≤ cs.length := by
  have digits : ∀ (sign : Int) (text : List Char),
      (match scanDigits text with
        | ([], _) => none
        | (ds, rest) => some (some (sign * Text.naturalOf ds), rest)) = some (e, rest) →
      rest.length ≤ text.length := by
    intro sign text h
    split at h
    · cases h
    · next heq => cases h; exact length_scanDigits_le heq
  unfold scanExponent? at h
  split at h
  · next c tail =>
    split at h
    · split at h
      · have := digits _ _ h; simp only [List.length_cons]; omega
      · have := digits _ _ h; simp only [List.length_cons]; omega
      · have := digits _ _ h; simp only [List.length_cons]; omega
    · cases h; exact Nat.le_refl _
  · cases h; exact Nat.le_refl _

theorem length_scan?_lt {cs rest : List Char} {n : Number} (h : scan? cs = some (n, rest)) :
    rest.length < cs.length := by
  unfold scan? at h
  simp only [Option.bind_eq_bind, Option.bind_eq_some_iff, Option.pure_def, Option.some.injEq,
    Prod.exists, Prod.mk.injEq] at h
  obtain ⟨_, _, hw, _, _, hf, _, _, he, _, rfl⟩ := h
  have h1 := length_scanWhole?_lt hw
  have h2 := length_scanFraction?_le hf
  have h3 := length_scanExponent?_le he
  have h4 : ∀ r : List Char, (match cs with
      | '-' :: rest => (true, rest)
      | cs => (false, cs)).2 = r → r.length ≤ cs.length := by
    intro r hr
    split at hr
    · cases hr; simp
    · cases hr; simp
  have h5 := h4 _ rfl
  omega

end Number

theorem StringToken.length_scan?_lt {done pieces : List Piece} {cs rest : List Char}
    (h : scan? done cs = some (pieces, rest)) : rest.length < cs.length := by
  fun_induction scan? done cs with
  | case1 => cases h
  | case2 => cases h; simp
  | case3 _ _ _ _ _ _ _ _ ih => have := ih h; simp only [List.length_cons]; omega
  | case4 => cases h
  | case5 _ _ _ _ _ _ ih => have := ih h; simp only [List.length_cons]; omega
  | case6 => cases h
  | case7 => cases h
  | case8 _ _ _ _ _ _ _ ih => have := ih h; simp only [List.length_cons]; omega

theorem length_afterWord?_le {word cs rest : List Char} (h : afterWord? word cs = some rest) :
    rest.length ≤ cs.length := by
  fun_induction afterWord? word cs with
  | case1 => cases h; exact Nat.le_refl _
  | case2 => cases h
  | case3 _ _ _ _ _ ih => have := ih h; simp only [List.length_cons]; omega
  | case4 => cases h

theorem length_nextHere_lt {cs rest : List Char} {t : Token} (h : nextHere cs = .token t rest) :
    rest.length < cs.length := by
  have word : ∀ {w tail : List Char} {t' : Token},
      (match afterWord? w tail with
        | some rest => Next.token t' rest
        | none => .bad) = .token t rest → rest.length ≤ tail.length := by
    intro w tail t' h
    split at h
    · next heq => cases h; exact length_afterWord?_le heq
    · cases h
  unfold nextHere at h
  split at h
  · cases h
  · cases h; simp
  · cases h; simp
  · cases h; simp
  · cases h; simp
  · cases h; simp
  · cases h; simp
  · split at h
    · next heq =>
      cases h
      have := StringToken.length_scan?_lt heq
      simp only [List.length_cons]; omega
    · cases h
  · split at h
    · have := word h; simp only [List.length_cons]; omega
    · have := word h; simp only [List.length_cons]; omega
    · have := word h; simp only [List.length_cons]; omega
    · split at h
      · next heq => cases h; exact Number.length_scan?_lt heq
      · cases h

theorem length_next_lt {cs rest : List Char} {t : Token} (h : next cs = .token t rest) :
    rest.length < cs.length := by
  have h1 := length_nextHere_lt h
  have h2 := (List.dropWhile_sublist (l := cs) isSpace).length_le
  omega

end Daybook.Json
