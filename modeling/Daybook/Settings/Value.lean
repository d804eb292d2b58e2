import Daybook.Text.Blank
import Daybook.Text.Quoted
import Daybook.Toml.Document

/-!
# Values of settings

A `Setting` is a value that a layer of the settings gives for a key.  It comes from a TOML document
or from the text of an environment variable, and only its use decides whether it is of the right
type.

The text of a variable is read as a truth value, a number, a string in double quotes, a single
character in single quotes, or a list or table in brackets.  Whatever is none of these is the text
itself.

A string in double quotes is copied only when an escape is met, and then what is in front of it is
measured in characters but cut in bytes.  Text of one byte a character is kept whole.  Other text
loses its end, and where the cut falls within a character there is no value at all (`Misfit.torn`).

What is in a list or a table only matters for where it ends.  The containers that are open at a
place in the text are kept in a list, innermost first, so they may be nested to any depth.  One item
or entry, up to a container that it opens, is one `step`, which takes at least one character.
-/

namespace Daybook

/-- **A value that is given for a key.**  The contents of lists and tables are never used. -/
inductive Setting where
  | text (s : String)
  /-- A whole number with a sign. -/
  | signed (n : Int64)
  /-- A whole number without a sign, below `2 ^ 64`. -/
  | unsigned (n : Nat)
  /-- A number with a point. -/
  | real (x : Float)
  | bool (b : Bool)
  /-- A list. -/
  | sequence
  /-- A table, a date or a time. -/
  | map

namespace Setting

/-- A value of a TOML document. -/
def ofToml : Toml.Value → Setting
  | .text s => .text s
  | .scalar (.integer n) => .signed n
  | .scalar (.real x) => .real x
  | .scalar (.bool b) => .bool b
  | .scalar .moment => .map
  | .array _ => .sequence
  | .inline _ => .map
  | .table _ _ => .map
  | .tables _ _ => .sequence

/-- Real numbers in errors have no exponent, and no point if they are whole.  Their ties go up. -/
def layout : Decimal.Layout :=
  { positional := fun _ => true, keepsPoint := false, tie := .up }

/-- What was found, in an error text. -/
def foundText : Setting → String
  | .text s => s!"string {Text.quote s}"
  | .signed n => s!"signed int `{Text.showInt n.toInt}`"
  | .unsigned n => s!"unsigned int `{Text.showNat n}`"
  | .real x => s!"float `{String.ofList (Decimal.text layout x)}`"
  | .bool true => "bool true"
  | .bool false => "bool false"
  | .sequence => "sequence"
  | .map => "map"

/-! ### Environment variables -/

/-- **Why a text is no value.** -/
inductive Misfit where
  /-- It has not the form of a value. -/
  | form
  /-- What is kept of a string in front of its first escape ends within a character. -/
  | torn
  deriving DecidableEq

/-- Whether a character is one of the blanks of ASCII. -/
def isAsciiBlank (c : Char) : Bool :=
  c == ' ' || c == '\t' || c == '\n' || c == '\r' || c == '\x0c'

/-- The text from its first character that is no ASCII blank. -/
def skipAsciiBlanks (cs : List Char) : List Char :=
  cs.dropWhile isAsciiBlank

/-- Whether a character can stand in a value without quotes. -/
def isBare (c : Char) : Bool :=
  !(c == ',' || c == '[' || c == ']' || c == '\x7b' || c == '\x7d')

/-- A real number as text: digits with a point among them and perhaps an exponent. -/
def real? (cs : List Char) : Option Float := do
  let (sign, cs) := Toml.splitSign cs
  let whole := cs.takeWhile Char.isDigit
  let (fraction, cs) := match cs.dropWhile Char.isDigit with
    | '.' :: cs => (cs.takeWhile Char.isDigit, cs.dropWhile Char.isDigit)
    | cs => ([], cs)
  if whole.isEmpty && fraction.isEmpty then none
  let exponent ← match cs with
    | [] => some 0
    | c :: cs =>
      let (sign, digits) := Toml.splitSign cs
      if (c == 'e' || c == 'E') && !digits.isEmpty && digits.all Char.isDigit then
        some (sign * (Text.naturalOf digits : Int))
      else none
  let x := Decimal.toFloat (Text.naturalOf (whole ++ fraction)) (exponent - fraction.length)
  return if sign == 1 then x else -x

/-- A value without quotes. -/
def ofBare (cs : List Char) : Setting :=
  let real := if cs.contains '.' then real? cs else none
  match real with
  | some x => .real x
  | none =>
    let digits := match cs with
      | '+' :: ds => ds
      | ds => ds
    let (sign, magnitude) := Toml.splitSign cs
    let isUnsigned :=
      !digits.isEmpty && digits.all Char.isDigit && Text.naturalOf digits < Nat.pow 2 64
    if isUnsigned then .unsigned (Text.naturalOf digits)
    else if !magnitude.isEmpty && magnitude.all Char.isDigit then
      match Toml.int64? (sign * Text.naturalOf magnitude) with
      | some n => .signed n
      | none => .text (String.ofList cs)
    else .text (String.ofList cs)

/-- The characters up to the closing quote and the text behind it; a backslash takes the next
character with it. -/
def splitQuoted : List Char → Option (List Char × List Char)
  | [] => none
  | '"' :: cs => some ([], cs)
  | '\\' :: c :: cs => (splitQuoted cs).map fun (body, rest) => ('\\' :: c :: body, rest)
  | c :: cs => (splitQuoted cs).map fun (body, rest) => (c :: body, rest)

/-- The text that stands between quotes, with its escapes taken. -/
def unescape? : List Char → Option (List Char)
  | [] => some []
  | '\\' :: cs =>
    match _h : Toml.escape? cs with
    | some (c, rest) => (unescape? rest).map (c :: ·)
    | none => none
  | c :: cs => if Toml.isPlain c then (unescape? cs).map (c :: ·) else none
termination_by cs => cs.length
decreasing_by
  · exact Nat.lt_succ_of_lt (Toml.length_escape?_lt _h)
  · simp

/-- The characters that the first `n` bytes of a text in UTF-8 make, or none if the last of them is
cut. -/
def takeBytes? : (n : Nat) → List Char → Option (List Char)
  | 0, _ => some []
  | _, [] => some []
  | n, c :: cs =>
    if c.utf8Size ≤ n then (takeBytes? (n - c.utf8Size) cs).map (c :: ·) else none

/-- Whether a character between quotes stands for itself. -/
def isLiteral (c : Char) : Bool :=
  Toml.isPlain c && c != '\\'

/-- The text that is meant by what stands between quotes.  What is in front of the first escape
keeps only as many bytes as it has characters, so that it keeps whole what is ASCII. -/
def meant (body : List Char) : Except Misfit (List Char) :=
  let front := body.takeWhile isLiteral
  match body.dropWhile isLiteral with
  | [] => .ok front
  | '\\' :: cs =>
    match takeBytes? front.length front, unescape? ('\\' :: cs) with
    | none, _ => .error .torn
    | some _, none => .error .form
    | some front, some rest => .ok (front ++ rest)
  | _ => .error .form

/-- A string in quotes at the front of a text, and the rest. -/
def quoted : List Char → Except Misfit (String × List Char)
  | '"' :: cs =>
    match splitQuoted cs with
    | some (body, rest) => (meant body).map fun text => (String.ofList text, rest)
    | none => .error .form
  | _ => .error .form

/-- The text behind a key of a table in braces. -/
def skipKey (cs : List Char) : Except Misfit (List Char) :=
  match cs with
  | '"' :: _ => (quoted cs).map fun (_, rest) => rest
  | cs =>
    if (cs.takeWhile Toml.isKeyChar).isEmpty then .error .form
    else .ok (cs.dropWhile Toml.isKeyChar)

/-- A value that is neither a list nor a table at the front of a text, and the text behind it. -/
def plain : List Char → Except Misfit (Setting × List Char)
  | 't' :: 'r' :: 'u' :: 'e' :: cs => .ok (.bool true, cs)
  | 'f' :: 'a' :: 'l' :: 's' :: 'e' :: cs => .ok (.bool false, cs)
  | '\'' :: c :: '\'' :: cs => .ok (.text (String.singleton c), cs)
  | '\'' :: _ => .error .form
  | '"' :: cs => (quoted ('"' :: cs)).map fun (s, cs) => (.text s, cs)
  | cs => .ok (ofBare (Text.trim (cs.takeWhile isBare)), cs.dropWhile isBare)

/-! ### Lists and tables -/

/-- **A list or a table that is open** at a place in a text. -/
inductive Container where
  | sequence
  | map

namespace Container

/-- The text behind the bracket that closes a container. -/
def afterEnd? : Container → List Char → Option (List Char)
  | .sequence, ']' :: cs => some cs
  | .map, '\x7d' :: cs => some cs
  | _, _ => none

/-- The text from the value of the next item or entry. -/
def toValue : Container → List Char → Except Misfit (List Char)
  | .sequence, cs => .ok (skipAsciiBlanks cs)
  | .map, cs =>
    match skipKey (skipAsciiBlanks cs) with
    | .ok behind =>
      match skipAsciiBlanks behind with
      | '=' :: cs => .ok (skipAsciiBlanks cs)
      | _ => .error .form
    | .error misfit => .error misfit

end Container

/-- Goes on behind a value, out of the containers that end there and to the next item or entry of
the innermost that does not.  Gives the containers that are open then, and the text. -/
def leave : List Container → List Char → Except Misfit (List Container × List Char)
  | [], cs => .ok ([], cs)
  | container :: outer, cs =>
    match skipAsciiBlanks cs with
    | ',' :: cs => .ok (container :: outer, cs)
    | cs =>
      match container.afterEnd? cs with
      | some cs => leave outer cs
      | none => .error .form

/-- Takes an item or entry of a container, as far as a container that it opens, or the end. -/
def step (container : Container) (outer : List Container) (cs : List Char) :
    Except Misfit (List Container × List Char) :=
  match container.afterEnd? cs with
  | some cs => leave outer cs
  | none =>
    match container.toValue cs with
    | .ok ('[' :: cs) => .ok (.sequence :: container :: outer, cs)
    | .ok ('\x7b' :: cs) => .ok (.map :: container :: outer, cs)
    | .ok cs =>
      match plain cs with
      | .ok (_, cs) => leave (container :: outer) cs
      | .error misfit => .error misfit
    | .error misfit => .error misfit

/-! What is left of a text is an end of it. -/

theorem skipAsciiBlanks_suffix (cs : List Char) : skipAsciiBlanks cs <:+ cs :=
  List.dropWhile_suffix _

theorem splitQuoted_eq_some {body cs rest : List Char} (h : splitQuoted cs = some (body, rest)) :
    cs = body ++ '"' :: rest := by
  fun_induction splitQuoted cs generalizing body with
  | case1 => cases h
  | case2 => cases h; rfl
  | case3 c cs ih =>
    obtain ⟨⟨body', _⟩, hsplit, heq⟩ := Option.map_eq_some_iff.mp h
    cases heq
    rw [ih hsplit]; rfl
  | case4 c cs _ _ ih =>
    obtain ⟨⟨body', _⟩, hsplit, heq⟩ := Option.map_eq_some_iff.mp h
    cases heq
    rw [ih hsplit]; rfl

theorem exists_of_map_eq_ok {ε α β : Type} {x : Except ε α} {f : α → β} {b : β}
    (h : x.map f = .ok b) : ∃ a, x = .ok a ∧ f a = b := by
  cases x with
  | ok a =>
    cases h
    exact ⟨a, rfl, rfl⟩
  | error e => cases h

theorem quoted_suffix {s : String} {cs rest : List Char} (h : quoted cs = .ok (s, rest)) :
    rest <:+ cs := by
  unfold quoted at h
  split at h
  · split at h
    · next body rest' hsplit =>
      obtain ⟨text, -, heq⟩ := exists_of_map_eq_ok h
      cases heq
      rw [splitQuoted_eq_some hsplit]
      exact ⟨'"' :: (body ++ ['"']), by simp⟩
    · cases h
  · cases h

theorem skipKey_suffix {cs rest : List Char} (h : skipKey cs = .ok rest) : rest <:+ cs := by
  unfold skipKey at h
  split at h
  · obtain ⟨⟨s, behind⟩, hquoted, heq⟩ := exists_of_map_eq_ok h
    cases heq
    exact quoted_suffix hquoted
  · split at h
    · cases h
    · cases h
      exact List.dropWhile_suffix _

theorem plain_suffix {v : Setting} {cs rest : List Char} (h : plain cs = .ok (v, rest)) :
    rest <:+ cs := by
  unfold plain at h
  split at h
  · cases h
    exact ⟨['t', 'r', 'u', 'e'], rfl⟩
  · cases h
    exact ⟨['f', 'a', 'l', 's', 'e'], rfl⟩
  · next c cs =>
    cases h
    exact ⟨['\'', c, '\''], rfl⟩
  · cases h
  · obtain ⟨⟨s, behind⟩, hquoted, heq⟩ := exists_of_map_eq_ok h
    cases heq
    exact quoted_suffix hquoted
  · cases h
    exact List.dropWhile_suffix _

theorem Container.exists_of_afterEnd? {container : Container} {cs rest : List Char}
    (h : container.afterEnd? cs = some rest) : ∃ c, cs = c :: rest := by
  unfold afterEnd? at h
  split at h <;> cases h
  · exact ⟨']', rfl⟩
  · exact ⟨'\x7d', rfl⟩

theorem Container.toValue_suffix {container : Container} {cs rest : List Char}
    (h : container.toValue cs = .ok rest) : rest <:+ cs := by
  unfold toValue at h
  split at h
  · cases h
    exact skipAsciiBlanks_suffix _
  · split at h
    · next behind hkey =>
      split at h
      · next text hequals =>
        cases h
        have hbehind := (skipKey_suffix hkey).trans (skipAsciiBlanks_suffix _)
        have htext : text <:+ behind :=
          (List.suffix_cons '=' text).trans (hequals ▸ skipAsciiBlanks_suffix behind)
        exact (skipAsciiBlanks_suffix text).trans (htext.trans hbehind)
      · cases h
    · cases h

/-- Behind a value a comma or a closing bracket is taken, if anything is open. -/
theorem leave_eq_ok {opened opened' : List Container} {cs rest : List Char}
    (h : leave opened cs = .ok (opened', rest)) :
    opened = [] ∧ rest = cs ∨ ∃ c, c :: rest <:+ cs := by
  fun_induction leave opened cs with
  | case1 => cases h; exact .inl ⟨rfl, rfl⟩
  | case2 _ _ cs _ hcomma =>
    cases h
    exact .inr ⟨',', hcomma ▸ skipAsciiBlanks_suffix cs⟩
  | case3 _ _ cs behind _ hend ih =>
    obtain ⟨c, hbehind⟩ := Container.exists_of_afterEnd? hend
    have hsuffix : c :: behind <:+ cs := hbehind ▸ skipAsciiBlanks_suffix cs
    rcases ih h with ⟨-, rfl⟩ | ⟨c', hrest⟩
    · exact .inr ⟨c, hsuffix⟩
    · exact .inr ⟨c', hrest.trans ((List.suffix_cons ..).trans hsuffix)⟩
  | case4 => cases h

/-- **A step takes at least one character.** -/
theorem exists_suffix_of_step {container : Container} {outer opened : List Container}
    {cs rest : List Char} (h : step container outer cs = .ok (opened, rest)) :
    ∃ c, c :: rest <:+ cs := by
  unfold step at h
  split at h
  · next behind hend =>
    obtain ⟨c, rfl⟩ := Container.exists_of_afterEnd? hend
    rcases leave_eq_ok h with ⟨-, rfl⟩ | ⟨c', hrest⟩
    · exact ⟨c, List.suffix_rfl⟩
    · exact ⟨c', hrest.trans (List.suffix_cons ..)⟩
  · split at h
    · next hvalue =>
      cases h
      exact ⟨'[', Container.toValue_suffix hvalue⟩
    · next hvalue =>
      cases h
      exact ⟨'\x7b', Container.toValue_suffix hvalue⟩
    · next hvalue =>
      split at h
      · next hplain =>
        rcases leave_eq_ok h with ⟨hnil, -⟩ | ⟨c, hrest⟩
        · cases hnil
        · exact ⟨c, hrest.trans ((plain_suffix hplain).trans (Container.toValue_suffix hvalue))⟩
      · cases h
    · cases h

/-- The text behind all containers that are open. -/
def skip : (opened : List Container) → List Char → Except Misfit (List Char)
  | [], cs => .ok cs
  | container :: outer, cs =>
    match _h : step container outer cs with
    | .ok (opened, rest) => skip opened rest
    | .error misfit => .error misfit
termination_by _ cs => cs.length
decreasing_by
  obtain ⟨c, hrest⟩ := exists_suffix_of_step _h
  exact hrest.length_le

/-! ### Values -/

/-- The value at the front of a text, and the text behind it and its blanks. -/
def value (cs : List Char) : Except Misfit (Setting × List Char) :=
  let found : Except Misfit (Setting × List Char) :=
    match skipAsciiBlanks cs with
    | '[' :: cs => (skip [.sequence] cs).map fun cs => (.sequence, cs)
    | '\x7b' :: cs => (skip [.map] cs).map fun cs => (.map, cs)
    | cs => plain cs
  found.map fun (value, cs) => (value, skipAsciiBlanks cs)

/-- The value of an environment variable, if no string in it is torn. -/
def ofVariable? (s : String) : Option Setting :=
  match value s.toList with
  | .ok (value, []) => some value
  | .ok _ => some (.text s)
  | .error .form => some (.text s)
  | .error .torn => none

end Setting

end Daybook
