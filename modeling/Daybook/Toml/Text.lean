import Daybook.Text.Digits

/-!
# Blanks, comments and strings in TOML

Readers of the parts of a TOML text that hold no structure.  Each takes its part off the front of a
text and gives the rest, or none if the text does not begin with such a part.  The rest is shorter
(`length_escape?_lt`, `length_anyString?_lt`, `length_key?_lt`), which is why the readers end that
go on from one part to the next.

There are four kinds of strings: in double quotes with escapes and in single quotes without, each
on one line or, with three quotes, on several.  A string on several lines does not begin with the
line break behind its opening quotes, and may end with up to two quotes of its own.
-/

namespace Daybook.Toml

/-! ### Blanks and lines -/

/-- The text from its first character that is neither a blank nor a tab. -/
def skipSpace (cs : List Char) : List Char :=
  cs.dropWhile fun c => c == ' ' || c == '\t'

/-- Whether a character may stand in a comment: a tab, or any but the controls. -/
def isPlain (c : Char) : Bool :=
  c == '\t' || (0x20 ≤ c.toNat && c.toNat != 0x7F)

/-- The text behind a comment, if it begins with one, and otherwise as it is. -/
def skipComment : List Char → List Char
  | '#' :: cs => cs.dropWhile isPlain
  | cs => cs

/-- The text behind a line break. -/
def lineBreak? : List Char → Option (List Char)
  | '\n' :: cs => some cs
  | '\r' :: '\n' :: cs => some cs
  | _ => none

/-- The text of the next line, when nothing but a comment is left of this one. -/
def endOfLine? (cs : List Char) : Option (List Char) :=
  match skipComment (skipSpace cs) with
  | [] => some []
  | cs => lineBreak? cs

theorem length_lt_of_eq_cons {c : Char} {cs rest : List Char} (h : cs = c :: rest) :
    rest.length < cs.length := by
  rw [h]
  exact Nat.lt_succ_self _

theorem length_skipSpace_le (cs : List Char) : (skipSpace cs).length ≤ cs.length :=
  (List.dropWhile_sublist _).length_le

theorem length_skipComment_le (cs : List Char) : (skipComment cs).length ≤ cs.length := by
  unfold skipComment
  split
  · next rest =>
    have := (List.dropWhile_sublist isPlain (l := rest)).length_le
    simp only [List.length_cons]; omega
  · exact Nat.le_refl _

theorem length_lineBreak?_lt {cs rest : List Char} (h : lineBreak? cs = some rest) :
    rest.length < cs.length := by
  unfold lineBreak? at h
  split at h
  · cases h; simp
  · cases h; simp only [List.length_cons]; omega
  · cases h

theorem endOfLine?_eq_some {cs rest : List Char} (h : endOfLine? cs = some rest) :
    rest = [] ∨ rest.length < cs.length := by
  unfold endOfLine? at h
  split at h
  · cases h; exact .inl rfl
  · have := length_lineBreak?_lt h
    have := length_skipComment_le (skipSpace cs)
    have := length_skipSpace_le cs
    exact .inr (by omega)

theorem length_endOfLine?_le {cs rest : List Char} (h : endOfLine? cs = some rest) :
    rest.length ≤ cs.length := by
  rcases endOfLine?_eq_some h with rfl | hlt
  · exact Nat.zero_le _
  · exact Nat.le_of_lt hlt

/-- The text from its first character that is no part of a blank, a comment or a line break. -/
def skipLines (cs : List Char) : List Char :=
  match _h : lineBreak? (skipComment (skipSpace cs)) with
  | some rest => skipLines rest
  | none => skipComment (skipSpace cs)
termination_by cs.length
decreasing_by
  have := length_lineBreak?_lt _h
  have := length_skipComment_le (skipSpace cs)
  have := length_skipSpace_le cs
  omega

theorem length_skipLines_le (cs : List Char) : (skipLines cs).length ≤ cs.length := by
  fun_induction skipLines cs with
  | case1 cs rest h ih =>
    have := length_lineBreak?_lt h
    have := length_skipComment_le (skipSpace cs)
    have := length_skipSpace_le cs
    omega
  | case2 cs => exact Nat.le_trans (length_skipComment_le _) (length_skipSpace_le cs)

/-! ### Escapes -/

/-- The value of a hexadecimal digit. -/
def hexDigit? (c : Char) : Option Nat :=
  if c.isDigit then some (c.toNat - '0'.toNat)
  else if 'a' ≤ c.toLower ∧ c.toLower ≤ 'f' then some (c.toLower.toNat - 'a'.toNat + 10)
  else none

/-- The character with a number of exactly `count` hexadecimal digits, and the rest. -/
def numbered? (count : Nat) (cs : List Char) : Option (Char × List Char) := do
  let digits ← (cs.take count).mapM hexDigit?
  let n := digits.foldl (fun n d => n * 16 + d) 0
  if digits.length = count ∧ n.isValidChar then some (Char.ofNat n, cs.drop count) else none

/-- The character of the escape behind a backslash, and the rest. -/
def escape? : List Char → Option (Char × List Char)
  | 'b' :: cs => some ('\x08', cs)
  | 't' :: cs => some ('\t', cs)
  | 'n' :: cs => some ('\n', cs)
  | 'f' :: cs => some ('\x0c', cs)
  | 'r' :: cs => some ('\r', cs)
  | '"' :: cs => some ('"', cs)
  | '\\' :: cs => some ('\\', cs)
  | 'u' :: cs => numbered? 4 cs
  | 'U' :: cs => numbered? 8 cs
  | _ => none

theorem length_numbered?_le {count : Nat} {c : Char} {cs rest : List Char}
    (h : numbered? count cs = some (c, rest)) : rest.length ≤ cs.length := by
  unfold numbered? at h
  simp only [Option.bind_eq_bind, Option.bind_eq_some_iff] at h
  obtain ⟨digits, -, h⟩ := h
  split at h
  · cases h; simp
  · cases h

theorem length_escape?_lt {c : Char} {cs rest : List Char} (h : escape? cs = some (c, rest)) :
    rest.length < cs.length := by
  unfold escape? at h
  split at h
  case h_8 | h_9 => exact Nat.lt_succ_of_le (length_numbered?_le h)
  case h_10 => cases h
  all_goals cases h; simp

/-! ### Strings -/

/-- Reads on to the closing double quote; `done` was read before, last first. -/
def quotedText (done : List Char) : List Char → Option (String × List Char)
  | [] => none
  | '"' :: cs => some (String.ofList done.reverse, cs)
  | '\\' :: cs =>
    match _h : escape? cs with
    | some (c, rest) => quotedText (c :: done) rest
    | none => none
  | c :: cs => if isPlain c then quotedText (c :: done) cs else none
termination_by cs => cs.length
decreasing_by
  · have := length_escape?_lt _h
    simp only [List.length_cons]; omega
  · simp

/-- Reads on to the closing single quote. -/
def literalText (cs : List Char) : Option (String × List Char) :=
  let body := cs.takeWhile fun c => isPlain c && c != '\''
  match cs.dropWhile fun c => isPlain c && c != '\'' with
  | '\'' :: rest => some (String.ofList body, rest)
  | _ => none

/-- The text from its first character that is no part of a blank or a line break. -/
def skipEmptyLines (cs : List Char) : List Char :=
  match _h : lineBreak? (skipSpace cs) with
  | some rest => skipEmptyLines rest
  | none => skipSpace cs
termination_by cs.length
decreasing_by
  have := length_lineBreak?_lt _h
  have := length_skipSpace_le cs
  omega

theorem length_skipEmptyLines_le (cs : List Char) : (skipEmptyLines cs).length ≤ cs.length := by
  fun_induction skipEmptyLines cs with
  | case1 cs rest h ih =>
    have := length_lineBreak?_lt h
    have := length_skipSpace_le cs
    omega
  | case2 cs => exact length_skipSpace_le cs

/-- The text behind the blanks and line breaks that a backslash at the end of a line takes away. -/
def foldLine? (cs : List Char) : Option (List Char) :=
  (lineBreak? (skipSpace cs)).map skipEmptyLines

theorem length_foldLine?_lt {cs rest : List Char} (h : foldLine? cs = some rest) :
    rest.length < cs.length := by
  obtain ⟨behind, hbreak, rfl⟩ := Option.map_eq_some_iff.mp h
  have := length_lineBreak?_lt hbreak
  have := length_skipSpace_le cs
  have := length_skipEmptyLines_le behind
  omega

/-- Ends a string on several lines at three quotes; up to two more that follow belong to it. -/
def closeLines (quote : Char) (done rest : List Char) : String × List Char :=
  let extra := (rest.take 2).takeWhile (· == quote)
  (String.ofList (done.reverse ++ extra), rest.drop extra.length)

/-- Reads on to the three closing quotes.  With `escapes` a backslash begins an escape, or takes
away the end of its line. -/
def linesText (quote : Char) (escapes : Bool) (done : List Char) :
    List Char → Option (String × List Char)
  | [] => none
  | c :: cs =>
    if c == quote then
      match cs with
      | d :: e :: rest =>
        if d == quote && e == quote then some (closeLines quote done rest)
        else linesText quote escapes (c :: done) (d :: e :: rest)
      | _ => none
    else if c == '\\' && escapes then
      match _h : escape? cs, _h' : foldLine? cs with
      | some (c, rest), _ => linesText quote escapes (c :: done) rest
      | none, some rest => linesText quote escapes done rest
      | none, none => none
    else
      match _h : lineBreak? (c :: cs) with
      | some rest => linesText quote escapes ('\n' :: done) rest
      | none => if isPlain c then linesText quote escapes (c :: done) cs else none
termination_by cs => cs.length
decreasing_by
  · simp
  · exact Nat.lt_succ_of_lt (length_escape?_lt _h)
  · exact Nat.lt_succ_of_lt (length_foldLine?_lt _h')
  · exact length_lineBreak?_lt _h
  · simp

/-- The text without a line break in front. -/
def skipLineBreak (cs : List Char) : List Char :=
  (lineBreak? cs).getD cs

/-- A string on one line. -/
def string? : List Char → Option (String × List Char)
  | '"' :: cs => quotedText [] cs
  | '\'' :: cs => literalText cs
  | _ => none

theorem length_quotedText_lt {done cs rest : List Char} {s : String}
    (h : quotedText done cs = some (s, rest)) : rest.length < cs.length := by
  fun_induction quotedText done cs with
  | case1 => cases h
  | case2 => cases h; simp
  | case3 _ _ _ _ hescape ih =>
    exact Nat.lt_succ_of_lt (Nat.lt_trans (ih h) (length_escape?_lt hescape))
  | case4 => cases h
  | case5 _ _ _ _ _ _ ih => exact Nat.lt_succ_of_lt (ih h)
  | case6 => cases h

theorem length_linesText_lt {quote : Char} {escapes : Bool} {done cs rest : List Char} {s : String}
    (h : linesText quote escapes done cs = some (s, rest)) : rest.length < cs.length := by
  fun_induction linesText quote escapes done cs with
  | case1 => cases h
  | case2 _ _ _ _ _ behind =>
    cases h
    simp only [List.length_drop, List.length_cons]; omega
  | case3 _ _ _ _ _ _ _ ih => exact Nat.lt_succ_of_lt (ih h)
  | case4 => cases h
  | case5 _ _ _ _ _ _ _ hescape ih =>
    exact Nat.lt_succ_of_lt (Nat.lt_trans (ih h) (length_escape?_lt hescape))
  | case6 _ _ _ _ _ _ _ hfold ih =>
    exact Nat.lt_succ_of_lt (Nat.lt_trans (ih h) (length_foldLine?_lt hfold))
  | case7 => cases h
  | case8 _ _ _ _ _ _ hbreak ih => exact Nat.lt_trans (ih h) (length_lineBreak?_lt hbreak)
  | case9 _ _ _ _ _ _ _ ih => exact Nat.lt_succ_of_lt (ih h)
  | case10 => cases h

theorem length_literalText_lt {cs rest : List Char} {s : String}
    (h : literalText cs = some (s, rest)) : rest.length < cs.length := by
  unfold literalText at h
  split at h
  · next hquote =>
    cases h
    have := (List.dropWhile_sublist (fun c => isPlain c && c != '\'') (l := cs)).length_le
    rw [hquote] at this
    exact this
  · cases h

theorem length_skipLineBreak_le (cs : List Char) : (skipLineBreak cs).length ≤ cs.length := by
  unfold skipLineBreak
  cases h : lineBreak? cs with
  | some rest => exact Nat.le_of_lt (length_lineBreak?_lt h)
  | none => exact Nat.le_refl _

theorem length_string?_lt {cs rest : List Char} {s : String} (h : string? cs = some (s, rest)) :
    rest.length < cs.length := by
  unfold string? at h
  split at h
  · exact Nat.lt_succ_of_lt (length_quotedText_lt h)
  · exact Nat.lt_succ_of_lt (length_literalText_lt h)
  · cases h

/-- A string of any kind. -/
def anyString? : List Char → Option (String × List Char)
  | '"' :: '"' :: '"' :: cs => linesText '"' true [] (skipLineBreak cs)
  | '\'' :: '\'' :: '\'' :: cs => linesText '\'' false [] (skipLineBreak cs)
  | cs => string? cs

theorem length_anyString?_lt {cs rest : List Char} {s : String}
    (h : anyString? cs = some (s, rest)) : rest.length < cs.length := by
  unfold anyString? at h
  split at h
  · next cs =>
    have := length_linesText_lt h
    have := length_skipLineBreak_le cs
    simp only [List.length_cons]; omega
  · next cs =>
    have := length_linesText_lt h
    have := length_skipLineBreak_le cs
    simp only [List.length_cons]; omega
  · exact length_string?_lt h

/-! ### Keys -/

/-- Whether a character may stand in a key without quotes. -/
def isKeyChar (c : Char) : Bool :=
  c.isAlphanum || c == '-' || c == '_'

/-- A part of a key. -/
def keyPart? (cs : List Char) : Option (String × List Char) :=
  match string? cs with
  | some part => some part
  | none =>
    match cs.takeWhile isKeyChar with
    | [] => none
    | part => some (String.ofList part, cs.dropWhile isKeyChar)

/-- How deep lists and tables in braces may be nested, and how many parts a key may have. -/
def maxDepth : Nat := 79

/-- A key of parts with points between them, at most `room`, and the text behind it and its
blanks. -/
def keyWithin? : (room : Nat) → List Char → Option (List String × List Char)
  | 0, _ => none
  | room + 1, cs =>
    match keyPart? (skipSpace cs) with
    | none => none
    | some (part, cs) =>
      match skipSpace cs with
      | '.' :: cs => (keyWithin? room cs).map fun (parts, cs) => (part :: parts, cs)
      | cs => some ([part], cs)

/-- A key, and the text behind it and its blanks. -/
def key? (cs : List Char) : Option (List String × List Char) :=
  keyWithin? maxDepth cs

theorem length_keyPart?_lt {cs rest : List Char} {part : String}
    (h : keyPart? cs = some (part, rest)) : rest.length < cs.length := by
  unfold keyPart? at h
  split at h
  · next hstring =>
    cases h
    exact length_string?_lt hstring
  · split at h
    · cases h
    · next hpart =>
      cases h
      have hlen := congrArg List.length
        (List.takeWhile_append_dropWhile (p := isKeyChar) (l := cs))
      have := List.length_pos_iff.mpr hpart
      rw [List.length_append] at hlen
      omega

theorem length_keyWithin?_lt {room : Nat} {cs rest : List Char} {parts : List String}
    (h : keyWithin? room cs = some (parts, rest)) : rest.length < cs.length := by
  induction room generalizing cs parts with
  | zero => cases h
  | succ room ih =>
    unfold keyWithin? at h
    have hspace := length_skipSpace_le cs
    split at h
    · cases h
    · next part behind hpart =>
      have := length_keyPart?_lt hpart
      have := length_skipSpace_le behind
      split at h
      · next cs' hpoint =>
        obtain ⟨⟨parts', rest'⟩, hrest, heq⟩ := Option.map_eq_some_iff.mp h
        cases heq
        have := ih hrest
        have := length_lt_of_eq_cons hpoint
        omega
      · cases h
        omega

theorem length_key?_lt {cs rest : List Char} {parts : List String}
    (h : key? cs = some (parts, rest)) : rest.length < cs.length :=
  length_keyWithin?_lt h

end Daybook.Toml
