import Daybook.Toml.Table
import Daybook.Toml.Text

/-!
# TOML documents

`Toml.parse?` reads a document line by line: a header, which tells where the following entries go,
or an entry, or nothing but a comment.  It gives the entries of the outermost table, or none if the
text is no TOML document.

Values may be nested to a certain depth.  The values of each depth have a `Reader`, which the
readers of lists and tables of the next depth are given (`valuesWithin`).  A reader takes at least
one character, and so these come to an end.
-/

namespace Daybook.Toml

/-- The entries of a table. -/
abbrev Entries := List (String × Value)

/-! ### Values -/

/-- The word in front of a text, and the rest.  A date that is followed by a blank and a time of day
is one word with it. -/
def splitWord (cs : List Char) : List Char × List Char :=
  match cs.takeWhile isWordChar, cs.dropWhile isWordChar with
  | word, ' ' :: behind =>
    if date? word == some [] && (hourAndMinute? behind).isSome then
      (word ++ ' ' :: behind.takeWhile isWordChar, behind.dropWhile isWordChar)
    else (word, ' ' :: behind)
  | word, rest => (word, rest)

theorem length_splitWord_lt {cs word rest : List Char} (h : splitWord cs = (word, rest))
    (hne : word ≠ []) : rest.length < cs.length := by
  have hlen := congrArg List.length (List.takeWhile_append_dropWhile (p := isWordChar) (l := cs))
  have hpos := List.length_pos_iff.mpr hne
  rw [List.length_append] at hlen
  unfold splitWord at h
  split at h
  · next behind hrest =>
    have := (List.dropWhile_sublist isWordChar (l := behind)).length_le
    rw [hrest, List.length_cons] at hlen
    split at h
    · cases h; omega
    · cases h
      simp only [List.length_cons]; omega
  · cases h; omega

/-- A word as a value. -/
def wordValue? (cs : List Char) : Option (Value × List Char) :=
  match splitWord cs with
  | (word, rest) => (Scalar.ofWord? word).map fun s => (.scalar s, rest)

theorem length_wordValue?_lt {cs rest : List Char} {value : Value}
    (h : wordValue? cs = some (value, rest)) : rest.length < cs.length := by
  unfold wordValue? at h
  split at h
  next word rest' hsplit =>
    obtain ⟨s, hs, heq⟩ := Option.map_eq_some_iff.mp h
    cases heq
    apply length_splitWord_lt hsplit
    rintro rfl
    rw [Scalar.ofWord?_nil] at hs
    cases hs

/-- A value that is neither a list nor a table. -/
def plainValue? : List Char → Option (Value × List Char)
  | '"' :: cs => (anyString? ('"' :: cs)).map fun (s, cs) => (.text s, cs)
  | '\'' :: cs => (anyString? ('\'' :: cs)).map fun (s, cs) => (.text s, cs)
  | cs => wordValue? cs

theorem length_plainValue?_lt {cs rest : List Char} {value : Value}
    (h : plainValue? cs = some (value, rest)) : rest.length < cs.length := by
  unfold plainValue? at h
  split at h
  · obtain ⟨⟨s, behind⟩, hstring, heq⟩ := Option.map_eq_some_iff.mp h
    cases heq
    exact length_anyString?_lt hstring
  · obtain ⟨⟨s, behind⟩, hstring, heq⟩ := Option.map_eq_some_iff.mp h
    cases heq
    exact length_anyString?_lt hstring
  · exact length_wordValue?_lt h

/-- **A reader that takes at least one character.** -/
structure Reader (α : Type) where
  /-- What stands in front of a text, and the rest. -/
  read : List Char → Option (α × List Char)
  length_lt : ∀ {cs a rest}, read cs = some (a, rest) → rest.length < cs.length

/-- Items up to the closing bracket, behind those in `done` (last first). -/
def items? (item : Reader Value) (done : List Value) (cs : List Char) :
    Option (List Value × List Char) :=
  match cs with
  | ']' :: rest => some (done.reverse, rest)
  | cs =>
    match _h : item.read cs with
    | none => none
    | some (value, rest) =>
      match _h' : skipLines rest with
      | ',' :: behind => items? item (value :: done) (skipLines behind)
      | ']' :: behind => some ((value :: done).reverse, behind)
      | _ => none
termination_by cs.length
decreasing_by
  have := item.length_lt _h
  have := length_skipLines_le rest
  have := length_lt_of_eq_cons _h'
  have := length_skipLines_le behind
  omega

theorem length_items?_lt {item : Reader Value} {done items : List Value} {cs rest : List Char}
    (h : items? item done cs = some (items, rest)) : rest.length < cs.length := by
  fun_induction items? item done cs with
  | case1 => cases h; simp
  | case2 => cases h
  | case3 done cs _ value rest' hitem behind hcomma ih =>
    have := item.length_lt hitem
    have := length_skipLines_le rest'
    have := length_lt_of_eq_cons hcomma
    have := length_skipLines_le behind
    have := ih h
    omega
  | case4 done cs _ value rest' hitem behind hclose =>
    cases h
    have := item.length_lt hitem
    have := length_skipLines_le rest'
    have := length_lt_of_eq_cons hclose
    omega
  | case5 => cases h

/-- Adds the entry at the front of a text to a table. -/
def entry? (value : Reader Value) (entries : Entries) (cs : List Char) :
    Option (Entries × List Char) := do
  let (key, behind) ← key? cs
  let '=' :: cs := behind | none
  let (value, cs) ← value.read (skipSpace cs)
  return (← Value.addDotted value key.dropLast (key.getLastD "") entries, cs)

theorem length_entry?_lt {value : Reader Value} {entries entries' : Entries} {cs rest : List Char}
    (h : entry? value entries cs = some (entries', rest)) : rest.length < cs.length := by
  unfold entry? at h
  simp only [Option.bind_eq_bind, Option.bind_eq_some_iff, Prod.exists] at h
  obtain ⟨key, behind, hkey, h⟩ := h
  split at h
  · next behind =>
    simp only [Option.bind_eq_some_iff, Prod.exists] at h
    obtain ⟨v, rest', hvalue, entries', -, h⟩ := h
    cases h
    have := length_key?_lt hkey
    have := length_skipSpace_le behind
    have := value.length_lt hvalue
    simp only [List.length_cons] at *; omega
  · cases h

/-- Entries up to the closing brace, at least one, behind those in `done`. -/
def members? (value : Reader Value) (done : Entries) (cs : List Char) :
    Option (Entries × List Char) :=
  match _h : entry? value done cs with
  | none => none
  | some (entries, rest) =>
    match _h' : skipSpace rest with
    | ',' :: behind => members? value entries behind
    | '\x7d' :: behind => some (entries, behind)
    | _ => none
termination_by cs.length
decreasing_by
  have := length_entry?_lt _h
  have := length_skipSpace_le rest
  have := length_lt_of_eq_cons _h'
  omega

theorem length_members?_lt {value : Reader Value} {done entries : Entries} {cs rest : List Char}
    (h : members? value done cs = some (entries, rest)) : rest.length < cs.length := by
  fun_induction members? value done cs with
  | case1 => cases h
  | case2 done cs entries' rest' hentry behind hcomma ih =>
    have := length_entry?_lt hentry
    have := length_skipSpace_le rest'
    have := length_lt_of_eq_cons hcomma
    have := ih h
    omega
  | case3 done cs entries' rest' hentry behind hclose =>
    cases h
    have := length_entry?_lt hentry
    have := length_skipSpace_le rest'
    have := length_lt_of_eq_cons hclose
    omega
  | case4 => cases h

/-- A value whose items or entries are read by another reader, if it has any. -/
def nestedValue? (inner : Reader Value) : List Char → Option (Value × List Char)
  | '[' :: cs => (items? inner [] (skipLines cs)).map fun (items, cs) => (.array items, cs)
  | '\x7b' :: cs =>
    match skipSpace cs with
    | '\x7d' :: cs => some (.inline [], cs)
    | cs => (members? inner [] cs).map fun (entries, cs) => (.inline entries, cs)
  | cs => plainValue? cs

theorem length_nestedValue?_lt {inner : Reader Value} {cs rest : List Char} {value : Value}
    (h : nestedValue? inner cs = some (value, rest)) : rest.length < cs.length := by
  unfold nestedValue? at h
  split at h
  · next cs =>
    obtain ⟨⟨items, behind⟩, hitems, heq⟩ := Option.map_eq_some_iff.mp h
    cases heq
    have := length_items?_lt hitems
    have := length_skipLines_le cs
    simp only [List.length_cons]; omega
  · next cs =>
    have hspace := length_skipSpace_le cs
    split at h
    · next behind hclose =>
      cases h
      have := length_lt_of_eq_cons hclose
      simp only [List.length_cons]; omega
    · obtain ⟨⟨entries, behind⟩, hmembers, heq⟩ := Option.map_eq_some_iff.mp h
      cases heq
      have := length_members?_lt hmembers
      simp only [List.length_cons]; omega
  · exact length_plainValue?_lt h

/-- The values that are nested at most `depth` deep. -/
def valuesWithin : (depth : Nat) → Reader Value
  | 0 => ⟨plainValue?, length_plainValue?_lt⟩
  | depth + 1 => ⟨nestedValue? (valuesWithin depth), length_nestedValue?_lt⟩

/-! ### Lines -/

/-- **What has been read of a document.** -/
structure Progress where
  /-- The entries of the outermost table. -/
  root : Entries
  /-- The path of the table that entries go to. -/
  path : List String

/-- The path of a header and the text behind its brackets. -/
def header? (closing : List Char) (cs : List Char) : Option (List String × List Char) :=
  match key? cs with
  | some (path, cs) =>
    if closing.isPrefixOf cs then some (path, cs.drop closing.length) else none
  | none => none

theorem length_header?_le {closing cs rest : List Char} {path : List String}
    (h : header? closing cs = some (path, rest)) : rest.length ≤ cs.length := by
  unfold header? at h
  split at h
  · next hkey =>
    have := length_key?_lt hkey
    split at h
    · cases h
      simp only [List.length_drop]; omega
    · cases h
  · cases h

/-- Takes one line.  Gives what has been read with it, and the text of the next line. -/
def line? (p : Progress) (cs : List Char) : Option (Progress × List Char) :=
  match skipSpace cs with
  | '[' :: '[' :: cs => do
    let (path, cs) ← header? [']', ']'] cs
    let root ← Value.atHeader (Value.defineNext (path.getLastD "")) path.dropLast p.root
    return ({ root, path }, ← endOfLine? cs)
  | '[' :: cs => do
    let (path, cs) ← header? [']'] cs
    let root ← Value.atHeader (Value.define (path.getLastD "")) path.dropLast p.root
    return ({ root, path }, ← endOfLine? cs)
  | cs =>
    match endOfLine? cs with
    | some cs => some (p, cs)
    | none => do
      let (key, behind) ← key? cs
      let '=' :: cs := behind | none
      let (value, cs) ← (valuesWithin maxDepth).read (skipSpace cs)
      let root ← Value.atHeader
        (Value.addDotted value key.dropLast (key.getLastD "")) p.path p.root
      return ({ p with root }, ← endOfLine? cs)

theorem length_line?_lt {p p' : Progress} {cs rest : List Char}
    (h : line? p cs = some (p', rest)) (hne : cs ≠ []) : rest.length < cs.length := by
  have hspace := length_skipSpace_le cs
  unfold line? at h
  split at h
  · next cs' hopen =>
    simp only [Option.bind_eq_bind, Option.bind_eq_some_iff, Prod.exists] at h
    obtain ⟨path, behind, hheader, root, -, rest', hend, h⟩ := h
    cases h
    have := length_header?_le hheader
    have := length_endOfLine?_le hend
    rw [hopen] at hspace
    simp only [List.length_cons] at hspace; omega
  · next cs' _ hopen =>
    simp only [Option.bind_eq_bind, Option.bind_eq_some_iff, Prod.exists] at h
    obtain ⟨path, behind, hheader, root, -, rest', hend, h⟩ := h
    cases h
    have := length_header?_le hheader
    have := length_endOfLine?_le hend
    have := length_lt_of_eq_cons hopen
    omega
  · split at h
    · next rest' hend =>
      cases h
      rcases endOfLine?_eq_some hend with rfl | hlt
      · exact List.length_pos_iff.mpr hne
      · omega
    · simp only [Option.bind_eq_bind, Option.bind_eq_some_iff, Prod.exists] at h
      obtain ⟨key, behind, hkey, h⟩ := h
      split at h
      · next behind =>
        simp only [Option.bind_eq_some_iff, Prod.exists] at h
        obtain ⟨value, behind', hvalue, root, -, rest, hend, h⟩ := h
        cases h
        have := length_key?_lt hkey
        have := length_skipSpace_le behind
        have := (valuesWithin maxDepth).length_lt hvalue
        have := length_endOfLine?_le hend
        simp only [List.length_cons] at *; omega
      · cases h

/-- Takes all lines. -/
def lines? (p : Progress) : List Char → Option Entries
  | [] => some p.root
  | c :: cs =>
    match _h : line? p (c :: cs) with
    | some (p, rest) => lines? p rest
    | none => none
termination_by cs => cs.length
decreasing_by exact length_line?_lt _h (List.cons_ne_nil c cs)

/-- **The entries of the document that a text holds**, if it is one.  A byte order mark in front is
passed over. -/
def parse? (text : List Char) : Option Entries :=
  let cs := match text with
    | '\uFEFF' :: cs => cs
    | cs => cs
  lines? { root := [], path := [] } cs

end Daybook.Toml
