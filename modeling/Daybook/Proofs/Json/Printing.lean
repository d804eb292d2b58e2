import Mathlib
import Daybook.Json.Printer
import Daybook.Proofs.Json.Parsing
import Daybook.Proofs.Text.Digits

/-!
# Writing documents

What is written for a document spells it, without blanks (`spells_compact`) as well as on lines of
its own (`spells_pretty`).  Spelled texts can be put one behind the other (`SpellsTokens.append`),
so this is a matter of each container and its commas.  A line feed may follow
(`Proper.parse_line`), and what is written without blanks has none in it (`onOneLine_compact`).
-/

namespace Daybook.Json

/-! ### Texts one behind the other -/

theorem ends_nil : Ends [] :=
  fun _ hc => nomatch hc

theorem ends_cons {c : Char} {cs : List Char}
    (h : c.isDigit = false ∧ c ≠ '.' ∧ c ≠ 'e' ∧ c ≠ 'E') : Ends (c :: cs) := by
  intro c' hc'
  rwa [← Option.some.inj hc']

theorem Ends.append {cs cs' : List Char} (h : Ends cs) (h' : Ends cs') : Ends (cs ++ cs') := by
  cases cs with
  | nil => exact h'
  | cons c cs => exact h

namespace SpellsTokens

variable {t : Token} {ts ts' : List Token} {cs cs' blanks : List Char}

theorem prepend_blanks (hblanks : ∀ c ∈ blanks, isSpace c = true) (h : SpellsTokens ts cs) :
    SpellsTokens ts (blanks ++ cs) := by
  cases h with
  | nil hcs => exact .nil (List.forall_mem_append.mpr ⟨hblanks, hcs⟩)
  | cons hcs ht hts hends =>
    rw [← List.append_assoc]
    exact .cons (List.forall_mem_append.mpr ⟨hblanks, hcs⟩) ht hts hends

theorem append (h : SpellsTokens ts cs) (h' : SpellsTokens ts' cs') (hends : Ends cs') :
    SpellsTokens (ts ++ ts') (cs ++ cs') := by
  induction h with
  | nil hblanks => exact h'.prepend_blanks hblanks
  | cons hblanks ht _ hends' ih =>
    rw [List.append_assoc, List.append_assoc]
    exact .cons hblanks ht ih fun hnumber => (hends' hnumber).append hends

/-- A token that is no number may stand in front of anything. -/
theorem cons_token (ht : t.Spells cs) (hnumber : ¬ t.IsNumber) (h : SpellsTokens ts cs') :
    SpellsTokens (t :: ts) (cs ++ cs') :=
  .cons (List.forall_mem_nil _) ht h fun h => absurd h hnumber

theorem single (ht : t.Spells cs) : SpellsTokens [t] cs := by
  have hnil : SpellsTokens [] [] := .nil (List.forall_mem_nil _)
  have h := SpellsTokens.cons (List.forall_mem_nil _) ht hnil fun _ => ends_nil
  rwa [List.nil_append, List.append_nil] at h

end SpellsTokens

/-! ### Numbers -/

namespace Number

theorem proper_ofInt (n : ℤ) : (ofInt n).Proper where
  isDigits_whole := ⟨Nat.toDigits_ne_nil, fun _ hd => Text.isDigit_of_mem_natural hd⟩
  whole_eq_zero h := by
    have hzero : n.natAbs = 0 := by
      by_contra hne
      exact Text.head?_natural_ne_zero (Nat.pos_of_ne_zero hne) h
    rw [ofInt, hzero, Text.natural_zero]
  isDigit_fraction := by simp [ofInt]

theorem spellsExponent_integer (e : ℤ) : SpellsExponent (some e) ('e' :: Text.integer e) := by
  have hdigits : IsDigits (Text.natural e.natAbs) :=
    ⟨Nat.toDigits_ne_nil, fun _ hd => Text.isDigit_of_mem_natural hd⟩
  rw [Text.integer]
  split
  · have h := SpellsExponent.minus (Or.inl rfl) hdigits
    rwa [Text.naturalOf_natural, Int.ofNat_natAbs_of_nonpos (by omega), neg_neg] at h
  · have h := SpellsExponent.unsigned (Or.inl rfl) hdigits
    rwa [Text.naturalOf_natural, Int.natAbs_of_nonneg (by omega)] at h

theorem spells_text {n : Number} (h : n.Proper) : n.Spells n.text := by
  obtain ⟨negative, whole, fraction, exponent⟩ := n
  cases exponent with
  | none => exact ⟨h, [], .absent, by simp [text, signText, fractionText]⟩
  | some e =>
    exact ⟨h, _, spellsExponent_integer e, by simp [text, signText, fractionText]⟩

end Number

theorem proper_ofInt (n : ℤ) : (ofInt n).Proper :=
  .number (Number.proper_ofInt n)

/-! ### Strings -/

theorem hexUnit?_digitChar :
    ∀ n < 32, StringToken.hexUnit? '0' '0' (Nat.digitChar (n / 16)) (Nat.digitChar (n % 16)) =
      some n := by
  decide

/-- Every character is written as a piece that stands for it. -/
theorem exists_piece_stringChar (c : Char) :
    ∃ p : Piece, p.Spells (stringChar c) ∧ ∀ ps,
      StringToken.join? (p :: ps) = (StringToken.join? ps).map (c :: ·) := by
  rw [stringChar.eq_def]
  split
  · exact ⟨_, .short rfl, fun _ => rfl⟩
  · exact ⟨_, .short rfl, fun _ => rfl⟩
  · exact ⟨_, .short rfl, fun _ => rfl⟩
  · exact ⟨_, .short rfl, fun _ => rfl⟩
  · exact ⟨_, .short rfl, fun _ => rfl⟩
  · exact ⟨_, .short rfl, fun _ => rfl⟩
  · exact ⟨_, .short rfl, fun _ => rfl⟩
  · next hquote hslash _ _ _ _ _ =>
    -- What has no escape of a letter is written by its number if it is a control character, and
    -- such a number is no half of a surrogate pair.
    split
    · next hcontrol =>
      refine ⟨.unit c.toNat, .unit (hexUnit?_digitChar c.toNat hcontrol), fun ps => ?_⟩
      have hhigh : StringToken.isHigh c.toNat = false := by
        simp [StringToken.isHigh]; omega
      have hlow : StringToken.isLow c.toNat = false := by
        simp [StringToken.isLow]; omega
      rw [StringToken.join?.eq_def]
      simp [hhigh, hlow]
    · next hcontrol => exact ⟨.char c, .plain (by omega) hquote hslash, fun _ => rfl⟩

theorem exists_pieces_flatMap (s : List Char) :
    ∃ ps, SpellsPieces ps (s.flatMap stringChar) ∧ StringToken.join? ps = some s := by
  induction s with
  | nil => exact ⟨[], .nil, rfl⟩
  | cons c s ih =>
    obtain ⟨p, hp, hjoin⟩ := exists_piece_stringChar c
    obtain ⟨ps, hps, hjoins⟩ := ih
    exact ⟨p :: ps, .cons hp hps, by rw [hjoin, hjoins, Option.map_some]⟩

theorem spells_stringText (s : Option String) : (Token.string s).Spells (stringText s) := by
  cases s with
  | none =>
    have hunit : Piece.Spells (.unit 0xD800) ['\\', 'u', 'd', '8', '0', '0'] := .unit rfl
    exact .string (.cons hunit .nil)
  | some s =>
    obtain ⟨ps, hps, hjoin⟩ := exists_pieces_flatMap s.toList
    have h := Token.Spells.string hps
    rwa [hjoin, Option.map_some, String.ofList_toList] at h

/-! ### Containers -/

theorem ends_of_blanks {blanks cs : List Char} (hblanks : ∀ c ∈ blanks, isSpace c = true)
    (hcs : Ends cs) : Ends (blanks ++ cs) := by
  refine Ends.append ?_ hcs
  cases blanks with
  | nil => exact ends_nil
  | cons c blanks =>
    have hspace := hblanks c (by simp)
    simp only [isSpace, Bool.or_eq_true, beq_iff_eq] at hspace
    rcases hspace with ((rfl | rfl) | rfl) | rfl <;> exact ends_cons (by decide)

namespace SpellsTokens

/-- Things with commas between them. -/
theorem intercalate {α : Type} {tokensOf : α → List Token} {text : α → List Char} {x : α}
    {xs : List α} (h : ∀ y ∈ x :: xs, SpellsTokens (tokensOf y) (text y)) :
    SpellsTokens (tokensOf x ++ xs.flatMap fun y => .comma :: tokensOf y)
      ([','].intercalate ((x :: xs).map text)) := by
  induction xs generalizing x with
  | nil => simpa using h x (by simp)
  | cons y ys ih =>
    obtain ⟨hx, hys⟩ := List.forall_mem_cons.mp h
    rw [List.map_cons, List.map_cons, List.intercalate_cons_cons, ← List.map_cons,
      List.flatMap_cons, List.append_assoc]
    refine hx.append ?_ (ends_cons (by decide))
    exact .cons_token .comma (by simp [Token.IsNumber]) (ih hys)

/-- Something in brackets or braces. -/
theorem enclosed {opening closing : Token} {o c : Char} {ts : List Token} {cs blanks : List Char}
    (ho : opening.Spells [o]) (hnumber : ¬ opening.IsNumber) (hc : closing.Spells [c])
    (hends : c.isDigit = false ∧ c ≠ '.' ∧ c ≠ 'e' ∧ c ≠ 'E')
    (hblanks : ∀ b ∈ blanks, isSpace b = true) (h : SpellsTokens ts cs) :
    SpellsTokens (opening :: (ts ++ [closing])) ([o] ++ (cs ++ (blanks ++ [c]))) := by
  refine .cons_token ho hnumber (h.append ((single hc).prepend_blanks hblanks) ?_)
  exact ends_of_blanks hblanks (ends_cons hends)

end SpellsTokens

/-! ### Without blanks -/

/-- Whatever writes the first thing, a comma and then the others, writes commas between them. -/
theorem eq_intercalate_of_cons_cons {α : Type} {write : List α → List Char} {text : α → List Char}
    (hnil : write [] = []) (hsingle : ∀ x, write [x] = text x)
    (hcons : ∀ x y xs, write (x :: y :: xs) = text x ++ ',' :: write (y :: xs)) (xs : List α) :
    write xs = [','].intercalate (xs.map text) := by
  induction xs with
  | nil => rw [hnil, List.map_nil, List.intercalate_nil]
  | cons x xs ih =>
    cases xs with
    | nil => rw [hsingle, List.map_singleton, List.intercalate_singleton]
    | cons y xs =>
      rw [hcons, ih, List.map_cons (a := x), List.map_cons, List.intercalate_cons_cons,
        List.append_assoc, List.singleton_append]

theorem compactItems_eq_intercalate (items : List Json) :
    compactItems items = [','].intercalate (items.map compact) :=
  eq_intercalate_of_cons_cons rfl (fun _ => by simp [compactItems])
    (fun _ _ _ => by simp [compactItems]) items

theorem compactMembers_eq_intercalate (members : List (Option String × Json)) :
    compactMembers members =
      [','].intercalate (members.map fun m => stringText m.1 ++ ([':'] ++ m.2.compact)) :=
  eq_intercalate_of_cons_cons rfl (fun _ => by simp [compactMembers])
    (fun _ _ _ => by simp [compactMembers]) members

/-- A member is its key, a colon and its value. -/
theorem spellsTokens_member {m : Option String × Json} {cs : List Char}
    (h : SpellsTokens m.2.tokens cs) :
    SpellsTokens (.string m.1 :: .colon :: m.2.tokens) (stringText m.1 ++ ([':'] ++ cs)) := by
  refine .cons_token (spells_stringText m.1) (by simp [Token.IsNumber]) ?_
  exact .cons_token .colon (by simp [Token.IsNumber]) h

/-- A list with an item at least. -/
theorem spells_array {item : Json} {items : List Json} {text : Json → List Char}
    {blanks : List Char} (hblanks : ∀ b ∈ blanks, isSpace b = true)
    (h : ∀ i ∈ item :: items, i.Spells (text i)) :
    (array (item :: items) true).Spells
      (['['] ++ ([','].intercalate ((item :: items).map text) ++ (blanks ++ [']']))) := by
  have hitems := SpellsTokens.intercalate h
  rw [← moreItems_eq_flatMap] at hitems
  rw [Spells, tokens, if_pos rfl, ← List.append_assoc]
  exact .enclosed .openArray (by simp [Token.IsNumber]) .closeArray (by decide) hblanks hitems

/-- An object with a member at least. -/
theorem spells_object {m : Option String × Json} {members : List (Option String × Json)}
    {text : Option String × Json → List Char} {blanks : List Char}
    (hblanks : ∀ b ∈ blanks, isSpace b = true)
    (h : ∀ m' ∈ m :: members, SpellsTokens (.string m'.1 :: .colon :: m'.2.tokens) (text m')) :
    (object (m :: members) true).Spells
      (['\x7b'] ++ ([','].intercalate ((m :: members).map text) ++ (blanks ++ ['\x7d']))) := by
  have hmembers := SpellsTokens.intercalate h
  rw [← moreMembers_eq_flatMap, List.cons_append, List.cons_append] at hmembers
  rw [Spells, tokens, if_pos rfl, ← List.append_assoc, ← List.cons_append, ← List.cons_append]
  exact .enclosed .openObject (by simp [Token.IsNumber]) .closeObject (by decide) hblanks hmembers

/-- **What is written without blanks spells the document.** -/
theorem spells_compact {j : Json} (h : j.Proper) : j.Spells j.compact := by
  induction h with
  | array hitems ih =>
    rename_i items
    rw [compact, compactItems_eq_intercalate]
    cases items with
    | nil => exact .cons_token .openArray (by simp [Token.IsNumber]) (.single .closeArray)
    | cons item items => simpa using spells_array (List.forall_mem_nil _) ih
  | object hmembers ih =>
    rename_i members
    rw [compact, compactMembers_eq_intercalate]
    cases members with
    | nil => exact .cons_token .openObject (by simp [Token.IsNumber]) (.single .closeObject)
    | cons m members =>
      simpa using
        spells_object (List.forall_mem_nil _) fun m' hm' => spellsTokens_member (ih m' hm')
  | null => exact .single .null
  | bool b =>
    cases b with
    | true => exact .single .boolTrue
    | false => exact .single .boolFalse
  | number h => exact .single (.number (Number.spells_text h))
  | string s => exact .single (spells_stringText s)

/-! ### On lines of its own -/

theorem isSpace_of_mem_newLine (depth : ℕ) : ∀ c ∈ newLine depth, isSpace c = true := by
  intro c hc
  rcases List.mem_cons.mp hc with rfl | hc
  · rfl
  · rw [List.eq_of_mem_replicate hc]
    rfl

theorem isSpace_of_mem_singleton : ∀ c ∈ [' '], isSpace c = true :=
  List.forall_mem_singleton.mpr rfl

theorem prettyItems_eq_intercalate (depth : ℕ) (items : List Json) :
    prettyItems depth items =
      [','].intercalate (items.map fun item => newLine depth ++ item.pretty depth) :=
  eq_intercalate_of_cons_cons rfl (fun _ => by simp [prettyItems])
    (fun _ _ _ => by simp [prettyItems]) items

theorem prettyMembers_eq_intercalate (depth : ℕ) (members : List (Option String × Json)) :
    prettyMembers depth members =
      [','].intercalate (members.map fun m =>
        newLine depth ++ (stringText m.1 ++ ([':'] ++ ([' '] ++ m.2.pretty depth)))) :=
  eq_intercalate_of_cons_cons rfl (fun _ => by simp [prettyMembers])
    (fun _ _ _ => by simp [prettyMembers]) members

/-- **What is written on lines of its own spells the document.** -/
theorem spells_pretty {j : Json} (h : j.Proper) (depth : ℕ) : j.Spells (j.pretty depth) := by
  induction h generalizing depth with
  | array hitems ih =>
    rename_i items
    cases items with
    | nil => exact spells_compact (.array (List.forall_mem_nil _))
    | cons item items =>
      -- New lines are blanks, in front of the items as well as of the closing bracket.
      have hspells := spells_array (isSpace_of_mem_newLine depth) fun i hi =>
        (ih i hi (depth + 1)).prepend_blanks (isSpace_of_mem_newLine (depth + 1))
      rw [← prettyItems_eq_intercalate] at hspells
      rw [pretty]
      · simpa using hspells
      · simp
  | object hmembers ih =>
    rename_i members
    cases members with
    | nil => exact spells_compact (.object (List.forall_mem_nil _))
    | cons m members =>
      have hspells := spells_object (isSpace_of_mem_newLine depth) fun m' hm' =>
        (spellsTokens_member ((ih m' hm' (depth + 1)).prepend_blanks
          isSpace_of_mem_singleton)).prepend_blanks (isSpace_of_mem_newLine (depth + 1))
      rw [← prettyMembers_eq_intercalate] at hspells
      rw [pretty]
      · simpa using hspells
      · simp
  | null => exact .single .null
  | bool b => exact spells_compact (.bool b)
  | number h => exact spells_compact (.number h)
  | string s => exact spells_compact (.string s)

/-- The line feed at the end of a line is a blank. -/
theorem Proper.parse_line {j : Json} {cs : List Char} (hj : j.Proper) (h : j.Spells cs) :
    parse (cs ++ ['\n']) = { root := j, ended := true } := by
  have hend : SpellsTokens [] ['\n'] := .nil (List.forall_mem_singleton.mpr rfl)
  have hline := SpellsTokens.append h hend (ends_cons (by decide))
  rw [List.append_nil] at hline
  exact parse_of_spells hj hline

/-! ### On one line -/

/-- Whether none of the characters is a control character, and so none ends a line. -/
def OnOneLine (cs : List Char) : Prop :=
  ∀ c ∈ cs, 0x20 ≤ c.toNat

namespace OnOneLine

variable {cs cs' : List Char}

theorem append (h : OnOneLine cs) (h' : OnOneLine cs') : OnOneLine (cs ++ cs') :=
  List.forall_mem_append.mpr ⟨h, h'⟩

theorem cons {c : Char} (hc : 0x20 ≤ c.toNat) (h : OnOneLine cs) : OnOneLine (c :: cs) :=
  List.forall_mem_cons.mpr ⟨hc, h⟩

theorem nil : OnOneLine [] :=
  List.forall_mem_nil _

theorem of_isDigit (h : ∀ d ∈ cs, d.isDigit = true) : OnOneLine cs := by
  intro d hd
  have hdigit := h d hd
  simp only [Char.isDigit, Bool.and_eq_true, decide_eq_true_eq] at hdigit
  have hlow : 48 ≤ d.toNat := hdigit.1
  omega

theorem intercalate {texts : List (List Char)} (h : ∀ text ∈ texts, OnOneLine text) :
    OnOneLine ([','].intercalate texts) := by
  induction texts with
  | nil => exact nil
  | cons text texts ih =>
    obtain ⟨htext, htexts⟩ := List.forall_mem_cons.mp h
    cases texts with
    | nil => simpa using htext
    | cons text' texts =>
      rw [List.intercalate_cons_cons]
      exact (htext.append (cons (by decide) nil)).append (ih htexts)

end OnOneLine

theorem Number.SpellsExponent.onOneLine {e : Option ℤ} {cs : List Char}
    (h : Number.SpellsExponent e cs) : OnOneLine cs := by
  have hmark : ∀ {c : Char}, c = 'e' ∨ c = 'E' → 0x20 ≤ c.toNat := by
    rintro c (rfl | rfl) <;> decide
  cases h with
  | absent => exact .nil
  | unsigned he hds => exact .cons (hmark he) (.of_isDigit hds.2)
  | plus he hds => exact .cons (hmark he) (.cons (by decide) (.of_isDigit hds.2))
  | minus he hds => exact .cons (hmark he) (.cons (by decide) (.of_isDigit hds.2))

theorem Number.Spells.onOneLine {n : Number} {cs : List Char} (h : n.Spells cs) :
    OnOneLine cs := by
  obtain ⟨hn, power, hpower, rfl⟩ := h
  refine OnOneLine.append ?_ ((OnOneLine.of_isDigit hn.isDigits_whole.2).append
    (OnOneLine.append ?_ hpower.onOneLine))
  · rw [signText]
    split
    · exact .cons (by decide) .nil
    · exact .nil
  · rw [fractionText]
    split
    · exact .nil
    · exact .cons (by decide) (.of_isDigit hn.isDigit_fraction)

theorem StringToken.le_of_hexDigit? {c : Char} {v : ℕ} (h : hexDigit? c = some v) :
    0x20 ≤ c.toNat := by
  rw [hexDigit?] at h
  split at h
  · next hdigit =>
    have hone : OnOneLine [c] := .of_isDigit (by simpa using hdigit)
    exact hone c (by simp)
  · split at h
    · next hletter =>
      have hlow : 97 ≤ c.toNat := hletter.1
      omega
    · split at h
      · next hletter =>
        have hlow : 65 ≤ c.toNat := hletter.1
        omega
      · cases h

theorem Piece.Spells.onOneLine {p : Piece} {cs : List Char} (h : p.Spells cs) : OnOneLine cs := by
  cases h with
  | plain hc _ _ => exact .cons hc .nil
  | short h =>
    refine .cons (by decide) (.cons ?_ .nil)
    rw [StringToken.escape?.eq_def] at h
    split at h <;> first | decide | cases h
  | unit h =>
    simp only [StringToken.hexUnit?, Option.bind_eq_bind, Option.bind_eq_some_iff] at h
    obtain ⟨_, ha, _, hb, _, hc, _, hd, -⟩ := h
    exact .cons (by decide) <| .cons (by decide) <| .cons (StringToken.le_of_hexDigit? ha) <|
      .cons (StringToken.le_of_hexDigit? hb) <| .cons (StringToken.le_of_hexDigit? hc) <|
      .cons (StringToken.le_of_hexDigit? hd) .nil

theorem SpellsPieces.onOneLine {ps : List Piece} {cs : List Char} (h : SpellsPieces ps cs) :
    OnOneLine cs := by
  induction h with
  | nil => exact .nil
  | cons hp _ ih => exact hp.onOneLine.append ih

theorem Token.Spells.onOneLine {t : Token} {cs : List Char} (h : t.Spells cs) : OnOneLine cs := by
  cases h with
  | number h => exact h.onOneLine
  | string h => exact .cons (by decide) (h.onOneLine.append (.cons (by decide) .nil))
  | _ => exact fun c hc => by fin_cases hc <;> decide

/-- **What is written without blanks is one line.** -/
theorem onOneLine_compact {j : Json} (h : j.Proper) : OnOneLine j.compact := by
  induction h with
  | array hitems ih =>
    rename_i items
    rw [compact, compactItems_eq_intercalate]
    refine .cons (by decide) (OnOneLine.append (.intercalate ?_) (.cons (by decide) .nil))
    simpa using ih
  | object hmembers ih =>
    rename_i members
    rw [compact, compactMembers_eq_intercalate]
    refine .cons (by decide) (OnOneLine.append (.intercalate ?_) (.cons (by decide) .nil))
    intro text htext
    obtain ⟨m, hm, rfl⟩ := List.mem_map.mp htext
    exact (spells_stringText m.1).onOneLine.append (.cons (by decide) (ih m hm))
  | null => exact Token.Spells.null.onOneLine
  | bool b =>
    cases b with
    | true => exact Token.Spells.boolTrue.onOneLine
    | false => exact Token.Spells.boolFalse.onOneLine
  | number h => exact (Number.spells_text h).onOneLine
  | string s => exact (spells_stringText s).onOneLine

end Daybook.Json
