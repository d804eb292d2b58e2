import Mathlib
import Daybook.Proofs.Json.Spelling

/-!
# Reading tokens

What spells a token is read as that token, whatever follows it, if only a number is not followed by
something that it could go on with (`nextHere_append`).  So a text that spells tokens is read token
by token (`SpellsTokens.next_eq`).
-/

namespace Daybook.Json

/-! ### Numbers -/

theorem IsDigits.exists_cons {ds : List Char} (h : IsDigits ds) :
    ∃ d ds', ds = d :: ds' ∧ d.isDigit = true := by
  obtain ⟨hne, hdigits⟩ := h
  cases ds with
  | nil => exact absurd rfl hne
  | cons d ds => exact ⟨d, ds, rfl, hdigits d (by simp)⟩

/-- No digit is one of the characters that begin other tokens or the parts of a number. -/
theorem ne_of_isDigit {c d : Char} (hc : c.isDigit = true) (hd : d.isDigit = false) : c ≠ d := by
  rintro rfl
  rw [hc] at hd
  cases hd

/-- Digits are read up to the first character that is none. -/
theorem Number.scanDigits_append {ds rest : List Char} (hds : ∀ d ∈ ds, d.isDigit = true)
    (hrest : ∀ c ∈ rest.head?, c.isDigit = false) : scanDigits (ds ++ rest) = (ds, rest) := by
  have htake : rest.takeWhile Char.isDigit = [] := by
    cases rest with
    | nil => rfl
    | cons c rest => exact List.takeWhile_cons_of_neg (by simp [hrest c rfl])
  have hdrop : rest.dropWhile Char.isDigit = rest := by
    cases rest with
    | nil => rfl
    | cons c rest => exact List.dropWhile_cons_of_neg (by simp [hrest c rfl])
  rw [scanDigits, List.takeWhile_append_of_pos hds, List.dropWhile_append_of_pos hds, htake, hdrop,
    List.append_nil]

namespace Number

/-- An exponent without a sign, which is followed by a digit, is positive. -/
theorem scanExponent?_append {e : Option ℤ} {power rest : List Char} (h : SpellsExponent e power)
    (hrest : Ends rest) : scanExponent? (power ++ rest) = some (e, rest) := by
  have hdigit : ∀ c ∈ rest.head?, c.isDigit = false := fun c hc => (hrest c hc).1
  cases h with
  | absent =>
    cases rest with
    | nil => rfl
    | cons c rest =>
      obtain ⟨-, -, he, hE⟩ := hrest c rfl
      simp [scanExponent?, he, hE]
  | unsigned he hds =>
    have hscan := scanDigits_append hds.2 hdigit
    obtain ⟨d, ds, rfl, hd⟩ := hds.exists_cons
    have hplus := ne_of_isDigit hd (show '+'.isDigit = false by decide)
    have hminus := ne_of_isDigit hd (show '-'.isDigit = false by decide)
    rw [List.cons_append] at hscan
    simp [scanExponent?, he, hscan, hplus, hminus]
  | plus he hds =>
    have hscan := scanDigits_append hds.2 hdigit
    obtain ⟨d, ds, rfl, hd⟩ := hds.exists_cons
    rw [List.cons_append] at hscan
    simp [scanExponent?, he, hscan]
  | minus he hds =>
    have hscan := scanDigits_append hds.2 hdigit
    obtain ⟨d, ds, rfl, hd⟩ := hds.exists_cons
    rw [List.cons_append] at hscan
    simp [scanExponent?, he, hscan]

/-- What follows the digits before the point is no digit. -/
theorem SpellsExponent.head?_append {e : Option ℤ} {power rest : List Char}
    (h : SpellsExponent e power) (hrest : Ends rest) :
    ∀ c ∈ (power ++ rest).head?, c.isDigit = false ∧ c ≠ '.' := by
  have hmark : ∀ {c : Char}, c = 'e' ∨ c = 'E' → c.isDigit = false ∧ c ≠ '.' := by
    rintro c (rfl | rfl) <;> decide
  intro c hc
  cases h with
  | absent => exact ⟨(hrest c hc).1, (hrest c hc).2.1⟩
  | unsigned he _ => exact hmark (by simp_all)
  | plus he _ => exact hmark (by simp_all)
  | minus he _ => exact hmark (by simp_all)

theorem scanFraction?_append {n : Number} {rest : List Char}
    (hfraction : ∀ d ∈ n.fraction, d.isDigit = true)
    (hrest : ∀ c ∈ rest.head?, c.isDigit = false ∧ c ≠ '.') :
    scanFraction? (n.fractionText ++ rest) = some (n.fraction, rest) := by
  have hscan := scanDigits_append hfraction fun c hc => (hrest c hc).1
  rw [fractionText]
  cases hds : n.fraction with
  | nil =>
    cases rest with
    | nil => rfl
    | cons c rest => simp [scanFraction?, (hrest c rfl).2]
  | cons d ds =>
    rw [hds, List.cons_append] at hscan
    simp [scanFraction?, hscan]

theorem scanWhole?_append {whole rest : List Char} (hwhole : IsDigits whole)
    (hzero : whole.head? = some '0' → whole = ['0']) (hrest : ∀ c ∈ rest.head?, c.isDigit = false) :
    scanWhole? (whole ++ rest) = some (whole, rest) := by
  have hscan := scanDigits_append hwhole.2 hrest
  obtain ⟨d, ds, rfl, hd⟩ := hwhole.exists_cons
  rw [scanWhole?, hscan]
  split
  · simp_all
  · simp_all
  · simp_all

/-- **A spelled number is read**, if nothing follows that it could go on with. -/
theorem scan?_append {n : Number} {cs rest : List Char} (h : n.Spells cs) (hrest : Ends rest) :
    scan? (cs ++ rest) = some (n, rest) := by
  obtain ⟨hn, power, hpower, rfl⟩ := h
  have hpoint : ∀ c ∈ (n.fractionText ++ (power ++ rest)).head?, c.isDigit = false := by
    intro c hc
    rw [fractionText] at hc
    split at hc
    · exact (hpower.head?_append hrest c hc).1
    · rw [← Option.some.inj hc]
      decide
  have hwhole := scanWhole?_append hn.isDigits_whole hn.whole_eq_zero hpoint
  have hfraction := scanFraction?_append hn.isDigit_fraction (hpower.head?_append hrest)
  have hexponent := scanExponent?_append hpower hrest
  obtain ⟨negative, whole, fraction, exponent⟩ := n
  cases negative with
  | true => simp [scan?, signText, hwhole, hfraction, hexponent]
  | false =>
    -- Without a sign the number begins with a digit.
    obtain ⟨d, ds, rfl, hd⟩ := hn.isDigits_whole.exists_cons
    have hminus := ne_of_isDigit hd (show '-'.isDigit = false by decide)
    rw [List.cons_append] at hwhole
    simp [scan?, signText, hminus, hwhole, hfraction, hexponent]

end Number

/-! ### Strings -/

namespace StringToken

/-- A spelled piece is read, whatever follows. -/
theorem scan?_append_piece {p : Piece} {cs : List Char} (h : p.Spells cs) (done : List Piece)
    (rest : List Char) : scan? done (cs ++ rest) = scan? (p :: done) rest := by
  cases h with
  | plain hc hquote hslash =>
    rename_i c
    rw [List.singleton_append, scan?.eq_def]
    split <;> simp_all
  | short h =>
    rename_i e c
    have hu : e ≠ 'u' := by
      rintro rfl
      simp [escape?] at h
    simp [scan?, hu, h]
  | unit h => simp [scan?, h]

/-- A spelled string is read up to the quote behind it. -/
theorem scan?_append {ps : List Piece} {cs : List Char} (h : SpellsPieces ps cs)
    (done : List Piece) (rest : List Char) :
    scan? done (cs ++ '"' :: rest) = some (done.reverse ++ ps, rest) := by
  induction h generalizing done with
  | nil => simp [scan?]
  | cons hp _ ih =>
    rw [List.append_assoc, scan?_append_piece hp, ih, List.reverse_cons, List.append_assoc,
      List.singleton_append]

end StringToken

/-! ### Tokens -/

/-- A number begins with a digit or a minus sign. -/
theorem Number.Spells.exists_cons {n : Number} {cs : List Char} (h : n.Spells cs) :
    ∃ c cs', cs = c :: cs' ∧ (c.isDigit = true ∨ c = '-') := by
  obtain ⟨hn, power, -, rfl⟩ := h
  obtain ⟨d, ds, hds, hd⟩ := hn.isDigits_whole.exists_cons
  rw [signText, hds]
  cases n.negative with
  | true => exact ⟨'-', _, rfl, Or.inr rfl⟩
  | false => exact ⟨d, _, rfl, Or.inl hd⟩

/-- No token begins with a blank. -/
theorem Token.Spells.exists_cons {t : Token} {cs : List Char} (h : t.Spells cs) :
    ∃ c cs', cs = c :: cs' ∧ isSpace c = false := by
  cases h with
  | number h =>
    obtain ⟨c, cs', rfl, hc⟩ := h.exists_cons
    refine ⟨c, cs', rfl, ?_⟩
    rcases hc with hc | rfl
    · have hspace := ne_of_isDigit hc (show ' '.isDigit = false by decide)
      have hline := ne_of_isDigit hc (show '\n'.isDigit = false by decide)
      have htab := ne_of_isDigit hc (show '\t'.isDigit = false by decide)
      have hreturn := ne_of_isDigit hc (show '\r'.isDigit = false by decide)
      simp [isSpace, hspace, hline, htab, hreturn]
    · decide
  | _ => exact ⟨_, _, rfl, by decide⟩

/-- What begins with a digit or a minus sign is read as a number. -/
theorem nextHere_eq_of_number {cs rest : List Char} {n : Number}
    (hcs : ∃ c cs', cs = c :: cs' ∧ (c.isDigit = true ∨ c = '-'))
    (hscan : Number.scan? cs = some (n, rest)) : nextHere cs = .token (.number n) rest := by
  obtain ⟨c, cs', rfl, hc⟩ := hcs
  have hne : ∀ {d : Char}, d.isDigit = false → d ≠ '-' → c ≠ d := by
    rintro d hd hminus rfl
    rcases hc with hc | rfl
    · exact ne_of_isDigit hc hd rfl
    · exact hminus rfl
  rw [nextHere.eq_def]
  split
  case h_1 => cases ‹c :: cs' = []›
  -- All other tokens begin with a character that is neither.
  case h_2 | h_3 | h_4 | h_5 | h_6 | h_7 | h_8 =>
    exact absurd (List.cons.inj ‹_›).1 (hne (by decide) (by decide))
  case h_9 heq =>
    obtain ⟨rfl, rfl⟩ := List.cons.inj heq
    split
    case h_1 | h_2 | h_3 => exact absurd rfl (hne (by decide) (by decide))
    case h_4 => rw [hscan]

/-- **A spelled token is read**, whatever follows it that a number could not go on with. -/
theorem nextHere_append {t : Token} {cs rest : List Char} (h : t.Spells cs)
    (hends : t.IsNumber → Ends rest) : nextHere (cs ++ rest) = .token t rest := by
  cases h with
  | number h =>
    obtain ⟨c, cs', hcs, hc⟩ := h.exists_cons
    refine nextHere_eq_of_number ⟨c, cs' ++ rest, by rw [hcs, List.cons_append], hc⟩ ?_
    exact Number.scan?_append h (hends ⟨_, rfl⟩)
  | string h =>
    have hscan := StringToken.scan?_append h [] rest
    rw [List.reverse_nil, List.nil_append] at hscan
    simp [nextHere, hscan]
  | null => simp [nextHere, afterWord?]
  | boolTrue => simp [nextHere, afterWord?]
  | boolFalse => simp [nextHere, afterWord?]
  | _ => rfl

/-- **Tokens are read one by one.** -/
theorem SpellsTokens.next_eq {t : Token} {ts : List Token} {cs : List Char}
    (h : SpellsTokens (t :: ts) cs) : ∃ rest, next cs = .token t rest ∧ SpellsTokens ts rest := by
  cases h with
  | cons hblanks ht hts hends =>
    rename_i blanks text rest
    refine ⟨rest, ?_, hts⟩
    obtain ⟨c, text', rfl, hc⟩ := ht.exists_cons
    rw [next, List.dropWhile_append_of_pos hblanks, List.cons_append,
      List.dropWhile_cons_of_neg (by simp [hc]), ← List.cons_append]
    exact nextHere_append ht hends

/-- Behind the last token nothing is found. -/
theorem SpellsTokens.atEnd {cs : List Char} (h : SpellsTokens [] cs) : atEnd cs = true := by
  cases h with
  | nil hblanks =>
    have hdrop : cs.dropWhile isSpace = [] := List.dropWhile_eq_nil_iff.mpr hblanks
    rw [Json.atEnd, next, hdrop]
    rfl

end Daybook.Json
