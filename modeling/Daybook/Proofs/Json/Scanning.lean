import Mathlib
import Daybook.Proofs.Json.Lexing

/-!
# What is read was spelled

The converse of reading tokens: whatever is taken off the front of a text as a token spells that
token (`nextHere_spec`).  A number is taken as far as it goes, so what follows it begins with no
digit; that it begins with no point and no exponent either is known only when it is itself made of
tokens (`SpellsTokens.of_next`).
-/

namespace Daybook.Json

/-- Whether a text begins with no digit. -/
def NoDigit (cs : List Char) : Prop :=
  ∀ c ∈ cs.head?, c.isDigit = false

/-! ### Numbers -/

namespace Number

variable {cs ds rest : List Char}

/-- All digits are taken, and nothing else. -/
theorem scanDigits_spec (h : scanDigits cs = (ds, rest)) :
    cs = ds ++ rest ∧ (∀ d ∈ ds, d.isDigit = true) ∧ NoDigit rest := by
  cases h
  refine ⟨List.takeWhile_append_dropWhile.symm, fun d hd => List.mem_takeWhile_imp hd, ?_⟩
  intro c hc
  have hhead := List.head?_dropWhile_not Char.isDigit cs
  rw [Option.mem_def.mp hc] at hhead
  simpa using hhead

theorem scanDigits_spec_of_ne (hne : ds = [] → False) (h : scanDigits cs = (ds, rest)) :
    cs = ds ++ rest ∧ IsDigits ds ∧ NoDigit rest :=
  have ⟨hcs, hds, hrest⟩ := scanDigits_spec h
  ⟨hcs, ⟨hne, hds⟩, hrest⟩

theorem scanWhole?_spec (h : scanWhole? cs = some (ds, rest)) :
    cs = ds ++ rest ∧ IsDigits ds ∧ (ds.head? = some '0' → ds = ['0']) ∧ NoDigit rest := by
  unfold scanWhole? at h
  split at h
  · cases h
  · cases h
  · next ds' rest' hne hzero hscan =>
    cases h
    obtain ⟨hcs, hds, hrest⟩ := scanDigits_spec_of_ne hne hscan
    refine ⟨hcs, hds, ?_, hrest⟩
    intro hhead
    cases ds with
    | nil => cases hhead
    | cons d ds =>
      cases ds with
      | nil => rw [Option.some.inj hhead]
      | cons d' ds => exact (hzero d' ds (by rw [Option.some.inj hhead])).elim

/-- A point is taken with the digits behind it, or nothing is. -/
theorem scanFraction?_spec (h : scanFraction? cs = some (ds, rest)) (hcs : NoDigit cs) :
    cs = (if ds.isEmpty then [] else '.' :: ds) ++ rest ∧ (∀ d ∈ ds, d.isDigit = true) ∧
      NoDigit rest := by
  unfold scanFraction? at h
  split at h
  · next rest' =>
    split at h
    · cases h
    · next ds' rest'' hne hscan =>
      cases h
      obtain ⟨hcs', hds, hrest⟩ := scanDigits_spec hscan
      have hds' : ds.isEmpty = false := List.isEmpty_eq_false_iff.mpr hne
      rw [hds', hcs']
      exact ⟨rfl, hds, hrest⟩
  · cases h
    exact ⟨rfl, List.forall_mem_nil _, hcs⟩

/-- A mark is taken with a sign and the digits behind it, or nothing is. -/
theorem scanExponent?_spec {e : Option ℤ} (h : scanExponent? cs = some (e, rest))
    (hcs : NoDigit cs) : ∃ power, SpellsExponent e power ∧ cs = power ++ rest ∧ NoDigit rest := by
  unfold scanExponent? at h
  dsimp only at h
  split at h
  · next c tail =>
    split at h
    · next hmark =>
      have hc : c = 'e' ∨ c = 'E' := by simpa using hmark
      split at h
      case h_1 =>
        split at h
        · cases h
        · next hne hscan =>
          cases h
          obtain ⟨rfl, hds, hrest⟩ := scanDigits_spec_of_ne hne hscan
          rw [one_mul]
          exact ⟨_, .plus hc hds, rfl, hrest⟩
      case h_2 =>
        split at h
        · cases h
        · next hne hscan =>
          cases h
          obtain ⟨rfl, hds, hrest⟩ := scanDigits_spec_of_ne hne hscan
          rw [neg_one_mul]
          exact ⟨_, .minus hc hds, rfl, hrest⟩
      case h_3 =>
        split at h
        · cases h
        · next hne hscan =>
          cases h
          obtain ⟨rfl, hds, hrest⟩ := scanDigits_spec_of_ne hne hscan
          rw [one_mul]
          exact ⟨_, .unsigned hc hds, rfl, hrest⟩
    · cases h
      exact ⟨[], .absent, rfl, hcs⟩
  · cases h
    exact ⟨[], .absent, rfl, hcs⟩

/-- **What is read as a number spells it.** -/
theorem scan?_spec {n : Number} (h : scan? cs = some (n, rest)) :
    ∃ text, n.Spells text ∧ cs = text ++ rest ∧ NoDigit rest := by
  unfold scan? at h
  split at h
  next negative cs' hsign =>
    simp only [Option.bind_eq_bind, Option.bind_eq_some_iff, Option.pure_def, Option.some.injEq,
      Prod.exists, Prod.mk.injEq] at h
    obtain ⟨whole, _, hwhole, fraction, _, hfraction, exponent, _, hexponent, rfl, rfl⟩ := h
    obtain ⟨rfl, hdigits, hzero, hpoint⟩ := scanWhole?_spec hwhole
    obtain ⟨rfl, hbehind, hmark⟩ := scanFraction?_spec hfraction hpoint
    obtain ⟨power, hpower, rfl, hrest⟩ := scanExponent?_spec hexponent hmark
    refine ⟨_, ⟨⟨hdigits, hzero, hbehind⟩, power, hpower, rfl⟩, ?_, hrest⟩
    -- All but the sign is the same on both sides.
    split at hsign
    · cases hsign
      simp [signText, fractionText]
    · cases hsign
      simp [signText, fractionText]

end Number

/-! ### Strings -/

/-- **What is read as the pieces of a string spells them**, and a quote follows. -/
theorem StringToken.scan?_spec {done pieces : List Piece} {cs rest : List Char}
    (h : scan? done cs = some (pieces, rest)) :
    ∃ ps text, pieces = done.reverse ++ ps ∧ SpellsPieces ps text ∧ cs = text ++ '"' :: rest := by
  fun_induction scan? done cs with
  | case1 => cases h
  | case2 done rest' =>
    cases h
    exact ⟨[], [], by simp, .nil, rfl⟩
  | case3 done a b c d rest' u hu ih =>
    obtain ⟨ps, text, rfl, hps, rfl⟩ := ih h
    exact ⟨.unit u :: ps, _, by simp, .cons (.unit hu) hps, rfl⟩
  | case4 => cases h
  | case5 done e rest' hne c hc ih =>
    obtain ⟨ps, text, rfl, hps, rfl⟩ := ih h
    exact ⟨.char c :: ps, _, by simp, .cons (.short hc) hps, rfl⟩
  | case6 => cases h
  | case7 => cases h
  | case8 done c rest' hquote _ hslash hc ih =>
    obtain ⟨ps, text, rfl, hps, rfl⟩ := ih h
    rw [Bool.or_eq_true, decide_eq_true_eq, beq_iff_eq, not_or, not_lt] at hc
    exact ⟨.char c :: ps, _, by simp, .cons (.plain hc.1 hquote hc.2) hps, rfl⟩

/-! ### Tokens -/

theorem afterWord?_spec {word cs rest : List Char} (h : afterWord? word cs = some rest) :
    cs = word ++ rest := by
  fun_induction afterWord? word cs with
  | case1 =>
    cases h
    rfl
  | case2 => cases h
  | case3 w ws c cs hwc ih => rw [ih h, beq_iff_eq.mp hwc, List.cons_append]
  | case4 => cases h

/-- **What is read as a token spells it.** -/
theorem nextHere_spec {cs rest : List Char} {t : Token} (h : nextHere cs = .token t rest) :
    ∃ text, t.Spells text ∧ cs = text ++ rest ∧ (t.IsNumber → NoDigit rest) := by
  unfold nextHere at h
  split at h
  case h_1 => cases h
  case h_2 =>
    cases h
    exact ⟨_, .openArray, rfl, by simp [Token.IsNumber]⟩
  case h_3 =>
    cases h
    exact ⟨_, .closeArray, rfl, by simp [Token.IsNumber]⟩
  case h_4 =>
    cases h
    exact ⟨_, .openObject, rfl, by simp [Token.IsNumber]⟩
  case h_5 =>
    cases h
    exact ⟨_, .closeObject, rfl, by simp [Token.IsNumber]⟩
  case h_6 =>
    cases h
    exact ⟨_, .comma, rfl, by simp [Token.IsNumber]⟩
  case h_7 =>
    cases h
    exact ⟨_, .colon, rfl, by simp [Token.IsNumber]⟩
  case h_8 =>
    split at h
    · next hscan =>
      cases h
      obtain ⟨ps, text, rfl, hps, rfl⟩ := StringToken.scan?_spec hscan
      exact ⟨_, .string hps, by simp, by simp [Token.IsNumber]⟩
    · cases h
  case h_9 =>
    split at h
    · split at h
      · next hafter =>
        cases h
        rw [afterWord?_spec hafter]
        exact ⟨_, .null, rfl, by simp [Token.IsNumber]⟩
      · cases h
    · split at h
      · next hafter =>
        cases h
        rw [afterWord?_spec hafter]
        exact ⟨_, .boolTrue, rfl, by simp [Token.IsNumber]⟩
      · cases h
    · split at h
      · next hafter =>
        cases h
        rw [afterWord?_spec hafter]
        exact ⟨_, .boolFalse, rfl, by simp [Token.IsNumber]⟩
      · cases h
    · split at h
      · next hscan =>
        cases h
        obtain ⟨text, hn, hcs, hrest⟩ := Number.scan?_spec hscan
        exact ⟨text, .number hn, hcs, fun _ => hrest⟩
      · cases h

/-! ### Texts of tokens -/

/-- What a number could go on with, apart from digits. -/
def GoesOn (c : Char) : Prop :=
  c = '.' ∨ c = 'e' ∨ c = 'E'

instance (c : Char) : Decidable (GoesOn c) :=
  inferInstanceAs (Decidable (_ ∨ _))

theorem not_goesOn_of_isSpace {c : Char} (h : isSpace c = true) : ¬ GoesOn c := by
  rintro (rfl | rfl | rfl) <;> exact absurd h (by decide)

theorem Token.Spells.not_goesOn {t : Token} {cs : List Char} (h : t.Spells cs) :
    ∃ c cs', cs = c :: cs' ∧ ¬ GoesOn c := by
  cases h with
  | number h =>
    obtain ⟨c, cs', rfl, hc⟩ := h.exists_cons
    refine ⟨c, cs', rfl, ?_⟩
    rintro (rfl | rfl | rfl) <;> exact absurd hc (by decide)
  | _ => exact ⟨_, _, rfl, by decide⟩

/-- No text of tokens begins with what a number could go on with. -/
theorem SpellsTokens.not_goesOn {ts : List Token} {cs : List Char} (h : SpellsTokens ts cs) :
    ∀ c ∈ cs.head?, ¬ GoesOn c := by
  intro c hc
  cases h with
  | nil hblanks => exact not_goesOn_of_isSpace (hblanks c (List.mem_of_mem_head? hc))
  | @cons t ts blanks text rest hblanks ht _ _ =>
    cases blanks with
    | nil =>
      obtain ⟨c', text', rfl, hc'⟩ := ht.not_goesOn
      rwa [← Option.some.inj hc]
    | cons b blanks =>
      rw [← Option.some.inj hc]
      exact not_goesOn_of_isSpace (hblanks b List.mem_cons_self)

/-- **A text whose first token is read spells it**, in front of what the rest spells. -/
theorem SpellsTokens.of_next {t : Token} {ts : List Token} {cs rest : List Char}
    (h : next cs = .token t rest) (hrest : SpellsTokens ts rest) : SpellsTokens (t :: ts) cs := by
  obtain ⟨text, ht, htext, hdigit⟩ := nextHere_spec h
  have hcs : cs = cs.takeWhile isSpace ++ (text ++ rest) := by
    rw [← htext, List.takeWhile_append_dropWhile]
  rw [hcs]
  refine .cons (fun c hc => List.mem_takeWhile_imp hc) ht hrest ?_
  intro hnumber c hc
  have hgoes := hrest.not_goesOn c hc
  exact ⟨hdigit hnumber c hc, fun h => hgoes (.inl h), fun h => hgoes (.inr (.inl h)),
    fun h => hgoes (.inr (.inr h))⟩

theorem eq_nil_of_nextHere {cs : List Char} (h : nextHere cs = .nothing) : cs = [] := by
  unfold nextHere at h
  split at h
  case h_1 => rfl
  case h_8 => split at h <;> cases h
  case h_9 => split at h <;> split at h <;> cases h
  all_goals cases h

/-- A text without a token spells none. -/
theorem SpellsTokens.of_atEnd {cs : List Char} (h : Json.atEnd cs = true) : SpellsTokens [] cs := by
  refine .nil (List.dropWhile_eq_nil_iff.mp (eq_nil_of_nextHere ?_))
  rw [Json.atEnd] at h
  split at h
  · assumption
  · cases h

end Daybook.Json
