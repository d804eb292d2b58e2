import Mathlib
import Daybook.Text.Digits

/-!
# Decimal digits

What is known of the digits of a number: how many there are, that the first is no zero unless it is
the only one, and that zeros on the left change neither the value nor what can be read of it.  No
digit of any script is a blank.
-/

namespace Daybook.Text

/-! ### Without zeros on the left -/

theorem length_natural_le_iff {n width : ℕ} (h : 0 < width) :
    (natural n).length ≤ width ↔ n < 10 ^ width :=
  Nat.length_toDigits_le_iff (by decide) h

/-- Only zero begins with a zero. -/
theorem head?_natural_ne_zero {n : ℕ} (h : 0 < n) : (natural n).head? ≠ some '0' := by
  induction n using Nat.strong_induction_on with
  | _ n ih =>
    rw [natural, Nat.toDigits_eq_if (by decide)]
    split
    · simp [h.ne']
    · have hdiv := ih (n / 10) (by omega) (by omega)
      rw [natural] at hdiv
      rwa [List.head?_append_of_ne_nil _ Nat.toDigits_ne_nil]

theorem natural_zero : natural 0 = ['0'] :=
  Nat.toDigits_zero 10

theorem digitChar_of_isDigit {c : Char} (h : c.isDigit = true) :
    Nat.digitChar (c.toNat - '0'.toNat) = c := by
  simp only [Char.isDigit, Bool.and_eq_true, decide_eq_true_eq] at h
  have hlow : 48 ≤ c.toNat := h.1
  have hhigh : c.toNat ≤ 57 := h.2
  have hc : c = Char.ofNat c.toNat := (Char.ofNat_toNat c).symm
  rw [hc]
  generalize c.toNat = n at hlow hhigh
  interval_cases n <;> rfl

/-- **Digits without needless zeros** are those of their value. -/
theorem natural_naturalOf {ds : List Char} (hne : ds ≠ []) (hds : ∀ d ∈ ds, d.isDigit = true)
    (hzero : ds.head? = some '0' → ds = ['0']) : natural (naturalOf ds) = ds := by
  induction ds using List.reverseRecOn with
  | nil => exact absurd rfl hne
  | append_singleton ds d ih =>
    have hd : d.isDigit = true := hds d (by simp)
    have hlt : d.toNat - '0'.toNat < 10 := by
      simp only [Char.isDigit, Bool.and_eq_true, decide_eq_true_eq] at hd
      have hhigh : d.toNat ≤ 57 := hd.2
      show d.toNat - 48 < 10
      omega
    have hlast : natural (d.toNat - '0'.toNat) = [d] := by
      rw [natural, Nat.toDigits_of_lt_base hlt, digitChar_of_isDigit hd]
    have hvalue : naturalOf (ds ++ [d]) = 10 * naturalOf ds + (d.toNat - '0'.toNat) := by
      rw [naturalOf, Nat.ofDigitChars_append, Nat.ofDigitChars_cons, Nat.ofDigitChars_nil,
        naturalOf]
    rw [hvalue]
    cases ds with
    | nil => simpa [naturalOf] using hlast
    | cons d' ds =>
      -- The digits in front do not begin with a zero, so they are no zero.
      have hhead : (d' :: ds).head? ≠ some '0' := by
        intro h
        simpa using hzero (by simpa using h)
      have hfront := ih (by simp) (fun c hc => hds c (List.mem_append_left _ hc))
        fun h => absurd h hhead
      have hpos : 0 < naturalOf (d' :: ds) := by
        rw [Nat.pos_iff_ne_zero]
        intro h
        rw [h, natural_zero] at hfront
        exact hhead (by rw [← hfront]; rfl)
      rw [natural, ← Nat.toDigits_append_toDigits (by decide) hpos hlt]
      exact congrArg₂ List.append hfront hlast

/-- More digits make no number smaller. -/
theorem le_ofDigitChars (ds : List Char) (value : ℕ) : value ≤ Nat.ofDigitChars 10 ds value := by
  rw [Nat.ofDigitChars_eq_ofDigitChars_zero]
  exact (Nat.le_mul_of_pos_left _ (by positivity)).trans (Nat.le_add_right _ _)

/-! ### With zeros on the left -/

theorem isDigit_of_mem_padded {width n : ℕ} {c : Char} (h : c ∈ padded width n) :
    c.isDigit = true := by
  rw [padded, List.leftpad, List.mem_append] at h
  rcases h with h | h
  · rw [List.eq_of_mem_replicate h]
    decide
  · exact isDigit_of_mem_natural h

theorem naturalOf_padded (width n : ℕ) : naturalOf (padded width n) = n := by
  rw [naturalOf, padded, List.leftpad, Nat.ofDigitChars_append, Nat.ofDigitChars_replicate_zero,
    Nat.mul_zero]
  exact naturalOf_natural n

theorem length_padded {width n : ℕ} (hwidth : 0 < width) (h : n < 10 ^ width) :
    (padded width n).length = width := by
  rw [padded, List.length_leftpad]
  exact max_eq_left ((length_natural_le_iff hwidth).mpr h)

theorem padded_ne_nil (width n : ℕ) : padded width n ≠ [] := by
  simp [padded, List.leftpad, natural, Nat.toDigits_ne_nil]

theorem padded_eq_cons (width n : ℕ) : ∃ d ds, padded width n = d :: ds ∧ d.isDigit = true := by
  cases hpadded : padded width n with
  | nil => exact absurd hpadded (padded_ne_nil width n)
  | cons d ds => exact ⟨d, ds, rfl, isDigit_of_mem_padded (hpadded ▸ List.mem_cons_self)⟩

/-! ### Digits and blanks -/

theorem isDecimalDigit_of_isBlank {c : Char} (h : isBlank c = true) : isDecimalDigit c = false := by
  have hblanks : ∀ n ∈ [0x9, 0xA, 0xB, 0xC, 0xD, 0x20, 0x85, 0xA0, 0x1680, 0x2000, 0x2001, 0x2002,
      0x2003, 0x2004, 0x2005, 0x2006, 0x2007, 0x2008, 0x2009, 0x200A, 0x2028, 0x2029, 0x202F,
      0x205F, 0x3000], (decimalZeros.any fun first => first ≤ n && n < first + 10) = false := by
    decide
  refine hblanks c.toNat ?_
  simp only [isBlank, Bool.or_eq_true, Bool.and_eq_true, decide_eq_true_eq, beq_iff_eq] at h
  simp only [List.mem_cons, List.not_mem_nil, or_false]
  omega

theorem isBlank_of_isDigit {c : Char} (h : c.isDigit = true) : isBlank c = false := by
  rw [← Bool.not_eq_true]
  intro hblank
  cases (isDecimalDigit_of_isDigit h).symm.trans (isDecimalDigit_of_isBlank hblank)

end Daybook.Text
