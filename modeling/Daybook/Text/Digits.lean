import Daybook.Text.Blank

/-!
# Numbers in decimal digits

`Text.natural` and `Text.integer` write whole numbers, `Text.padded` fills up with zeros on the
left, and `Text.naturalOf` reads ASCII digits back (`naturalOf_natural`).  `Text.isDecimalDigit` is
the wider class of decimal digits of any script, the Unicode category Nd.
-/

namespace Daybook.Text

/-! ### Writing -/

/-- A natural number in decimal. -/
def natural (n : Nat) : List Char :=
  Nat.toDigits 10 n

/-- A whole number in decimal, with a minus sign if it is negative. -/
def integer (n : Int) : List Char :=
  if n < 0 then '-' :: natural n.natAbs else natural n.natAbs

/-- A natural number in decimal, with zeros on the left up to the given width. -/
def padded (width n : Nat) : List Char :=
  (natural n).leftpad width '0'

/-- `natural` on strings. -/
def showNat (n : Nat) : String :=
  String.ofList (natural n)

/-- `integer` on strings. -/
def showInt (n : Int) : String :=
  String.ofList (integer n)

/-! ### Reading -/

/-- The value of a text of ASCII digits. -/
def naturalOf (digits : List Char) : Nat :=
  Nat.ofDigitChars 10 digits 0

theorem naturalOf_natural (n : Nat) : naturalOf (natural n) = n :=
  Nat.ofDigitChars_toDigits (by decide) (by decide)

theorem isDigit_of_mem_natural {n : Nat} {c : Char} (h : c ∈ natural n) : c.isDigit = true :=
  Nat.isDigit_of_mem_toDigits (by decide) (by decide) h

/-! ### Digits of all scripts -/

/-- The zeros of the decimal digits of all scripts, in version 16 of the Unicode character data; the
nine others follow each of them. -/
def decimalZeros : List Nat :=
  [ 0x30, 0x660, 0x6F0, 0x7C0, 0x966, 0x9E6, 0xA66, 0xAE6, 0xB66, 0xBE6, 0xC66, 0xCE6, 0xD66,
    0xDE6, 0xE50, 0xED0, 0xF20, 0x1040, 0x1090, 0x17E0, 0x1810, 0x1946, 0x19D0, 0x1A80, 0x1A90,
    0x1B50, 0x1BB0, 0x1C40, 0x1C50, 0xA620, 0xA8D0, 0xA900, 0xA9D0, 0xA9F0, 0xAA50, 0xABF0,
    0xFF10, 0x104A0, 0x10D30, 0x10D40, 0x11066, 0x110F0, 0x11136, 0x111D0, 0x112F0, 0x11450,
    0x114D0, 0x11650, 0x116C0, 0x116D0, 0x116DA, 0x11730, 0x118E0, 0x11950, 0x11BF0, 0x11C50,
    0x11D50, 0x11DA0, 0x11F50, 0x16130, 0x16A60, 0x16AC0, 0x16B50, 0x16D70, 0x1CCF0, 0x1D7CE,
    0x1D7D8, 0x1D7E2, 0x1D7EC, 0x1D7F6, 0x1E140, 0x1E2F0, 0x1E4F0, 0x1E5F1, 0x1E950, 0x1FBF0 ]

/-- Whether a character is a decimal digit of some script. -/
def isDecimalDigit (c : Char) : Bool :=
  decimalZeros.any fun first => first ≤ c.toNat && c.toNat < first + 10

theorem isDecimalDigit_of_isDigit {c : Char} (h : c.isDigit = true) : isDecimalDigit c = true := by
  simp only [Char.isDigit, Bool.and_eq_true, decide_eq_true_eq] at h
  have h1 : 48 ≤ c.toNat := h.1
  have h2 : c.toNat ≤ 57 := h.2
  simp only [isDecimalDigit, decimalZeros, List.any_cons, Bool.or_eq_true, Bool.and_eq_true,
    decide_eq_true_eq]
  exact Or.inl ⟨h1, by omega⟩

end Daybook.Text
