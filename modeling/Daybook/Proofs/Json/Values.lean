import Mathlib
import Daybook.Proofs.Json.Records

/-!
# Reading and writing values

Numbers, texts and truth values are read back as they are written, and so are lists of what is read
back.
-/

namespace Daybook.Json

/-! ### Numbers -/

/-- **A number of 64 bits stands for itself**, the least one too. -/
theorem Number.numeral?_ofInt (n : Int64) :
    (Number.ofInt n.toInt).numeral? = some (.integer n) := by
  have hle := Int64.le_toInt n
  have hlt := Int64.toInt_lt n
  have hback : Int64.ofInt n.toInt = n := Int64.ofInt_toInt n
  have hlarge : n.toInt.natAbs ≤ maxSignificand := by
    simp only [maxSignificand, Nat.pow_eq]
    omega
  rw [numeral?, ofInt, Text.naturalOf_natural, if_pos ⟨rfl, rfl, hlarge⟩]
  by_cases hneg : n.toInt < 0
  · have hvalue : (-n.toInt.natAbs : ℤ) = n.toInt := by omega
    have hrange : 0 < n.toInt.natAbs ∧ n.toInt.natAbs ≤ Nat.pow 2 63 := by
      simp only [Nat.pow_eq]
      omega
    rw [if_pos (decide_eq_true hneg), if_pos hrange, hvalue, hback]
  · have hvalue : (n.toInt.natAbs : ℤ) = n.toInt := by omega
    have hrange : n.toInt.natAbs < Nat.pow 2 63 := by
      simp only [Nat.pow_eq]
      omega
    rw [if_neg (by simpa using hneg), if_pos hrange, hvalue, hback]

/-- **A number of 64 bits is written in one way only**, if it is a number of the standard. -/
theorem Number.eq_ofInt_of_numeral? {number : Number} {n : Int64} (hnumber : number.Proper)
    (h : number.numeral? = some (.integer n)) : number = .ofInt n.toInt := by
  obtain ⟨hdigits, hzero, -⟩ := hnumber
  have hwhole := Text.natural_naturalOf hdigits.1 hdigits.2 hzero
  obtain ⟨negative, whole, fraction, exponent⟩ := number
  simp only at hwhole
  rw [numeral?] at h
  split at h
  · next hplain =>
    obtain ⟨hfraction, hexponent, hle⟩ := hplain
    obtain rfl : fraction = [] := List.isEmpty_iff.mp hfraction
    obtain rfl : exponent = none := Option.isNone_iff_eq_none.mp hexponent
    -- Both ways to be in range give back the digits, since these have no needless zeros.
    have hvalue : negative = decide (n.toInt < 0) ∧ Text.naturalOf whole = n.toInt.natAbs := by
      generalize Text.naturalOf whole = value at h
      cases negative with
      | true =>
        rw [if_pos rfl] at h
        split at h
        · next hrange =>
          simp only [Option.some.injEq, Numeral.integer.injEq, Nat.pow_eq] at h hrange
          rw [← h, Int64.toInt_ofInt_of_le (by omega) (by omega), eq_comm, decide_eq_true_eq]
          omega
        · simp at h
      | false =>
        rw [if_neg Bool.false_ne_true] at h
        split at h
        · next hrange =>
          simp only [Option.some.injEq, Numeral.integer.injEq, Nat.pow_eq] at h hrange
          rw [← h, Int64.toInt_ofInt_of_le (by omega) (by omega), eq_comm, decide_eq_false_iff_not]
          omega
        · simp at h
    rw [ofInt, ← hvalue.1, ← hvalue.2, hwhole]
  · simp at h

theorem int64_eq_ok_iff {j : Json} {n : Int64} (hj : j.Proper) :
    int64 j = .ok n ↔ j = ofInt n.toInt := by
  constructor
  · intro h
    cases hj with
    | number hnumber =>
      refine congrArg Json.number (Number.eq_ofInt_of_numeral? hnumber ?_)
      rw [int64] at h
      split at h <;> simp_all
    | _ => simp [int64] at h
  · rintro rfl
    rw [ofInt, int64, Number.numeral?_ofInt]

/-- A field with a number and no default takes it from one member, which is that number. -/
theorem Field.takes_int64_iff {name : String} {write : Int64 → Option Json} {values : List Json}
    {n : Int64} (hvalues : ∀ value ∈ values, value.Proper) :
    Field.Takes { name, reader := int64, absent := none, write } values n ↔
      values = [ofInt n.toInt] := by
  constructor
  · rintro (⟨-, habsent⟩ | ⟨value, rfl, hread⟩)
    · cases habsent
    · rw [(int64_eq_ok_iff (hvalues value (by simp))).mp hread]
  · rintro rfl
    exact Or.inr ⟨_, rfl, (int64_eq_ok_iff (hvalues _ (by simp))).mpr rfl⟩

theorem readsBack_int64 : ReadsBack (fun n : Int64 => ofInt n.toInt) int64 where
  proper n := proper_ofInt n.toInt
  reader_write n := by
    rw [ofInt, int64, Number.numeral?_ofInt]

/-! ### Texts and truth values -/

theorem readsBack_stringAs (expected : String) : ReadsBack ofString (stringAs expected) where
  proper s := .string (some s)
  reader_write _ := rfl

theorem readsBack_text : ReadsBack ofString text :=
  readsBack_stringAs "a string"

theorem readsBack_boolean : ReadsBack Json.bool boolean where
  proper b := .bool b
  reader_write _ := rfl

/-! ### Lists -/

variable {α : Type} {write : α → Json} {reader : Reader α}

/-- A list is read item by item. -/
theorem listOf_eq_ok_iff {items : List Json} {xs : List α} :
    Json.listOf reader (.ofList items) = .ok xs ↔
      List.Forall₂ (fun item x => reader item = .ok x) items xs := by
  rw [ofList, Json.listOf, Except.bind_eq_ok_iff, ← Except.mapM_eq_ok_iff]
  simp

/-- **A list is read back** if its items are. -/
theorem ReadsBack.listOf (h : ReadsBack write reader) :
    ReadsBack (fun xs : List α => ofList (xs.map write)) (Json.listOf reader) where
  proper xs := by
    rw [proper_ofList_iff, List.forall_mem_map]
    exact fun x _ => h.proper x
  reader_write xs := by
    rw [listOf_eq_ok_iff, List.forall₂_map_left_iff, List.forall₂_same]
    exact fun x _ => h.reader_write x

end Daybook.Json
