import Mathlib
import Daybook.Toml.Document

/-!
# The keys of a TOML document

No key of the outermost table of a document is given twice (`Toml.distinct_of_parse?`): whatever a
line does to that table, it puts an entry in the place of the one with its key or behind the others.
So the value of a key is the one that it is given with (`Toml.lookup_eq_some_iff_mem`).
-/

namespace Daybook.Toml

/-- Whether no key is given twice. -/
def Distinct (entries : Entries) : Prop :=
  (entries.map Prod.fst).Nodup

variable {key : String} {value : Value} {entries entries' : Entries}

theorem lookup_eq_some_iff_mem (h : Distinct entries) :
    entries.lookup key = some value ↔ (key, value) ∈ entries := by
  induction entries with
  | nil => simp
  | cons m entries ih =>
    obtain ⟨k, v⟩ := m
    obtain ⟨hk, hrest⟩ := List.nodup_cons.mp h
    by_cases hkey : key = k
    · -- Behind the entry of the key there is no other.
      have hnot : (k, value) ∉ entries := fun hmem => hk (List.mem_map.mpr ⟨_, hmem, rfl⟩)
      simp [hkey, hnot, eq_comm]
    · rw [List.lookup_cons, beq_eq_false_iff_ne.mpr hkey]
      simpa [hkey] using ih hrest

/-! ### Entries in their places -/

namespace Value

theorem map_fst_put : (put key value entries).map Prod.fst =
    if key ∈ entries.map Prod.fst then entries.map Prod.fst
    else entries.map Prod.fst ++ [key] := by
  induction entries with
  | nil => rfl
  | cons m entries ih =>
    obtain ⟨k, v⟩ := m
    rw [put]
    split_ifs with hk <;> simp_all [eq_comm]

end Value

theorem Distinct.put (h : Distinct entries) : Distinct (Value.put key value entries) := by
  rw [Distinct, Value.map_fst_put]
  split_ifs with hkey
  · exact h
  · exact List.concat_eq_append ▸ h.concat hkey

/-- Whether a change of a table gives no key twice that it was not given twice before. -/
def KeepsDistinct (change : Entries → Option Entries) : Prop :=
  ∀ entries entries', change entries = some entries' → Distinct entries → Distinct entries'

theorem keepsDistinct_define (key : String) : KeepsDistinct (Value.define key) := by
  intro entries entries' h hentries
  unfold Value.define at h
  split at h <;> cases h <;> exact hentries.put

theorem keepsDistinct_defineNext (key : String) : KeepsDistinct (Value.defineNext key) := by
  intro entries entries' h hentries
  unfold Value.defineNext at h
  split at h <;> cases h <;> exact hentries.put

theorem keepsDistinct_addDotted (value : Value) (path : List String) (last : String) :
    KeepsDistinct (Value.addDotted value path last) := by
  intro entries entries' h hentries
  cases path with
  | nil =>
    rw [Value.addDotted] at h
    split at h <;> cases h
    exact hentries.put
  | cons key path =>
    rw [Value.addDotted] at h
    split at h
    · obtain ⟨inner, -, rfl⟩ := Option.map_eq_some_iff.mp h
      exact hentries.put
    · split at h
      · cases h
      · obtain ⟨inner, -, rfl⟩ := Option.map_eq_some_iff.mp h
        exact hentries.put
    · split at h
      · cases h
      · obtain ⟨inner, -, rfl⟩ := Option.map_eq_some_iff.mp h
        exact hentries.put
    · cases h

/-- A change further down leaves the outermost table its keys. -/
theorem KeepsDistinct.atHeader {change : Entries → Option Entries} (h : KeepsDistinct change)
    (path : List String) : KeepsDistinct (Value.atHeader change path) := by
  intro entries entries' hchange hentries
  cases path with
  | nil => exact h _ _ hchange hentries
  | cons key path =>
    rw [Value.atHeader] at hchange
    split at hchange
    · obtain ⟨inner, -, rfl⟩ := Option.map_eq_some_iff.mp hchange
      exact hentries.put
    · obtain ⟨inner, -, rfl⟩ := Option.map_eq_some_iff.mp hchange
      exact hentries.put
    · obtain ⟨inner, -, rfl⟩ := Option.map_eq_some_iff.mp hchange
      exact hentries.put
    · cases hchange

/-! ### Lines -/

/-- A line gives no key twice. -/
theorem distinct_of_line? {p p' : Progress} {cs cs' : List Char} (h : line? p cs = some (p', cs'))
    (hroot : Distinct p.root) : Distinct p'.root := by
  unfold line? at h
  split at h
  · simp only [Option.bind_eq_bind, Option.bind_eq_some_iff] at h
    obtain ⟨⟨path, behind⟩, -, root, hchange, rest, -, h⟩ := h
    cases h
    exact (keepsDistinct_defineNext _).atHeader _ _ _ hchange hroot
  · simp only [Option.bind_eq_bind, Option.bind_eq_some_iff] at h
    obtain ⟨⟨path, behind⟩, -, root, hchange, rest, -, h⟩ := h
    cases h
    exact (keepsDistinct_define _).atHeader _ _ _ hchange hroot
  · split at h
    · cases h
      exact hroot
    · simp only [Option.bind_eq_bind, Option.bind_eq_some_iff] at h
      obtain ⟨⟨key, behind⟩, -, h⟩ := h
      split at h
      · simp only [Option.bind_eq_some_iff] at h
        obtain ⟨⟨value, behind⟩, -, root, hchange, rest, -, h⟩ := h
        cases h
        exact (keepsDistinct_addDotted _ _ _).atHeader _ _ _ hchange hroot
      · cases h

theorem distinct_of_lines? {p : Progress} {cs : List Char} (h : lines? p cs = some entries)
    (hroot : Distinct p.root) : Distinct entries := by
  fun_induction lines? p cs with
  | case1 p => rwa [← Option.some.inj h]
  | case2 p c cs p' rest hline ih => exact ih h (distinct_of_line? hline hroot)
  | case3 => cases h

/-- **A document gives each key of its outermost table once.** -/
theorem distinct_of_parse? {text : List Char} (h : parse? text = some entries) :
    Distinct entries :=
  distinct_of_lines? h List.nodup_nil

end Daybook.Toml
