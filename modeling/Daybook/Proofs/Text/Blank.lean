import Mathlib
import Daybook.Text.Blank

/-!
# Blanks at the ends of a text

`skipBlanks`, `trimEnd` and `trim` take off the blanks in front of a text, at its end and at both.
What is left begins and ends with no blank, and a text that does so is left as it is between any
blanks (`trim_append`).  What was taken off are blanks (`exists_eq_append_trim`), and if those at
the end are all spaces, filling up with spaces gives the text back (`getD_trimEnd`).
-/

namespace Daybook.Text

/-! ### In front -/

variable {blanks before middle after cs : List Char}

theorem skipBlanks_append (h : ∀ c ∈ blanks, isBlank c = true) (cs : List Char) :
    skipBlanks (blanks ++ cs) = skipBlanks cs :=
  List.dropWhile_append_of_pos h

theorem skipBlanks_eq_self (h : ∀ c ∈ cs.head?, isBlank c = false) : skipBlanks cs = cs := by
  cases cs with
  | nil => rfl
  | cons c cs => exact List.dropWhile_cons_of_neg (by simp [h c rfl])

theorem exists_eq_append_skipBlanks (cs : List Char) :
    ∃ blanks, (∀ c ∈ blanks, isBlank c = true) ∧ cs = blanks ++ skipBlanks cs :=
  ⟨cs.takeWhile isBlank, fun _ hc => List.mem_takeWhile_imp hc,
    List.takeWhile_append_dropWhile.symm⟩

/-- A text that begins with no blank is what is left behind blanks, and behind nothing else. -/
theorem skipBlanks_eq_iff {rest : List Char} (h : ∀ c ∈ rest.head?, isBlank c = false) :
    skipBlanks cs = rest ↔ ∃ blanks, (∀ c ∈ blanks, isBlank c = true) ∧ cs = blanks ++ rest := by
  constructor
  · rintro rfl
    exact exists_eq_append_skipBlanks cs
  · rintro ⟨blanks, hblanks, rfl⟩
    rw [skipBlanks_append hblanks, skipBlanks_eq_self h]

/-! ### At the end -/

theorem trimEnd_eq_rdropWhile (cs : List Char) : trimEnd cs = cs.rdropWhile isBlank :=
  rfl

/-- A text does not end with a space when its blanks are taken off. -/
theorem getLast?_trimEnd_ne (cs : List Char) : (trimEnd cs).getLast? ≠ some ' ' := by
  rw [trimEnd_eq_rdropWhile]
  intro hlast
  have hne : cs.rdropWhile isBlank ≠ [] := List.ne_nil_of_mem (List.mem_of_getLast? hlast)
  have hblank := List.rdropWhile_last_not isBlank cs hne
  rw [List.getLast?_eq_some_getLast hne, Option.some_inj] at hlast
  rw [hlast] at hblank
  exact hblank rfl

/-- Where spaces are the only blanks, what is taken off comes back by filling up with spaces. -/
theorem getD_trimEnd {cs : List Char} (h : ∀ c ∈ cs, isBlank c = true → c = ' ') (n : ℕ) :
    (trimEnd cs).getD n ' ' = cs.getD n ' ' := by
  have hoff : cs.rtakeWhile isBlank = List.replicate (cs.rtakeWhile isBlank).length ' ' := by
    rw [List.eq_replicate_iff]
    refine ⟨rfl, fun c hc => ?_⟩
    exact h c ((List.rtakeWhile_suffix isBlank cs).mem hc) (List.mem_rtakeWhile_imp hc)
  have hsplit : trimEnd cs ++ cs.rtakeWhile isBlank = cs := List.rdropWhile_append_rtakeWhile
  rw [hoff] at hsplit
  rcases lt_or_ge n (trimEnd cs).length with hn | hn
  · rw [← List.getD_append _ _ _ _ hn, hsplit]
  · rw [List.getD_eq_default _ _ hn, ← hsplit, List.getD_append_right _ _ _ _ hn]
    simp

/-! ### On both sides -/

theorem trimEnd_append (hafter : ∀ c ∈ after, isBlank c = true)
    (hlast : ∀ c ∈ middle.getLast?, isBlank c = false) : trimEnd (middle ++ after) = middle := by
  rw [trimEnd, List.reverse_append, skipBlanks_append (by simpa using hafter), skipBlanks_eq_self,
    List.reverse_reverse]
  rwa [List.head?_reverse]

/-- **Blanks around a text** are all that is taken off. -/
theorem trim_append (hbefore : ∀ c ∈ before, isBlank c = true)
    (hafter : ∀ c ∈ after, isBlank c = true) (hne : middle ≠ [])
    (hhead : ∀ c ∈ middle.head?, isBlank c = false)
    (hlast : ∀ c ∈ middle.getLast?, isBlank c = false) :
    trim (before ++ (middle ++ after)) = middle := by
  have hstart : skipBlanks (middle ++ after) = middle ++ after :=
    skipBlanks_eq_self (by rwa [List.head?_append_of_ne_nil _ hne])
  rw [trim, skipBlanks_append hbefore, hstart, trimEnd_append hafter hlast]

theorem exists_eq_append_trim (cs : List Char) : ∃ before after,
    (∀ c ∈ before, isBlank c = true) ∧ (∀ c ∈ after, isBlank c = true) ∧
      cs = before ++ (trim cs ++ after) := by
  obtain ⟨before, hbefore, hcs⟩ := exists_eq_append_skipBlanks cs
  have hend : trim cs ++ (skipBlanks cs).rtakeWhile isBlank = skipBlanks cs :=
    List.rdropWhile_append_rtakeWhile
  refine ⟨before, (skipBlanks cs).rtakeWhile isBlank, hbefore,
    fun c hc => List.mem_rtakeWhile_imp hc, ?_⟩
  rw [hend, ← hcs]

end Daybook.Text
