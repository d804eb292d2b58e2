import Mathlib
import Daybook.Proofs.Except
import Daybook.Settings.Value

/-!
# Torn texts

The text of a variable is torn only if, behind a double quote and in front of a backslash, it has
characters whose number, taken as a number of bytes, ends within one of them
(`Setting.hasTorn_of_ofVariable?`).  One of these characters then has more than one byte
(`Setting.HasTorn.exists_mem`), so what is ASCII is never torn.

Only strings are torn, as values or as keys in a table.  What is around them is read from some end
of the text, and a string that is torn in an end of the text is one of the text
(`Setting.HasTorn.of_suffix`).
-/

namespace Daybook.Setting

variable {cs cs' : List Char}

/-! ### Cut characters -/

/-- Whether the first bytes of a text, as many as it has characters, end within a character. -/
def Cut (cs : List Char) : Prop :=
  takeBytes? cs.length cs = none

theorem takeBytes?_length_of_forall_utf8Size (h : ∀ c ∈ cs, c.utf8Size = 1) :
    takeBytes? cs.length cs = some cs := by
  induction cs with
  | nil => rfl
  | cons c cs ih =>
    obtain ⟨hc, hcs⟩ := List.forall_mem_cons.mp h
    simp [takeBytes?, hc, ih hcs]

/-- What is cut has a character of more than one byte. -/
theorem Cut.exists_mem (h : Cut cs) : ∃ c ∈ cs, 1 < c.utf8Size := by
  by_contra! hshort
  have hone : ∀ c ∈ cs, c.utf8Size = 1 := fun c hc =>
    le_antisymm (hshort c hc) c.utf8Size_pos
  rw [Cut, takeBytes?_length_of_forall_utf8Size hone] at h
  cases h

/-- Whether a text has, between a double quote and a backslash, plain characters that are cut. -/
def HasTorn (cs : List Char) : Prop :=
  ∃ before front after, cs = before ++ '"' :: (front ++ '\\' :: after) ∧
    (∀ c ∈ front, isLiteral c) ∧ Cut front

theorem HasTorn.of_suffix (h : HasTorn cs) (hsuffix : cs <:+ cs') : HasTorn cs' := by
  obtain ⟨before, front, after, rfl, hfront, hcut⟩ := h
  obtain ⟨before', rfl⟩ := hsuffix
  exact ⟨before' ++ before, front, after, (List.append_assoc ..).symm, hfront, hcut⟩

theorem HasTorn.exists_mem (h : HasTorn cs) : ∃ c ∈ cs, 1 < c.utf8Size := by
  obtain ⟨before, front, after, rfl, -, hcut⟩ := h
  obtain ⟨c, hc, hlong⟩ := hcut.exists_mem
  exact ⟨c, by simp [hc], hlong⟩

/-! ### Strings -/

theorem meant_eq_error_torn {body : List Char} (h : meant body = .error .torn) :
    ∃ front after, body = front ++ '\\' :: after ∧ (∀ c ∈ front, isLiteral c) ∧ Cut front := by
  rw [meant] at h
  split at h
  · cases h
  · next after hafter =>
    refine ⟨body.takeWhile isLiteral, after, ?_, fun c hc => List.mem_takeWhile_imp hc, ?_⟩
    · rw [← hafter, List.takeWhile_append_dropWhile]
    · split at h
      · next hcut => exact hcut
      · cases h
      · cases h
  · cases h

theorem hasTorn_of_quoted (h : quoted cs = .error .torn) : HasTorn cs := by
  unfold quoted at h
  split at h
  · split at h
    · next body rest hsplit =>
      obtain ⟨front, after, rfl, hfront, hcut⟩ := meant_eq_error_torn (Except.map_eq_error_iff.mp h)
      rw [splitQuoted_eq_some hsplit]
      exact ⟨[], front, after ++ '"' :: rest, by simp, hfront, hcut⟩
    · cases h
  · cases h

theorem hasTorn_of_skipKey (h : skipKey cs = .error .torn) : HasTorn cs := by
  unfold skipKey at h
  split at h
  · exact hasTorn_of_quoted (Except.map_eq_error_iff.mp h)
  · split at h <;> cases h

theorem hasTorn_of_plain (h : plain cs = .error .torn) : HasTorn cs := by
  unfold plain at h
  split at h
  case h_5 => exact hasTorn_of_quoted (Except.map_eq_error_iff.mp h)
  all_goals cases h

/-! ### Lists and tables -/

theorem Container.hasTorn_of_toValue {container : Container}
    (h : container.toValue cs = .error .torn) : HasTorn cs := by
  unfold toValue at h
  split at h
  · cases h
  · split at h
    · split at h <;> cases h
    · next hkey =>
      cases h
      exact (hasTorn_of_skipKey hkey).of_suffix (skipAsciiBlanks_suffix _)

theorem leave_ne_error_torn (opened : List Container) (cs : List Char) :
    leave opened cs ≠ .error .torn := by
  fun_induction leave opened cs with
  | case1 => simp
  | case2 => simp
  | case3 _ _ _ _ _ _ ih => exact ih
  | case4 => simp

/-- **A step meets a torn text only in the text.** -/
theorem hasTorn_of_step {container : Container} {outer : List Container}
    (h : step container outer cs = .error .torn) : HasTorn cs := by
  unfold step at h
  split at h
  · exact absurd h (leave_ne_error_torn _ _)
  · split at h
    · cases h
    · cases h
    · next text _ _ hvalue =>
      split at h
      · exact absurd h (leave_ne_error_torn _ _)
      · next hplain =>
        cases h
        exact (hasTorn_of_plain hplain).of_suffix (Container.toValue_suffix hvalue)
    · next hvalue =>
      cases h
      exact Container.hasTorn_of_toValue hvalue

theorem hasTorn_of_skip {opened : List Container} (h : skip opened cs = .error .torn) :
    HasTorn cs := by
  fun_induction skip opened cs with
  | case1 => cases h
  | case2 container outer cs opened rest hstep ih =>
    obtain ⟨c, hrest⟩ := exists_suffix_of_step hstep
    exact (ih h).of_suffix ((List.suffix_cons ..).trans hrest)
  | case3 container outer cs misfit hstep =>
    cases h
    exact hasTorn_of_step hstep

/-! ### Values -/

theorem hasTorn_of_value (h : value cs = .error .torn) : HasTorn cs := by
  unfold value at h
  extract_lets found at h
  have hfound : found = .error .torn := Except.map_eq_error_iff.mp h
  suffices htext : HasTorn (skipAsciiBlanks cs) from htext.of_suffix (skipAsciiBlanks_suffix cs)
  unfold found at hfound
  split at hfound
  · next rest hopen =>
    rw [hopen]
    exact (hasTorn_of_skip (Except.map_eq_error_iff.mp hfound)).of_suffix (List.suffix_cons ..)
  · next rest hopen =>
    rw [hopen]
    exact (hasTorn_of_skip (Except.map_eq_error_iff.mp hfound)).of_suffix (List.suffix_cons ..)
  · exact hasTorn_of_plain hfound

/-- **Torn variables.** -/
theorem hasTorn_of_ofVariable? {s : String} (h : ofVariable? s = none) : HasTorn s.toList := by
  unfold ofVariable? at h
  split at h
  · cases h
  · cases h
  · cases h
  · next htorn => exact hasTorn_of_value htorn

end Daybook.Setting
