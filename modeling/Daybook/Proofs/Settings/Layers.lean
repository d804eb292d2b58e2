import Mathlib
import Daybook.Proofs.Except
import Daybook.Proofs.Toml.Keys
import Daybook.Settings.Basic

/-!
# Which value of a setting wins

A layer gives a value for a key or none: a file gives what its document does (`Settings.FileGives`),
and the environment what the last variable for the key does (`Settings.EnvironmentGives`).  The
value that wins is that of the highest layer that gives one (`Settings.Wins`), and this is the one
that is looked up (`Settings.lookup?_eq_some_iff`).  What layers give for other keys does not enter
into it.
-/

namespace Daybook.Settings

variable {α β : Type} {key : String} {v : Setting}

/-! ### What a variable gives -/

/-- Whether a variable, by name and text, gives the value `v` for a key.  A variable for a part of a
value gives a table for its key. -/
def VariableGives (m : String × String) (key : String) (v : Setting) : Prop :=
  ∃ parts value, keyParts? m.1 = some parts ∧ Setting.ofVariable? m.2 = some value ∧
    parts.headD "" = key ∧ v = if parts.length = 1 then value else .map

/-- Whether a variable is one of ours and its text is cut within a character. -/
def Torn (m : String × String) : Prop :=
  (∃ parts, keyParts? m.1 = some parts) ∧ Setting.ofVariable? m.2 = none

/-- What the environment gives for a key: what the last variable for it does. -/
def EnvironmentGives (environment : List (String × String)) (key : String) (v : Setting) : Prop :=
  ∃ before m after, environment = before ++ m :: after ∧ VariableGives m key v ∧
    ∀ m' ∈ after, ∀ v', ¬ VariableGives m' key v'

theorem ofVariable_eq_ok_some_iff {m : String × String} :
    ofVariable m.1 m.2 = .ok (some (key, v)) ↔ VariableGives m key v := by
  unfold ofVariable VariableGives
  split
  · next hname => simp [hname]
  · next hname hvalue => simp [hvalue]
  · next part value hname hvalue => simp [hname, hvalue, eq_comm]
  · next parts value hparts hname hvalue =>
    have hlength : parts.length ≠ 1 := by
      intro hone
      obtain ⟨part, rfl⟩ := List.length_eq_one_iff.mp hone
      exact hparts part rfl
    simp [hname, hvalue, hlength, @eq_comm _ v]

theorem exists_ofVariable_eq_ok_iff {m : String × String} :
    (∃ entry, ofVariable m.1 m.2 = .ok entry) ↔ ¬ Torn m := by
  unfold ofVariable Torn
  split
  · next hname => simp [hname]
  · next hname hvalue => simp [hname, hvalue]
  · next hvalue => simp [hvalue]
  · next hvalue => simp [hvalue]

/-! ### What a layer gives -/

/-- **A layer by what it gives** for each key. -/
abbrev Contents := String → Setting → Prop

/-- Whether that is what a layer gives. -/
def Holds (layer : Layer) (gives : Contents) : Prop :=
  ∀ key v, layer.lookup key = some v ↔ gives key v

theorem Holds.lookup_eq_none_iff {layer : Layer} {gives : Contents} (h : Holds layer gives) :
    layer.lookup key = none ↔ ∀ v, ¬ gives key v := by
  simp only [Option.eq_none_iff_forall_ne_some, ne_eq, h key]

theorem environmentGives_cons_iff {m : String × String} {environment : List (String × String)} :
    EnvironmentGives (m :: environment) key v ↔
      EnvironmentGives environment key v ∨
        VariableGives m key v ∧ ∀ m' ∈ environment, ∀ v', ¬ VariableGives m' key v' := by
  constructor
  · rintro ⟨before, m', after, heq, hgives, hafter⟩
    cases before with
    | nil =>
      obtain ⟨rfl, rfl⟩ := List.cons.inj heq
      exact Or.inr ⟨hgives, hafter⟩
    | cons _ before =>
      obtain ⟨rfl, rfl⟩ := List.cons.inj heq
      exact Or.inl ⟨before, m', after, rfl, hgives, hafter⟩
  · rintro (⟨before, m', after, rfl, hgives, hafter⟩ | ⟨hgives, hafter⟩)
    · exact ⟨m :: before, m', after, rfl, hgives, hafter⟩
    · exact ⟨[], m, environment, rfl, hgives, hafter⟩

/-- The environment gives a value for a key if any variable does. -/
theorem forall_not_environmentGives_iff {environment : List (String × String)} :
    (∀ v, ¬ EnvironmentGives environment key v) ↔
      ∀ m ∈ environment, ∀ v, ¬ VariableGives m key v := by
  induction environment with
  | nil => simp [EnvironmentGives]
  | cons m environment ih =>
    simp only [environmentGives_cons_iff, not_or, forall_and, List.forall_mem_cons, ih]
    constructor
    · rintro ⟨hrest, hm⟩
      exact ⟨fun v hgives => hm v ⟨hgives, hrest⟩, hrest⟩
    · rintro ⟨hm, hrest⟩
      exact ⟨hrest, fun v hgives => hm v hgives.1⟩

/-- **The layer of the environment.** -/
theorem ofEnvironment_holds {environment : List (String × String)} {layer : Layer}
    (h : ofEnvironment environment = .ok layer) : Holds layer (EnvironmentGives environment) := by
  obtain ⟨entries, hentries, hlayer⟩ := Except.bind_eq_ok_iff.mp h
  obtain rfl := Except.pure_eq_ok_iff.mp hlayer
  clear h hlayer
  rw [Except.mapM_eq_ok_iff] at hentries
  -- Later variables come first in the layer, so the entry of the first is behind all others.
  induction hentries with
  | nil => simp [Holds, EnvironmentGives]
  | @cons m entry environment entries hm _ ih =>
    replace hm : ofVariable m.1 m.2 = .ok entry := hm
    intro key v
    have hentry : entry.toList.lookup key = some v ↔ VariableGives m key v := by
      rw [← ofVariable_eq_ok_some_iff, hm]
      cases entry with
      | none => simp
      | some e =>
        obtain ⟨k, v'⟩ := e
        by_cases hk : key = k
        · simp [hk, eq_comm]
        · simp [List.lookup_cons, beq_eq_false_iff_ne.mpr hk, Ne.symm hk]
    have hsplit : ((entry :: entries).filterMap id).reverse =
        (entries.filterMap id).reverse ++ entry.toList := by
      cases entry <;> simp
    rw [hsplit, List.lookup_append, Option.or_eq_some_iff, ih key v, hentry,
      environmentGives_cons_iff, Holds.lookup_eq_none_iff ih, forall_not_environmentGives_iff,
      and_comm]

theorem exists_ofEnvironment_eq_ok_iff {environment : List (String × String)} :
    (∃ layer, ofEnvironment environment = .ok layer) ↔ ∀ m ∈ environment, ¬ Torn m := by
  simp only [← exists_ofVariable_eq_ok_iff]
  refine Iff.trans ?_ Except.exists_mapM_eq_ok_iff
  constructor
  · rintro ⟨layer, h⟩
    obtain ⟨entries, hentries, -⟩ := Except.bind_eq_ok_iff.mp h
    exact ⟨entries, hentries⟩
  · rintro ⟨entries, hentries⟩
    exact ⟨_, Except.bind_eq_ok hentries rfl⟩

/-- Whether a file can be read: it is missing, or it holds a TOML document. -/
def Readable : TextFile → Prop
  | .missing => True
  | .unreadable => False
  | .text s => ∃ entries, Toml.parse? s.toList = some entries

/-- What a file gives for a key: what its document does. -/
def FileGives (file : TextFile) (key : String) (v : Setting) : Prop :=
  ∃ s entries value, file = .text s ∧ Toml.parse? s.toList = some entries ∧
    (key, value) ∈ entries ∧ v = .ofToml value

theorem lookup_map (f : α → β) (entries : List (String × α)) :
    (entries.map fun (key, value) => (key, f value)).lookup key = (entries.lookup key).map f := by
  induction entries with
  | nil => rfl
  | cons e entries ih =>
    obtain ⟨k, x⟩ := e
    rw [List.map_cons, List.lookup_cons, List.lookup_cons, ih]
    cases key == k <;> rfl

/-- **The layer of a file.** -/
theorem ofFile_holds {file : TextFile} {layer : Layer} (h : ofFile file = .ok layer) :
    Holds layer (FileGives file) := by
  intro key v
  cases file with
  | missing =>
    cases h
    simp [FileGives]
  | unreadable => cases h
  | text s =>
    rw [ofFile] at h
    split at h
    · next entries hparse =>
      cases h
      rw [lookup_map, Option.map_eq_some_iff]
      simp only [Toml.lookup_eq_some_iff_mem (Toml.distinct_of_parse? hparse)]
      simp [FileGives, hparse, eq_comm]
    · cases h

theorem exists_ofFile_eq_ok_iff {file : TextFile} :
    (∃ layer, ofFile file = .ok layer) ↔ Readable file := by
  cases file with
  | missing => simp [ofFile, Readable]
  | unreadable => simp [ofFile, Readable]
  | text s =>
    rw [ofFile, Readable]
    cases Toml.parse? s.toList <;> simp

/-! ### The highest layer -/

/-- **Which value wins** for a key among layers, the highest first: that of the first layer that
gives one. -/
inductive Wins (key : String) : List Contents → Setting → Prop where
  | here {gives : Contents} {below : List Contents} {v : Setting} (h : gives key v) :
    Wins key (gives :: below) v
  | further {gives : Contents} {below : List Contents} {v : Setting}
    (hsilent : ∀ v', ¬ gives key v') (h : Wins key below v) : Wins key (gives :: below) v

/-- Whether no layer gives a value for a key. -/
def Unset (key : String) (layers : List Contents) : Prop :=
  ∀ gives ∈ layers, ∀ v, ¬ gives key v

/-- Whether the layers of two stacks give the same for a key, whatever they give for others. -/
def Agree (key : String) : List Contents → List Contents → Prop :=
  List.Forall₂ fun gives gives' => ∀ v, gives key v ↔ gives' key v

theorem Wins.of_agree {stack stack' : List Contents} (hwins : Wins key stack v)
    (h : Agree key stack stack') : Wins key stack' v := by
  induction hwins generalizing stack' with
  | here hv =>
    obtain _ | ⟨hsame, -⟩ := h
    exact .here ((hsame _).mp hv)
  | further hsilent _ ih =>
    obtain _ | ⟨hsame, hbelow⟩ := h
    exact .further (fun v' hv' => hsilent v' ((hsame v').mpr hv')) (ih hbelow)

theorem Unset.of_agree {stack stack' : List Contents} (hunset : Unset key stack)
    (h : Agree key stack stack') : Unset key stack' := by
  induction h with
  | nil => exact hunset
  | cons hsame _ ih =>
    obtain ⟨hsilent, hbelow⟩ := List.forall_mem_cons.mp hunset
    exact List.forall_mem_cons.mpr ⟨fun v hv => hsilent v ((hsame v).mpr hv), ih hbelow⟩

variable {layers : List Layer} {stack : List Contents}

theorem lookup?_eq_some_iff (h : List.Forall₂ Holds layers stack) :
    lookup? key layers = some v ↔ Wins key stack v := by
  induction h with
  | nil => exact iff_of_false (by simp [lookup?]) (by rintro ⟨⟩)
  | @cons layer gives layers stack hholds _ ih =>
    rw [lookup?]
    split
    · next v' hv' =>
      constructor
      · intro heq
        exact .here ((hholds key v).mp (hv'.trans heq))
      · rintro (hv | ⟨hsilent, -⟩)
        · exact hv'.symm.trans ((hholds key v).mpr hv)
        · exact absurd ((hholds key v').mp hv') (hsilent v')
    · next hnone =>
      have hsilent := hholds.lookup_eq_none_iff.mp hnone
      rw [ih]
      constructor
      · exact .further hsilent
      · rintro (hv | ⟨-, hv⟩)
        · exact absurd hv (hsilent v)
        · exact hv

theorem lookup?_eq_none_iff (h : List.Forall₂ Holds layers stack) :
    lookup? key layers = none ↔ Unset key stack := by
  induction h with
  | nil => simp [lookup?, Unset]
  | @cons layer gives layers stack hholds _ ih =>
    rw [Unset, List.forall_mem_cons, ← hholds.lookup_eq_none_iff, ← Unset, ← ih, lookup?]
    cases layer.lookup key <;> simp

end Daybook.Settings
