import Mathlib
import Daybook.Proofs.Settings.Layers
import Daybook.Proofs.Settings.Torn

/-!
# Which settings are loaded

The settings are made of the values that win, or else of those that are built in
(`Settings.load_eq_ok_iff`).  There are none only if a variable is torn, a file cannot be read, or a
value that wins does not fit its key (`Settings.load_takes_winning`).  A value that does not win
need not fit, but a variable may not be torn even if it is for no key of the settings
(`Settings.load_torn_for_no_key`).
-/

namespace Daybook.Settings

variable {α : Type} {key : String} {v : Setting} {layers : List Layer} {stack : List Contents}

/-! ### Values that fit -/

/-- Whether a value means a path. -/
inductive MeansPath : Setting → String → Prop where
  | text (s : String) : MeansPath (.text s) s

/-- Whether a value means a whole number of 64 bits. -/
inductive MeansNumber : Setting → Int64 → Prop where
  | signed (n : Int64) : MeansNumber (.signed n) n
  | unsigned {value : ℕ} {n : Int64} (h : n.toInt = value) : MeansNumber (.unsigned value) n

theorem path_eq_ok_iff {s : String} : path key v = .ok s ↔ MeansPath v s := by
  constructor
  · intro h
    cases v <;> cases h
    exact .text s
  · rintro ⟨⟩
    rfl

theorem number_eq_ok_iff {n : Int64} : number key v = .ok n ↔ MeansNumber v n := by
  constructor
  · intro h
    cases v with
    | signed m =>
      cases h
      exact .signed n
    | unsigned value =>
      rw [number] at h
      split at h
      · next hlt =>
        cases h
        exact .unsigned (Int64.toInt_ofNat_of_lt hlt)
      · cases h
    | _ => cases h
  · rintro (_ | hvalue)
    · rfl
    · rename_i value
      have hlt : value < Nat.pow 2 63 := by
        have := n.toInt_lt
        simp only [Nat.pow_eq]
        omega
      rw [number, if_pos hlt, Except.ok.injEq, ← Int64.toInt_inj, hvalue]
      exact Int64.toInt_ofNat_of_lt hlt

/-- Whether `x` is what a key comes to: what the value that wins means, or else what is built in. -/
def Takes (means : Setting → α → Prop) (key : String) (stack : List Contents) (otherwise x : α) :
    Prop :=
  (∃ v, Wins key stack v ∧ means v x) ∨ Unset key stack ∧ x = otherwise

section

variable {reader : String → Setting → Except Fault α} {means : Setting → α → Prop} {otherwise x : α}

theorem use_eq_ok_iff (hmeans : ∀ v x, reader key v = .ok x ↔ means v x)
    (h : List.Forall₂ Holds layers stack) :
    use reader key layers otherwise = .ok x ↔ Takes means key stack otherwise x := by
  simp only [Takes, ← lookup?_eq_some_iff h, ← lookup?_eq_none_iff h, ← hmeans, use]
  cases lookup? key layers <;> simp [eq_comm]

/-- What a key comes to does not depend on what layers give for other keys. -/
theorem Takes.of_agree {stack' : List Contents} (htakes : Takes means key stack otherwise x)
    (h : Agree key stack stack') : Takes means key stack' otherwise x := by
  obtain ⟨v, hwins, hx⟩ | ⟨hunset, rfl⟩ := htakes
  · exact .inl ⟨v, hwins.of_agree h, hx⟩
  · exact .inr ⟨hunset.of_agree h, rfl⟩

/-- A key comes to one thing at most. -/
theorem Takes.unique {y : α} (hmeans : ∀ v x, reader key v = .ok x ↔ means v x)
    (h : List.Forall₂ Holds layers stack) (hx : Takes means key stack otherwise x)
    (hy : Takes means key stack otherwise y) : x = y := by
  rw [← use_eq_ok_iff hmeans h] at hx hy
  exact Except.ok.inj (hx.symm.trans hy)

/-- A key comes to nothing only if the value that wins means nothing. -/
theorem exists_takes_iff (otherwise : α) (h : List.Forall₂ Holds layers stack) :
    (∃ x, Takes means key stack otherwise x) ↔ ∀ v, Wins key stack v → ∃ x, means v x := by
  simp only [Takes, ← lookup?_eq_some_iff h, ← lookup?_eq_none_iff h]
  cases lookup? key layers <;> simp

end

/-! ### The settings -/

/-- The layers of some sources by what they give, the highest first: the environment, the file that
is named, and the file of the user. -/
def contents (sources : SettingsSources) : List Contents :=
  [EnvironmentGives sources.environment, FileGives sources.namedFile, FileGives sources.userFile]

/-- Whether all layers of some sources can be made. -/
@[mk_iff]
structure Layered (sources : SettingsSources) : Prop where
  not_torn : ∀ m ∈ sources.environment, ¬ Torn m
  userFile : Readable sources.userFile
  namedFile : Readable sources.namedFile

/-- Whether settings are what their keys come to among some layers. -/
structure Settled (builtIn : Settings) (stack : List Contents) (s : Settings) : Prop where
  agendaPath : Takes MeansPath agendaPathKey stack builtIn.agendaPath s.agendaPath
  leastSeconds : Takes MeansNumber leastSecondsKey stack builtIn.leastSeconds s.leastSeconds
  slotMinutes : Takes MeansNumber slotMinutesKey stack builtIn.slotMinutes s.slotMinutes

variable {sources : SettingsSources} {s builtIn : Settings}

theorem ofLayers_eq_ok_iff (h : List.Forall₂ Holds layers stack) :
    ofLayers builtIn layers = .ok s ↔ Settled builtIn stack s := by
  simp only [ofLayers, Except.bind_eq_ok_iff, Except.pure_eq_ok_iff,
    use_eq_ok_iff (fun _ _ => path_eq_ok_iff) h, use_eq_ok_iff (fun _ _ => number_eq_ok_iff) h]
  constructor
  · rintro ⟨agendaPath, hpath, leastSeconds, hleast, slotMinutes, hslot, rfl⟩
    exact ⟨hpath, hleast, hslot⟩
  · rintro ⟨hpath, hleast, hslot⟩
    exact ⟨_, hpath, _, hleast, _, hslot, rfl⟩

theorem layered_of_load (h : load sources = .ok s) : Layered sources := by
  obtain ⟨environment, henvironment, h⟩ := Except.bind_eq_ok_iff.mp h
  obtain ⟨user, huser, h⟩ := Except.bind_eq_ok_iff.mp h
  obtain ⟨named, hnamed, -⟩ := Except.bind_eq_ok_iff.mp h
  exact ⟨exists_ofEnvironment_eq_ok_iff.mp ⟨_, henvironment⟩, exists_ofFile_eq_ok_iff.mp ⟨_, huser⟩,
    exists_ofFile_eq_ok_iff.mp ⟨_, hnamed⟩⟩

/-- Settings are made of layers that give what the sources do. -/
theorem Layered.exists_load_eq (h : Layered sources) :
    ∃ layers, List.Forall₂ Holds layers (contents sources) ∧
      load sources = ofLayers (Settings.builtIn sources.dataDirectory) layers := by
  obtain ⟨environment, henvironment⟩ := exists_ofEnvironment_eq_ok_iff.mpr h.not_torn
  obtain ⟨user, huser⟩ := exists_ofFile_eq_ok_iff.mpr h.userFile
  obtain ⟨named, hnamed⟩ := exists_ofFile_eq_ok_iff.mpr h.namedFile
  refine ⟨[environment, named, user], ?_, ?_⟩
  · exact .cons (ofEnvironment_holds henvironment) (.cons (ofFile_holds hnamed)
      (.cons (ofFile_holds huser) .nil))
  · rw [load, henvironment, huser, hnamed]
    rfl

theorem load_eq_ok_iff : load sources = .ok s ↔
    Layered sources ∧ Settled (Settings.builtIn sources.dataDirectory) (contents sources) s := by
  constructor
  · intro h
    have hlayered := layered_of_load h
    obtain ⟨layers, hholds, hload⟩ := hlayered.exists_load_eq
    exact ⟨hlayered, (ofLayers_eq_ok_iff hholds).mp (hload.symm.trans h)⟩
  · rintro ⟨hlayered, hsettled⟩
    obtain ⟨layers, hholds, hload⟩ := hlayered.exists_load_eq
    exact hload.trans ((ofLayers_eq_ok_iff hholds).mpr hsettled)

/-- Settings come to be unless a value that wins means nothing. -/
theorem Layered.exists_settled_iff (h : Layered sources) :
    (∃ s, Settled builtIn (contents sources) s) ↔
      (∀ v, Wins agendaPathKey (contents sources) v → ∃ x, MeansPath v x) ∧
      (∀ v, Wins leastSecondsKey (contents sources) v → ∃ x, MeansNumber v x) ∧
      ∀ v, Wins slotMinutesKey (contents sources) v → ∃ x, MeansNumber v x := by
  obtain ⟨layers, hholds, -⟩ := h.exists_load_eq
  rw [← exists_takes_iff builtIn.agendaPath hholds, ← exists_takes_iff builtIn.leastSeconds hholds,
    ← exists_takes_iff builtIn.slotMinutes hholds]
  constructor
  · rintro ⟨s, hpath, hleast, hslot⟩
    exact ⟨⟨_, hpath⟩, ⟨_, hleast⟩, ⟨_, hslot⟩⟩
  · rintro ⟨⟨agendaPath, hpath⟩, ⟨leastSeconds, hleast⟩, ⟨slotMinutes, hslot⟩⟩
    exact ⟨⟨agendaPath, leastSeconds, slotMinutes⟩, hpath, hleast, hslot⟩

/-- There are no settings if a layer cannot be made or a value that wins means nothing. -/
theorem exists_load_eq_error_iff : (∃ fault, load sources = .error fault) ↔
    ¬ Layered sources ∨
      (∃ v, Wins agendaPathKey (contents sources) v ∧ ∀ x, ¬ MeansPath v x) ∨
      ∃ key ∈ [leastSecondsKey, slotMinutesKey],
        ∃ v, Wins key (contents sources) v ∧ ∀ n, ¬ MeansNumber v n := by
  rw [Except.exists_eq_error_iff]
  simp only [load_eq_ok_iff, exists_and_left]
  by_cases h : Layered sources
  · simp only [h, h.exists_settled_iff, true_and, not_true_eq_false, false_or, not_and_or,
      List.exists_mem_cons_iff, List.not_mem_nil, false_and, exists_false, or_false]
    push Not
    rfl
  · simp [h]

/-- Each of the settings that are loaded is a matter of its own key. -/
theorem settings_eq_of_agree {sources' : SettingsSources} {s' : Settings}
    (h : load sources = .ok s) (h' : load sources' = .ok s') :
    (Agree agendaPathKey (contents sources) (contents sources') →
      sources.dataDirectory = sources'.dataDirectory → s.agendaPath = s'.agendaPath) ∧
    (Agree leastSecondsKey (contents sources) (contents sources') →
      s.leastSeconds = s'.leastSeconds) ∧
    (Agree slotMinutesKey (contents sources) (contents sources') →
      s.slotMinutes = s'.slotMinutes) := by
  obtain ⟨-, hsettled⟩ := load_eq_ok_iff.mp h
  obtain ⟨hlayered', hsettled'⟩ := load_eq_ok_iff.mp h'
  obtain ⟨layers, hholds, -⟩ := hlayered'.exists_load_eq
  refine ⟨fun hagree hdirectory => ?_, fun hagree => ?_, fun hagree => ?_⟩
  · have hpath := hsettled.agendaPath.of_agree hagree
    rw [hdirectory] at hpath
    exact hpath.unique (fun _ _ => path_eq_ok_iff) hholds hsettled'.agendaPath
  · exact (hsettled.leastSeconds.of_agree hagree).unique (fun _ _ => number_eq_ok_iff) hholds
      hsettled'.leastSeconds
  · exact (hsettled.slotMinutes.of_agree hagree).unique (fun _ _ => number_eq_ok_iff) hholds
      hsettled'.slotMinutes

theorem Torn.hasTorn {m : String × String} (h : Torn m) : Setting.HasTorn m.2.toList :=
  Setting.hasTorn_of_ofVariable? h.2

/-- **Which settings are loaded.**  Each key has the value that wins for it, or else the one that is
built in, so what layers give for other keys does not matter.  There are no settings just if a
variable is torn, which takes a string with a cut character in it and so a character of more than
one byte, or a file cannot be read, or a value that wins does not fit its key. -/
theorem load_takes_winning (sources : SettingsSources) :
    (∀ s, load sources = .ok s ↔ Layered sources ∧
      Settled (Settings.builtIn sources.dataDirectory) (contents sources) s) ∧
    (∀ sources' s s', load sources = .ok s → load sources' = .ok s' →
      (Agree agendaPathKey (contents sources) (contents sources') →
        sources.dataDirectory = sources'.dataDirectory → s.agendaPath = s'.agendaPath) ∧
      (Agree leastSecondsKey (contents sources) (contents sources') →
        s.leastSeconds = s'.leastSeconds) ∧
      (Agree slotMinutesKey (contents sources) (contents sources') →
        s.slotMinutes = s'.slotMinutes)) ∧
    ((∃ fault, load sources = .error fault) ↔
      (∃ m ∈ sources.environment, Torn m) ∨
      ¬ Readable sources.userFile ∨ ¬ Readable sources.namedFile ∨
      (∃ v, Wins agendaPathKey (contents sources) v ∧ ∀ x, ¬ MeansPath v x) ∨
      ∃ key ∈ [leastSecondsKey, slotMinutesKey],
        ∃ v, Wins key (contents sources) v ∧ ∀ n, ¬ MeansNumber v n) ∧
    ∀ m ∈ sources.environment, Torn m → (∃ parts, keyParts? m.1 = some parts) ∧
      Setting.HasTorn m.2.toList ∧ ∃ c ∈ m.2.toList, 1 < c.utf8Size := by
  refine ⟨fun s => load_eq_ok_iff, fun _ _ _ => settings_eq_of_agree, ?_,
    fun m _ h => ⟨h.1, h.hasTorn, h.hasTorn.exists_mem⟩⟩
  have hlayered : ¬ Layered sources ↔ (∃ m ∈ sources.environment, Torn m) ∨
      ¬ Readable sources.userFile ∨ ¬ Readable sources.namedFile := by
    simp only [layered_iff, not_and_or, not_forall, not_not, exists_prop]
  rw [exists_load_eq_error_iff, hlayered, or_assoc, or_assoc]

/-- A torn variable is for no key of the settings, all else is in order, and there are none. -/
theorem load_torn_for_no_key :
    let sources : SettingsSources :=
      ⟨some "/home/user/.local/share", .missing, .missing, [("JKS_OTHER", "\"é\\n\"")]⟩
    Readable sources.userFile ∧ Readable sources.namedFile ∧
      keyParts? "JKS_OTHER" = some ["other"] ∧
      (∀ key ∈ [agendaPathKey, leastSecondsKey, slotMinutesKey], Unset key (contents sources)) ∧
      load sources = .error .torn := by
  refine ⟨trivial, trivial, by cbv, ?_, by cbv⟩
  have htorn : Setting.ofVariable? "\"é\\n\"" = none := by cbv
  rintro key -
  simp [Unset, contents, EnvironmentGives, VariableGives, FileGives, htorn,
    List.singleton_eq_append_iff]

end Daybook.Settings
