import Mathlib
import Daybook.Json.Record
import Daybook.Proofs.Json.Records

/-!
# Members that may change

A record is read off the members of each name, and off nothing else of an object.  So the members
may stand in another order (`RecordForm.reader_of_perm`), and those of one name may be replaced by
others if the field of that name takes the same value from them (`Form.Allows`,
`RecordForm.reader_of_allows`).  If no field has the name, the new members only have to be whole
(`Form.allows_of_not_mem_names`).
-/

namespace Daybook.Json

/-! ### Members by name -/

section

variable {name key : String} {value : Json} {members members' : List (Option String × Json)}

theorem mem_valuesOf : value ∈ valuesOf name members ↔ (some name, value) ∈ members := by
  unfold valuesOf
  rw [List.mem_map]
  constructor
  · rintro ⟨⟨key, value⟩, hm, rfl⟩
    obtain ⟨hm, hkey⟩ := List.mem_filter.mp hm
    obtain rfl : key = some name := by simpa using hkey
    exact hm
  · intro hm
    exact ⟨_, List.mem_filter.mpr ⟨hm, by simp⟩, rfl⟩

theorem valuesOf_eq_nil_iff : valuesOf name members = [] ↔ ∀ m ∈ members, m.1 ≠ some name := by
  rw [List.eq_nil_iff_forall_not_mem]
  constructor
  · rintro h ⟨key, value⟩ hm rfl
    exact h value (mem_valuesOf.mpr hm)
  · intro h value hvalue
    exact h _ (mem_valuesOf.mp hvalue) rfl

theorem valuesOf_without_self : valuesOf name (without name members) = [] := by
  rw [valuesOf_eq_nil_iff]
  exact fun m hm => (mem_without.mp hm).2

theorem without_without_self : without name (without name members) = without name members :=
  List.filter_filter.trans (by simp [without])

theorem without_comm : without key (without name members) = without name (without key members) :=
  List.filter_comm ..

theorem valuesOf_perm (h : members.Perm members') :
    (valuesOf name members).Perm (valuesOf name members') :=
  (h.filter _).map _

theorem without_perm (h : members.Perm members') :
    (without name members).Perm (without name members') :=
  h.filter _

end

/-! ### Fields -/

namespace Field

variable {α : Type} {field : Field α} {value : Json} {values values' : List Json} {x : α}

theorem takes_nil_iff : field.Takes [] x ↔ field.absent = some x := by
  simp [Takes]

theorem takes_cons_iff :
    field.Takes (value :: values) x ↔ values = [] ∧ field.reader value = .ok x := by
  simp [Takes]

theorem Takes.of_perm (hperm : values.Perm values') (h : field.Takes values x) :
    field.Takes values' x := by
  rcases h with ⟨rfl, habsent⟩ | ⟨value, rfl, hread⟩
  · exact Or.inl ⟨hperm.nil_eq.symm, habsent⟩
  · exact Or.inr ⟨value, hperm.singleton_eq.symm, hread⟩

end Field

/-! ### Forms -/

namespace Form

variable {α : Type} {form : Form α} {key : String} {values values' : List Json} {x : α}
  {members members' : List (Option String × Json)}

/-- **Whether the members of a name may change** from `values` to `values'`: the field of that name
takes from the new values what it takes from the old ones, and where no field has the name, new
values are as whole as old ones. -/
def Allows {α : Type} : Form α → String → List Json → List Json → Prop
  | .nil, _, values, values' =>
    (∀ value ∈ values, value.isWhole = true) → ∀ value ∈ values', value.isWhole = true
  | .cons field rest, key, values, values' =>
    if key = field.name then ∀ x, field.Takes values x → field.Takes values' x
    else rest.Allows key values values'

theorem allows_of_not_mem_names (hkey : key ∉ form.names)
    (hwhole : (∀ value ∈ values, value.isWhole = true) → ∀ value ∈ values', value.isWhole = true) :
    form.Allows key values values' := by
  induction form with
  | nil => exact hwhole
  | cons field rest ih =>
    obtain ⟨hne, hrest⟩ := not_or.mp (mt List.mem_cons.mpr hkey)
    unfold Allows
    rw [if_neg hne]
    exact ih hrest

/-- **The order of members does not matter.** -/
theorem Describes.of_perm (hperm : members.Perm members') (h : form.Describes members x) :
    form.Describes members' x := by
  induction form generalizing members members' with
  | nil => exact fun m hm => h m (hperm.mem_iff.mpr hm)
  | cons field rest ih =>
    obtain ⟨x, y⟩ := x
    obtain ⟨hvalue, hrest⟩ := h
    exact ⟨hvalue.of_perm (valuesOf_perm hperm), ih (without_perm hperm) hrest⟩

/-- **The members of one name may change** if the form allows it. -/
theorem Describes.of_allows
    (hallows : form.Allows key (valuesOf key members) (valuesOf key members'))
    (hothers : without key members = without key members') (h : form.Describes members x) :
    form.Describes members' x := by
  induction form generalizing members members' with
  | nil =>
    intro m hm
    by_cases hkey : m.1 = some key
    · have hwhole : ∀ value ∈ valuesOf key members, value.isWhole = true :=
        fun value hvalue => (h _ (mem_valuesOf.mp hvalue)).2
      refine ⟨hkey ▸ rfl, hallows hwhole m.2 (mem_valuesOf.mpr ?_)⟩
      rw [← hkey]
      exact hm
    · have hother : m ∈ without key members := hothers ▸ mem_without.mpr ⟨hm, hkey⟩
      exact h m (mem_without.mp hother).1
  | cons field rest ih =>
    obtain ⟨x, y⟩ := x
    obtain ⟨hvalue, hrest⟩ := h
    unfold Allows at hallows
    split at hallows
    · next hname =>
      subst hname
      refine ⟨hallows x hvalue, ?_⟩
      rw [← hothers]
      exact hrest
    -- Another field takes the same members as before, and the changed ones are left to the rest.
    · next hname =>
      have hne : field.name ≠ key := Ne.symm hname
      have hsame : valuesOf field.name members = valuesOf field.name members' := by
        rw [← valuesOf_without_of_ne hne, hothers, valuesOf_without_of_ne hne]
      refine ⟨hsame ▸ hvalue, ih ?_ ?_ hrest⟩
      · rw [valuesOf_without_of_ne hname, valuesOf_without_of_ne hname]
        exact hallows
      · rw [without_comm, hothers, without_comm]

end Form

/-! ### Records -/

namespace RecordForm

variable {ρ α : Type} {record : RecordForm ρ α} {key : String} {x : ρ}
  {members members' : List (Option String × Json)}

/-- An object is read as the record that its members describe. -/
theorem ofMembers_eq_ok_iff : record.ofMembers members true = .ok x ↔
    ∃ y, record.form.Describes members y ∧ record.ofTuple y = x := by
  unfold ofMembers
  rw [Except.map_eq_ok_iff]
  exact exists_congr fun y => and_congr_left' Form.ofMembers_eq_ok_iff

theorem reader_of_perm (hperm : members.Perm members')
    (h : record.reader (.object members true) = .ok x) :
    record.reader (.object members' true) = .ok x := by
  obtain ⟨y, hy, rfl⟩ := ofMembers_eq_ok_iff.mp h
  exact ofMembers_eq_ok_iff.mpr ⟨y, hy.of_perm hperm, rfl⟩

theorem reader_of_allows
    (hallows : record.form.Allows key (valuesOf key members) (valuesOf key members'))
    (hothers : without key members = without key members')
    (h : record.reader (.object members true) = .ok x) :
    record.reader (.object members' true) = .ok x := by
  obtain ⟨y, hy, rfl⟩ := ofMembers_eq_ok_iff.mp h
  exact ofMembers_eq_ok_iff.mpr ⟨y, hy.of_allows hallows hothers, rfl⟩

/-- **Members that belong to no field say nothing**, if they are whole. -/
theorem reader_without_iff (hkey : key ∉ record.form.names)
    (hwhole : ∀ value ∈ valuesOf key members, value.isWhole = true) :
    record.reader (.object (without key members) true) = .ok x ↔
      record.reader (.object members true) = .ok x := by
  constructor
  · exact reader_of_allows (Form.allows_of_not_mem_names hkey fun _ => hwhole)
      without_without_self
  · refine reader_of_allows (Form.allows_of_not_mem_names hkey fun _ => ?_)
      without_without_self.symm
    rw [valuesOf_without_self]
    exact List.forall_mem_nil _

end RecordForm

end Daybook.Json
