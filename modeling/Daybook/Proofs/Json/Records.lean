import Mathlib
import Daybook.Json.Record
import Daybook.Proofs.Json.Grammar
import Daybook.Proofs.Json.Printing

/-!
# Reading and writing records

Which record an object stands for depends on its members by name only (`Form.Describes`): a field
takes its value from the one member with its name, or has a default if there is none, and all other
members only have to be whole.  That is exactly what reading does (`Form.ofMembers_eq_ok_iff`).

If what each field writes gives its value back (`Field.Lossless`), so does what the record writes
(`RecordForm.Lossless.readsBack`).
-/

namespace Daybook.Json

/-! ### Members by name -/

/-- The values of the members with a name. -/
def valuesOf (name : String) (members : List (Option String × Json)) : List Json :=
  (members.filter fun m => m.1 = some name).map Prod.snd

/-- The members with other names. -/
def without (name : String) (members : List (Option String × Json)) : List (Option String × Json) :=
  members.filter fun m => m.1 ≠ some name

section

variable {name key : String} {value : Json} {members : List (Option String × Json)}

theorem valuesOf_cons_self :
    valuesOf name ((some name, value) :: members) = value :: valuesOf name members := by
  simp [valuesOf]

theorem without_cons_self :
    without name ((some name, value) :: members) = without name members := by
  simp [without]

theorem valuesOf_cons_of_ne {key : Option String} (h : key ≠ some name) :
    valuesOf name ((key, value) :: members) = valuesOf name members := by
  simp [valuesOf, h]

theorem without_cons_of_ne {key : Option String} (h : key ≠ some name) :
    without name ((key, value) :: members) = (key, value) :: without name members := by
  simp [without, h]

theorem mem_without {m : Option String × Json} :
    m ∈ without name members ↔ m ∈ members ∧ m.1 ≠ some name := by
  simp [without]

theorem exists_mem_of_mem_valuesOf (h : value ∈ valuesOf name members) :
    ∃ m ∈ members, m.2 = value := by
  obtain ⟨m, hm, rfl⟩ := List.mem_map.mp h
  exact ⟨m, List.mem_of_mem_filter hm, rfl⟩

/-- Members of one name are not missed among those of other names. -/
theorem valuesOf_without_of_ne (h : key ≠ name) :
    valuesOf key (without name members) = valuesOf key members := by
  rw [valuesOf, valuesOf, without, List.filter_filter]
  congr 1
  refine List.filter_congr fun m _ => ?_
  by_cases hm : m.1 = some key <;> simp [hm, h]

end

/-! ### Fields -/

namespace Field

/-- Whether a field has the value `x` if the members with its name have the given values. -/
def Takes {α : Type} (field : Field α) (values : List Json) (x : α) : Prop :=
  values = [] ∧ field.absent = some x ∨ ∃ value, values = [value] ∧ field.reader value = .ok x

/-- Whether the place of a field changes from `slot` to `slot'` at the given values. -/
def Fills {α : Type} (field : Field α) (slot : Option α) (values : List Json) (slot' : Option α) :
    Prop :=
  values = [] ∧ slot' = slot ∨
    slot = none ∧ ∃ value x, values = [value] ∧ field.reader value = .ok x ∧ slot' = some x

variable {α : Type} {field : Field α} {slot slot' : Option α} {value : Json} {values : List Json}
  {x : α}

theorem fills_nil : field.Fills slot [] slot' ↔ slot' = slot := by
  simp [Fills]

/-- A second member of one name is an error. -/
theorem not_fills_some_cons : ¬ field.Fills (some x) (value :: values) slot' := by
  simp [Fills]

theorem fills_none_cons : field.Fills none (value :: values) slot' ↔
    ∃ x, field.reader value = .ok x ∧ field.Fills (some x) values slot' := by
  cases values with
  | nil => simp [Fills]
  | cons v vs => simp [Fills]

/-- A field that no member has filled has its default, if there is one. -/
theorem exists_fills_iff :
    (∃ slot, field.Fills none values slot ∧ Form.fill field slot = .ok x) ↔
      field.Takes values x := by
  have habsent : Form.fill field none = .ok x ↔ field.absent = some x := by
    rw [Form.fill]
    cases field.absent <;> simp
  constructor
  · rintro ⟨slot, ⟨hvalues, rfl⟩ | ⟨-, value, y, hvalues, hread, rfl⟩, hfill⟩
    · exact Or.inl ⟨hvalues, habsent.mp hfill⟩
    · obtain rfl := Except.ok.inj hfill
      exact Or.inr ⟨value, hvalues, hread⟩
  · rintro (⟨hvalues, hfill⟩ | ⟨value, hvalues, hread⟩)
    · exact ⟨none, Or.inl ⟨hvalues, rfl⟩, habsent.mpr hfill⟩
    · exact ⟨some x, Or.inr ⟨rfl, value, x, hvalues, hread, rfl⟩, rfl⟩

end Field

/-! ### Forms -/

namespace Form

/-- **Whether the members of an object describe the fields of a record**: each field takes its value
from the members with its name, and those of other names are whole. -/
def Describes {α : Type} : Form α → List (Option String × Json) → α → Prop
  | .nil, members, _ => ∀ m ∈ members, m.1.isSome = true ∧ m.2.isWhole = true
  | .cons field rest, members, (x, y) =>
    field.Takes (valuesOf field.name members) x ∧ rest.Describes (without field.name members) y

variable {α β : Type} {field : Field α} {rest : Form β} {slot slot' : Option α}
  {others others' : rest.Slots} {key : String} {value : Json}
  {members : List (Option String × Json)}

/-- The place of the first field, beside those of the others. -/
def beside (slot : Option α) (others : rest.Slots) : (cons field rest).Slots :=
  (slot, others)

theorem exists_slots_iff {p : (cons field rest).Slots → Prop} :
    (∃ slots, p slots) ↔ ∃ slot others, p (beside slot others) := by
  constructor
  · rintro ⟨⟨slot, others⟩, h⟩
    exact ⟨slot, others, h⟩
  · rintro ⟨slot, others, h⟩
    exact ⟨_, h⟩

theorem beside_inj : (beside slot others : (cons field rest).Slots) = beside slot' others' ↔
    slot = slot' ∧ others = others' :=
  Prod.mk_inj

theorem put?_some_self {x : α} :
    (cons field rest).put? (beside (some x) others) field.name value =
      .error (.mismatch (.duplicateField field.name)) :=
  if_pos rfl

theorem put?_none_self : (cons field rest).put? (beside none others) field.name value =
    (fun x => some (beside (some x) others)) <$> field.reader value :=
  if_pos rfl

theorem put?_of_ne (h : key ≠ field.name) :
    (cons field rest).put? (beside slot others) key value =
      Option.map (beside slot) <$> rest.put? others key value :=
  if_neg h

theorem finish_beside_eq_ok_iff {x : α} {y : β} :
    (cons field rest).finish (beside slot others) = .ok (x, y) ↔
      fill field slot = .ok x ∧ rest.finish others = .ok y := by
  show (fill field slot >>= fun x' => rest.finish others >>= fun y' => pure (x', y')) = _ ↔ _
  simp

theorem putAll_nil_eq_ok_iff {slots slots' : nil.Slots} :
    nil.putAll slots members = .ok slots' ↔
      ∀ m ∈ members, m.1.isSome = true ∧ m.2.isWhole = true := by
  induction members with
  | nil =>
    rw [putAll]
    exact iff_of_true rfl (List.forall_mem_nil _)
  | cons m members ih =>
    obtain ⟨key, value⟩ := m
    cases key with
    | none => simp [putAll]
    | some key =>
      rw [putAll, put?, List.forall_mem_cons, ← ih]
      cases value.isWhole <;> simp

/-- **The members of each name are taken on their own.** -/
theorem putAll_beside_eq_ok_iff :
    (cons field rest).putAll (beside slot others) members = .ok (beside slot' others') ↔
      field.Fills slot (valuesOf field.name members) slot' ∧
        rest.putAll others (without field.name members) = .ok others' := by
  induction members generalizing slot others with
  | nil =>
    rw [putAll, Except.ok.injEq, beside_inj, valuesOf, List.filter_nil, List.map_nil,
      Field.fills_nil, without, List.filter_nil, putAll, Except.ok.injEq, eq_comm]
  | cons m members ih =>
    obtain ⟨key, value⟩ := m
    cases key with
    | none =>
      rw [without_cons_of_ne (by simp), putAll, putAll]
      simp
    | some key =>
      rw [putAll]
      by_cases hkey : key = field.name
      · subst hkey
        rw [valuesOf_cons_self, without_cons_self]
        cases slot with
        | some x => simp [put?_some_self, Field.not_fills_some_cons]
        | none =>
          rw [put?_none_self, Field.fills_none_cons]
          cases hread : field.reader value with
          | error e => simp
          | ok x => simpa using ih
      -- A name that is not the first field's: another field takes the member, or none does and it
      -- has to be whole.
      · have hne : some key ≠ some field.name := by simpa using hkey
        rw [valuesOf_cons_of_ne hne, without_cons_of_ne hne, put?_of_ne hkey, putAll]
        cases hput : rest.put? others key value with
        | error e => simp
        | ok found =>
          cases found with
          | some others'' => simpa using ih
          | none =>
            cases value.isWhole with
            | true => simpa using ih
            | false => simp

/-- The items of a list are taken by the fields in their order. -/
theorem ofItems_cons_eq_ok_iff {short : ℕ → Error} {index : ℕ} {item : Json}
    {items left : List Json} {x : α} {y : β} :
    (cons field rest).ofItems short index (item :: items) = .ok ((x, y), left) ↔
      field.reader item = .ok x ∧ rest.ofItems short (index + 1) items = .ok (y, left) := by
  show (field.reader item >>= fun x' => rest.ofItems short (index + 1) items >>= fun p =>
    pure ((x', p.1), p.2)) = _ ↔ _
  simp

/-- **Reading an object** gives the record that its members describe, and none if there is none. -/
theorem ofMembers_eq_ok_iff {form : Form α} {x : α} :
    form.ofMembers members true = .ok x ↔ form.Describes members x := by
  have hslots : form.ofMembers members true = .ok x ↔
      ∃ slots, form.putAll form.empty members = .ok slots ∧ form.finish slots = .ok x := by
    rw [ofMembers, Except.bind_eq_ok_iff]
    rfl
  rw [hslots]
  clear hslots
  -- The other fields see only the members that are left, so these change along the induction.
  induction form generalizing members with
  | nil =>
    rw [Describes, ← @putAll_nil_eq_ok_iff members () ()]
    constructor
    · rintro ⟨slots, hput, -⟩
      exact hput
    · exact fun hput => ⟨(), hput, rfl⟩
  | cons field rest ih =>
    obtain ⟨x, y⟩ := x
    have hput : ∀ slot others, (cons field rest).putAll (cons field rest).empty members =
        .ok (beside slot others) ↔ field.Fills none (valuesOf field.name members) slot ∧
          rest.putAll rest.empty (without field.name members) = .ok others :=
      fun slot others => putAll_beside_eq_ok_iff
    rw [exists_slots_iff, Describes]
    refine Iff.trans ?_ (and_congr Field.exists_fills_iff ih)
    simp only [hput, finish_beside_eq_ok_iff]
    constructor
    · rintro ⟨slot, others, ⟨hfills, hothers⟩, hfill, hfinish⟩
      exact ⟨⟨slot, hfills, hfill⟩, others, hothers, hfinish⟩
    · rintro ⟨⟨slot, hfills, hfill⟩, others, hothers, hfinish⟩
      exact ⟨slot, others, ⟨hfills, hothers⟩, hfill, hfinish⟩

end Form

/-! ### Writing and reading back -/

/-- Whether what a field writes gives its value back and has a property. -/
structure Field.Lossless {α : Type} (p : Json → Prop) (field : Field α) : Prop where
  takes_write : ∀ x, field.Takes (field.write x).toList x
  of_mem_write : ∀ x, ∀ j ∈ field.write x, p j

namespace Form

variable {α : Type}

/-- The names of the fields. -/
def names {α : Type} : Form α → List String
  | .nil => []
  | .cons field rest => field.name :: rest.names

/-- Whether every field writes what gives its value back and has a property, under a name of its
own. -/
def Lossless {α : Type} (p : Json → Prop) : Form α → Prop
  | .nil => True
  | .cons field rest => field.Lossless p ∧ field.name ∉ rest.names ∧ rest.Lossless p

/-- What is written has the name of a field and the property that the fields write with. -/
theorem Lossless.of_mem_write {p : Json → Prop} {form : Form α} (h : form.Lossless p) {x : α}
    {m : String × Json} (hm : m ∈ form.write x) : m.1 ∈ form.names ∧ p m.2 := by
  induction form with
  | nil => simp [write] at hm
  | cons field rest ih =>
    obtain ⟨x, y⟩ := x
    obtain ⟨hfield, -, hrest⟩ := h
    rw [write] at hm
    rw [names, List.mem_cons]
    cases hwrite : field.write x with
    | none =>
      rw [hwrite] at hm
      exact (ih hrest hm).imp_left Or.inr
    | some j =>
      rw [hwrite] at hm
      rcases List.mem_cons.mp hm with rfl | hm
      · exact ⟨Or.inl rfl, hfield.of_mem_write x j hwrite⟩
      · exact (ih hrest hm).imp_left Or.inr

end Form

/-- Members as they stand in an object. -/
def keyed (members : List (String × Json)) : List (Option String × Json) :=
  members.map fun m => (some m.1, m.2)

theorem valuesOf_keyed_eq_nil {name : String} {members : List (String × Json)}
    (h : ∀ m ∈ members, m.1 ≠ name) : valuesOf name (keyed members) = [] := by
  rw [valuesOf, List.map_eq_nil_iff, List.filter_eq_nil_iff]
  intro m' hm'
  obtain ⟨m, hm, rfl⟩ := List.mem_map.mp hm'
  simpa using h m hm

theorem without_keyed_eq_self {name : String} {members : List (String × Json)}
    (h : ∀ m ∈ members, m.1 ≠ name) : without name (keyed members) = keyed members := by
  rw [without, List.filter_eq_self]
  intro m' hm'
  obtain ⟨m, hm, rfl⟩ := List.mem_map.mp hm'
  simpa using h m hm

/-- **What a record is written with describes it.** -/
theorem Form.describes_write {α : Type} {p : Json → Prop} {form : Form α} (h : form.Lossless p)
    (x : α) :
    form.Describes (keyed (form.write x)) x := by
  induction form with
  | nil => exact List.forall_mem_nil _
  | cons field rest ih =>
    obtain ⟨x, y⟩ := x
    obtain ⟨hfield, hname, hrest⟩ := h
    have hne : ∀ m ∈ rest.write y, m.1 ≠ field.name := by
      intro m hm heq
      exact hname (heq ▸ (hrest.of_mem_write hm).1)
    have hvalue := hfield.takes_write x
    rw [Describes, write]
    cases hwrite : field.write x with
    | none =>
      rw [hwrite] at hvalue
      rw [valuesOf_keyed_eq_nil hne, without_keyed_eq_self hne]
      exact ⟨hvalue, ih hrest y⟩
    | some j =>
      rw [hwrite] at hvalue
      rw [keyed, List.map_cons, valuesOf_cons_self, without_cons_self, ← keyed,
        valuesOf_keyed_eq_nil hne, without_keyed_eq_self hne]
      exact ⟨hvalue, ih hrest y⟩

/-! ### Values that are read back -/

/-- **Whether what is written is a document that is read back.** -/
structure ReadsBack {α : Type} (write : α → Json) (reader : Reader α) : Prop where
  proper : ∀ x, (write x).Proper
  reader_write : ∀ x, reader (write x) = .ok x

namespace RecordForm

variable {ρ α : Type} {record : RecordForm ρ α} {p : Json → Prop}

/-- Whether a record is made of its fields again, and these are read back. -/
structure Lossless (p : Json → Prop) (record : RecordForm ρ α) : Prop where
  form_lossless : record.form.Lossless p
  ofTuple_toTuple : ∀ x, record.ofTuple (record.toTuple x) = x

namespace Lossless

/-- **The members of a record are read as that record.** -/
theorem ofMembers_members (h : record.Lossless p) (x : ρ) :
    record.ofMembers (keyed (record.members x)) true = .ok x := by
  have hread := Form.ofMembers_eq_ok_iff.mpr
    (Form.describes_write h.form_lossless (record.toTuple x))
  rw [ofMembers, members, hread]
  exact congrArg Except.ok (h.ofTuple_toTuple x)

theorem readsBack (h : record.Lossless p) (hp : ∀ j, p j → j.Proper) :
    ReadsBack record.toJson record.reader where
  proper x := by
    rw [toJson, proper_ofMembers_iff]
    exact fun m hm => hp m.2 (h.form_lossless.of_mem_write hm).2
  reader_write x := h.ofMembers_members x

end Lossless

end RecordForm

/-- **Whether reading undoes writing**, with blanks or without them, and writing what was read
changes the text at most once. -/
def RoundTrips {α : Type} (write : α → Json) (reader : Reader α) : Prop :=
  (∀ x, read reader (write x).compact = .ok x ∧ read reader ((write x).pretty 0) = .ok x) ∧
    ∀ text text', (fun x => (write x).compact) <$> read reader text = .ok text' →
      read reader text' = read reader text ∧
        (fun x => (write x).compact) <$> read reader text' = .ok text'

namespace ReadsBack

variable {α : Type} {write : α → Json} {reader : Reader α}

/-- Every text that spells what was written is read back. -/
theorem read_eq (h : ReadsBack write reader) {x : α} {cs : List Char} (hcs : (write x).Spells cs) :
    read reader cs = .ok x :=
  read_eq_ok_iff.mpr ⟨write x, h.proper x, hcs, h.reader_write x⟩

/-- **What is read back as a document is read back as a text.** -/
theorem roundTrips (h : ReadsBack write reader) : RoundTrips write reader := by
  have hcompact : ∀ x, read reader (write x).compact = .ok x :=
    fun x => h.read_eq (spells_compact (h.proper x))
  refine ⟨fun x => ⟨hcompact x, h.read_eq (spells_pretty (h.proper x) 0)⟩, ?_⟩
  intro text text' htext
  obtain ⟨x, hx, rfl⟩ := Except.map_eq_ok_iff.mp htext
  rw [hcompact x, hx]
  exact ⟨rfl, rfl⟩

end ReadsBack

end Daybook.Json
