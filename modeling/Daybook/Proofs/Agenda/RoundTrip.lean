import Mathlib
import Daybook.Agenda.Json
import Daybook.Proofs.Calendar.InstantText
import Daybook.Proofs.Json.Values

/-!
# Agendas are read as they are written

Ids and instants are read back (`Id.readsBack`, `Instant.readsBack`), and so are the fields made of
them, with a default or without one.  Then the records are read back, since no two of their fields
share a name.

An entry is read by its kind.  All that it writes are leaves (`Json.Leaf`), which can be kept until
the kind is known, and no field is called like the kind; what is left without the kind is the
record.  `Agenda.records_round_trip` says all of this of texts.
-/

namespace Daybook

open Json (Field Form RecordForm Reader ReadsBack RoundTrips)

/-! ### Leaves -/

/-- **A value without parts**: a text, a truth value or a number of 64 bits. -/
inductive Json.Leaf : Json → Prop where
  | text (s : String) : Leaf (.ofString s)
  | boolean (b : Bool) : Leaf (.bool b)
  | int64 (n : Int64) : Leaf (.ofInt n.toInt)

namespace Json.Leaf

variable {j : Json}

theorem proper (h : j.Leaf) : j.Proper := by
  cases h with
  | text s => exact readsBack_text.proper s
  | boolean b => exact readsBack_boolean.proper b
  | int64 n => exact readsBack_int64.proper n

/-- A leaf is not nested at all. -/
theorem keepable (h : j.Leaf) (depth : ℕ) : j.keepable depth = true := by
  cases h with
  | text s => rfl
  | boolean b => rfl
  | int64 n =>
    rw [ofInt, Json.keepable, Number.numeral?_ofInt]
    rfl

theorem ne_null (h : j.Leaf) : j ≠ .null := by
  cases h <;> rintro ⟨⟩

end Json.Leaf

theorem Id.leaf_toJson {of : Numbered} (id : Id of) : id.toJson.Leaf :=
  .int64 id.number

theorem Instant.leaf_toJson (t : Instant) : t.toJson.Leaf :=
  .text _

/-- **An id is read back.** -/
theorem Id.readsBack (of : Numbered) : ReadsBack Id.toJson (Id.reader of) where
  proper id := id.leaf_toJson.proper
  reader_write id := by
    refine Except.bind_eq_ok (Json.readsBack_int64.reader_write id.number) ?_
    rw [Except.mapError_eq_ok_iff, ofNumber, dif_pos id.positive]

/-- **An instant is read back.** -/
theorem Instant.readsBack : ReadsBack Instant.toJson Instant.reader where
  proper t := t.leaf_toJson.proper
  reader_write t := by
    refine Except.bind_eq_ok ((Json.readsBack_stringAs _).reader_write _) ?_
    rw [Except.mapError_eq_ok_iff, String.toList_ofList, t.ofText_text]

/-! ### Fields -/

namespace Json.Field

variable {α : Type} {p : Json → Prop} {name : String} {write : α → Json} {reader : Reader α}

theorem lossless_required (h : ReadsBack write reader) (hp : ∀ x, p (write x)) :
    (required name reader write).Lossless p where
  takes_write x := Or.inr ⟨write x, rfl, h.reader_write x⟩
  of_mem_write x _ hj := Option.some.inj hj ▸ hp x

theorem lossless_defaulted (h : ReadsBack write reader) (hp : ∀ x, p (write x)) (absent : α) :
    (defaulted name absent reader write).Lossless p where
  takes_write x := Or.inr ⟨write x, rfl, h.reader_write x⟩
  of_mem_write x _ hj := Option.some.inj hj ▸ hp x

theorem lossless_text : (text name).Lossless Leaf :=
  lossless_defaulted readsBack_text .text ""

/-- A field that is left out is absent, and what is written is not mistaken for `null`. -/
theorem lossless_optional (h : ReadsBack write reader) (hleaf : ∀ x, (write x).Leaf) :
    (optional name reader write).Lossless Leaf where
  takes_write x := by
    cases x with
    | none => exact Or.inl ⟨rfl, rfl⟩
    | some x =>
      refine Or.inr ⟨write x, rfl, ?_⟩
      show Json.optional reader (write x) = _
      rw [Json.optional, h.reader_write]
      · rfl
      · exact (hleaf x).ne_null
  of_mem_write x j hj := by
    obtain ⟨y, -, rfl⟩ := Option.map_eq_some_iff.mp hj
    exact hleaf y

end Json.Field

/-! ### Records -/

theorem Task.lossless_form : Task.form.Lossless Json.Leaf where
  form_lossless :=
    ⟨Field.lossless_required (Id.readsBack .task) Id.leaf_toJson, by decide,
      Field.lossless_required Json.readsBack_text .text, by decide,
      Field.lossless_text, by decide,
      Field.lossless_optional Instant.readsBack Instant.leaf_toJson, by decide,
      Field.lossless_optional Instant.readsBack Instant.leaf_toJson, by decide, trivial⟩
  ofTuple_toTuple _ := rfl

theorem Activity.lossless_form : Activity.form.Lossless Json.Leaf where
  form_lossless :=
    ⟨Field.lossless_required (Id.readsBack .activity) Id.leaf_toJson, by decide,
      Field.lossless_required (Id.readsBack .task) Id.leaf_toJson, by decide,
      Field.lossless_text, by decide,
      Field.lossless_required Instant.readsBack Instant.leaf_toJson, by decide,
      Field.lossless_required Instant.readsBack Instant.leaf_toJson, by decide,
      Field.lossless_defaulted Json.readsBack_boolean .boolean false, by decide,
      Field.lossless_text, by decide, trivial⟩
  ofTuple_toTuple _ := rfl

theorem Plan.lossless_form : Plan.form.Lossless Json.Leaf where
  form_lossless :=
    ⟨Field.lossless_required (Id.readsBack .plan) Id.leaf_toJson, by decide,
      Field.lossless_required (Id.readsBack .task) Id.leaf_toJson, by decide,
      Field.lossless_optional (Id.readsBack .activity) Id.leaf_toJson, by decide,
      Field.lossless_text, by decide,
      Field.lossless_required Instant.readsBack Instant.leaf_toJson, by decide,
      Field.lossless_required Instant.readsBack Instant.leaf_toJson, by decide,
      Field.lossless_optional Json.readsBack_int64 .int64, by decide,
      Field.lossless_optional Json.readsBack_int64 .int64, by decide, trivial⟩
  ofTuple_toTuple _ := rfl

theorem Task.readsBack : ReadsBack Task.form.toJson Task.form.reader :=
  Task.lossless_form.readsBack fun _ => Json.Leaf.proper

theorem Activity.readsBack : ReadsBack Activity.form.toJson Activity.form.reader :=
  Activity.lossless_form.readsBack fun _ => Json.Leaf.proper

theorem Plan.readsBack : ReadsBack Plan.form.toJson Plan.form.reader :=
  Plan.lossless_form.readsBack fun _ => Json.Leaf.proper

/-- The lists of an agenda are read back because their items are. -/
theorem Agenda.readsBack : ReadsBack Agenda.form.toJson Agenda.form.reader :=
  have htasks := Task.readsBack.listOf
  have hactivities := Activity.readsBack.listOf
  have hplans := Plan.readsBack.listOf
  RecordForm.Lossless.readsBack
    { form_lossless :=
        ⟨Field.lossless_defaulted htasks htasks.proper [], by decide,
          Field.lossless_defaulted hactivities hactivities.proper [], by decide,
          Field.lossless_defaulted hplans hplans.proper [], by decide, trivial⟩
      ofTuple_toTuple := fun _ => rfl } fun _ => id

/-! ### Entries -/

namespace Entry

open Json (keyed)

/-- The other members are passed over on the way to the kind. -/
theorem findKind_keyed {kind : Kind} {members : List (String × Json)}
    (h : ∀ m ∈ members, m.1 ≠ kindKey ∧ m.2.Leaf) :
    findKind (some kind) (keyed members) = .ok (some kind) := by
  induction members with
  | nil => rfl
  | cons m members ih =>
    obtain ⟨⟨hkey, hleaf⟩, hrest⟩ := List.forall_mem_cons.mp h
    rw [keyed, List.map_cons, findKind, if_neg hkey, if_pos (hleaf.keepable _)]
    exact ih hrest

theorem Kind.reader_name (kind : Kind) : Kind.reader (.ofString kind.name) = .ok kind := by
  cases kind <;> rfl

/-- **A record behind its kind** gives the kind, and the record again without it. -/
theorem reads_behind_kind {ρ α : Type} {record : RecordForm ρ α} (h : record.Lossless Json.Leaf)
    (hname : kindKey ∉ record.form.names) (kind : Kind) (x : ρ) :
    findKind none (keyed ((kindKey, .ofString kind.name) :: record.members x)) = .ok (some kind) ∧
      record.ofMembers
          (withoutKind (keyed ((kindKey, .ofString kind.name) :: record.members x))) true =
        .ok x := by
  -- The record writes no second kind, and nothing that could not be kept until the kind is known.
  have hmembers : ∀ m ∈ record.members x, m.1 ≠ kindKey ∧ m.2.Leaf := by
    intro m hm
    obtain ⟨hmem, hleaf⟩ := h.form_lossless.of_mem_write hm
    exact ⟨fun heq => hname (heq ▸ hmem), hleaf⟩
  have hwithout : withoutKind (keyed ((kindKey, .ofString kind.name) :: record.members x)) =
      keyed (record.members x) :=
    Json.without_cons_self.trans (Json.without_keyed_eq_self fun m hm => (hmembers m hm).1)
  constructor
  · rw [keyed, List.map_cons, findKind, if_pos rfl, Kind.reader_name]
    exact findKind_keyed hmembers
  · rw [hwithout]
    exact h.ofMembers_members x

/-- **An entry is read back** as what it is. -/
theorem readsBack : ReadsBack toJson reader where
  proper e := by
    rw [toJson, Json.proper_ofMembers_iff]
    intro m hm
    rcases List.mem_cons.mp hm with rfl | hm
    · exact (Json.Leaf.text _).proper
    · cases e with
      | activity a => exact (Activity.lossless_form.form_lossless.of_mem_write hm).2.proper
      | plan p => exact (Plan.lossless_form.form_lossless.of_mem_write hm).2.proper
  reader_write e := by
    cases e with
    | activity a =>
      obtain ⟨hkind, hrecord⟩ := reads_behind_kind Activity.lossless_form (by decide) .activity a
      refine Except.bind_eq_ok hkind ?_
      exact Except.map_eq_ok_iff.mpr ⟨a, hrecord, rfl⟩
    | plan p =>
      obtain ⟨hkind, hrecord⟩ := reads_behind_kind Plan.lossless_form (by decide) .plan p
      refine Except.bind_eq_ok hkind ?_
      exact Except.map_eq_ok_iff.mpr ⟨p, hrecord, rfl⟩

end Entry

/-! ### Texts -/

/-- **Tasks, activities, plans, entries and agendas are read as they are written.** -/
theorem Agenda.records_round_trip :
    RoundTrips Task.form.toJson Task.form.reader ∧
      RoundTrips Activity.form.toJson Activity.form.reader ∧
      RoundTrips Plan.form.toJson Plan.form.reader ∧
      RoundTrips Entry.toJson Entry.reader ∧
      RoundTrips Agenda.form.toJson Agenda.form.reader :=
  ⟨Task.readsBack.roundTrips, Activity.readsBack.roundTrips, Plan.readsBack.roundTrips,
    Entry.readsBack.roundTrips, Agenda.readsBack.roundTrips⟩

end Daybook
