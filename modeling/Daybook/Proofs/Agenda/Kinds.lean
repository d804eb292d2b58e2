import Mathlib
import Daybook.Agenda.Json
import Daybook.Proofs.Agenda.RoundTrip
import Daybook.Proofs.Json.Members

/-!
# Entries are records that tell their kind

The kind is looked for while the other members are only kept (`findKind_eq_ok_iff`), and the record
is read from what was kept.  No field of a record is called like the kind, so this gives the same
record as reading the object itself would, where the kind is one more unknown member: an object is
read as an entry exactly if it is read as the record inside, one member tells the kind of that
record, and the others can be kept (`reader_object_eq_ok_iff`).

`record_of_entry` says of texts that the record is read from the very text that is read as the
entry.
-/

namespace Daybook

open Json (valuesOf without)

/-! ### Objects as texts -/

/-- A text with a brace in front is that of an object. -/
theorem Json.Spells.exists_object {j : Json} {text : List Char} (hj : j.Proper)
    (htext : j.Spells text) (hbrace : (text.dropWhile isSpace).head? = some '\x7b') :
    ∃ members, j = .object members true := by
  obtain ⟨t, ts, htokens, -⟩ := hj.exists_cons
  unfold Spells at htext
  rw [htokens] at htext
  obtain ⟨rest, hnext, -⟩ := htext.next_eq
  -- The first token is the brace, and only an object has it in front.
  have ht : t = .openObject := by
    obtain ⟨tail, htail⟩ := List.head?_eq_some_iff.mp hbrace
    unfold next at hnext
    rw [htail] at hnext
    exact (Next.token.inj hnext).1.symm
  subst ht
  cases hj with
  | object h => exact ⟨_, rfl⟩
  | array h =>
    rename_i items
    cases items <;> simp [tokens] at htokens
  | _ => simp [tokens] at htokens

theorem Json.stringAs_eq_ok_iff {expected s : String} {j : Json} :
    stringAs expected j = .ok s ↔ j = .ofString s := by
  constructor
  · intro h
    unfold stringAs at h
    split at h
    · exact congrArg ofString (Except.ok.inj h)
    · cases h
  · rintro rfl
    rfl

namespace Entry

/-! ### The kind -/

/-- The member that tells the kind, as a field of its own. -/
def kindField : Json.Field Kind :=
  .required kindKey Kind.reader fun kind => .ofString kind.name

theorem Kind.reader_eq_ok_iff {j : Json} {kind : Kind} :
    Kind.reader j = .ok kind ↔ j = .ofString kind.name := by
  constructor
  · intro h
    obtain ⟨name, hname, h⟩ := Except.bind_eq_ok_iff.mp h
    rw [Json.stringAs_eq_ok_iff.mp hname]
    split_ifs at h with hactivity hplan
    · obtain rfl := Except.pure_eq_ok_iff.mp h
      rw [hactivity]
    · obtain rfl := Except.pure_eq_ok_iff.mp h
      rw [hplan]
  · rintro rfl
    exact Kind.reader_name kind

/-- **The kind is found** if it is told once, and everything beside it can be kept. -/
theorem findKind_eq_ok_iff {found found' : Option Kind} {members : List (Option String × Json)} :
    findKind found members = .ok found' ↔
      kindField.Fills found (valuesOf kindKey members) found' ∧
        ∀ m ∈ without kindKey members,
          m.1.isSome = true ∧ m.2.keepable (maxDepth - 1) = true := by
  induction members generalizing found with
  | nil =>
    unfold findKind valuesOf without
    rw [Except.ok.injEq, List.filter_nil, List.map_nil, Json.Field.fills_nil, List.filter_nil,
      eq_comm]
    exact (and_iff_left (List.forall_mem_nil _)).symm
  | cons m members ih =>
    obtain ⟨key, value⟩ := m
    cases key with
    | none =>
      rw [Json.without_cons_of_ne (by simp), findKind]
      simp
    | some key =>
      unfold findKind
      by_cases hkey : key = kindKey
      · subst hkey
        rw [if_pos rfl, Json.valuesOf_cons_self, Json.without_cons_self]
        cases found with
        | some kind => simp [Json.Field.not_fills_some_cons]
        | none =>
          rw [Json.Field.fills_none_cons]
          show _ ↔ (∃ kind, Kind.reader value = .ok kind ∧ _) ∧ _
          cases hread : Kind.reader value with
          | error e => simp
          | ok kind => simpa using ih
      · have hne : some key ≠ some kindKey := by simpa using hkey
        rw [if_neg hkey, Json.valuesOf_cons_of_ne hne, Json.without_cons_of_ne hne]
        cases hkeep : value.keepable (maxDepth - 1) with
        | true => simpa [hkeep] using ih
        | false => simp [hkeep]

/-! ### The record -/

/-- **Whether the record inside an entry is read from a document.** -/
def ReadsFrom (j : Json) : Entry → Prop
  | .activity a => Activity.form.reader j = .ok a
  | .plan p => Plan.form.reader j = .ok p

/-- The kind is a text, so it does no harm as a member that no field asks for. -/
theorem ofMembers_withoutKind_iff {ρ α : Type} {record : Json.RecordForm ρ α} {x : ρ} {kind : Kind}
    {members : List (Option String × Json)} (hname : kindKey ∉ record.form.names)
    (hkind : valuesOf kindKey members = [.ofString kind.name]) :
    record.ofMembers (withoutKind members) true = .ok x ↔
      record.reader (.object members true) = .ok x := by
  refine Json.RecordForm.reader_without_iff hname fun value hvalue => ?_
  rw [hkind, List.mem_singleton] at hvalue
  rw [hvalue]
  rfl

/-- **An object is an entry** if it is the record of its kind, tells the kind once, and all the rest
of it can be kept. -/
theorem reader_object_eq_ok_iff {members : List (Option String × Json)} {e : Entry} :
    reader (.object members true) = .ok e ↔
      valuesOf kindKey members = [.ofString e.kind.name] ∧
        (∀ m ∈ without kindKey members,
          m.1.isSome = true ∧ m.2.keepable (maxDepth - 1) = true) ∧
        e.ReadsFrom (.object members true) := by
  constructor
  · intro h
    unfold reader at h
    obtain ⟨found, hfound, h⟩ := Except.bind_eq_ok_iff.mp h
    obtain ⟨⟨-, rfl⟩ | ⟨-, _, kind, hvalues, hkind, rfl⟩, hkept⟩ := findKind_eq_ok_iff.mp hfound
    · cases h
    · rw [Kind.reader_eq_ok_iff.mp hkind] at hvalues
      cases kind with
      | activity =>
        obtain ⟨a, ha, rfl⟩ := Except.map_eq_ok_iff.mp h
        exact ⟨hvalues, hkept, (ofMembers_withoutKind_iff (by decide) hvalues).mp ha⟩
      | plan =>
        obtain ⟨p, hp, rfl⟩ := Except.map_eq_ok_iff.mp h
        exact ⟨hvalues, hkept, (ofMembers_withoutKind_iff (by decide) hvalues).mp hp⟩
  · rintro ⟨hvalues, hkept, hrecord⟩
    have hfound : findKind none members = .ok (some e.kind) :=
      findKind_eq_ok_iff.mpr
        ⟨Or.inr ⟨rfl, _, e.kind, hvalues, Kind.reader_name e.kind, rfl⟩, hkept⟩
    refine Except.bind_eq_ok hfound ?_
    cases e with
    | activity a =>
      apply Except.map_eq_ok_iff.mpr
      exact ⟨a, (ofMembers_withoutKind_iff (by decide) hvalues).mpr hrecord, rfl⟩
    | plan p =>
      apply Except.map_eq_ok_iff.mpr
      exact ⟨p, (ofMembers_withoutKind_iff (by decide) hvalues).mpr hrecord, rfl⟩

/-- **The record inside an entry is read from the same text**, if the text is that of an object. -/
theorem record_of_entry (text : List Char)
    (hbrace : (text.dropWhile Json.isSpace).head? = some '\x7b') :
    (∀ a, Json.read reader text = .ok (.activity a) →
      Json.read Activity.form.reader text = .ok a) ∧
    ∀ p, Json.read reader text = .ok (.plan p) → Json.read Plan.form.reader text = .ok p := by
  have hrecord : ∀ e, Json.read reader text = .ok e →
      ∃ j, j.Proper ∧ j.Spells text ∧ e.ReadsFrom j := by
    intro e hread
    obtain ⟨j, hj, htext, hentry⟩ := Json.read_eq_ok_iff.mp hread
    obtain ⟨members, rfl⟩ := htext.exists_object hj hbrace
    exact ⟨_, hj, htext, (reader_object_eq_ok_iff.mp hentry).2.2⟩
  constructor
  · intro a hread
    obtain ⟨j, hj, htext, ha⟩ := hrecord _ hread
    exact Json.read_eq_ok_iff.mpr ⟨j, hj, htext, ha⟩
  · intro p hread
    obtain ⟨j, hj, htext, hp⟩ := hrecord _ hread
    exact Json.read_eq_ok_iff.mpr ⟨j, hj, htext, hp⟩

/-- Work whose kind stands in the middle of the object, behind a member that no field asks for. -/
theorem record_of_entry_kind_inside :
    let work : Activity := ⟨⟨1, by decide⟩, ⟨2, by decide⟩, "", .ofSeconds 0 (by decide),
      .ofSeconds 60 (by decide), false, "late"⟩
    let document : Json := .ofMembers
      [("note", .ofString "late"), ("tags", .ofList [.null, .ofMembers []]),
        ("time_end", .ofString "1970-01-01T00:01:00Z"), ("task_id", .ofInt 2),
        ("kind", .ofString "activity"), ("time_start", .ofString "1970-01-01T00:00:00Z"),
        ("id", .ofInt 1)]
    let text := document.pretty 0
    (text.dropWhile Json.isSpace).head? = some '\x7b' ∧
      Json.read reader text = .ok (.activity work) ∧
      Json.read Activity.form.reader text = .ok work := by
  intro work document text
  have hproper : document.Proper := by
    rw [Json.proper_ofMembers_iff]
    simp [Json.proper_ofInt, Json.Proper.string, Json.proper_ofList_iff, Json.Proper.null,
      Json.proper_ofMembers_iff, Json.ofString]
  have hread : Json.read reader text = .ok (.activity work) :=
    Json.read_eq_ok_iff.mpr ⟨document, hproper, Json.spells_pretty hproper 0, rfl⟩
  have hbrace : (text.dropWhile Json.isSpace).head? = some '\x7b' := rfl
  exact ⟨hbrace, hread, (record_of_entry text hbrace).1 work hread⟩

end Entry

end Daybook
