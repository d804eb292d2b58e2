import Mathlib
import Daybook.Agenda.Json
import Daybook.Proofs.Agenda.RoundTrip
import Daybook.Proofs.Json.Members

/-!
# Agendas that are written by hand

Whoever writes an agenda by hand does not write it as the program does.  Members stand in any order,
what is empty is left out, `null` stands where there is nothing, and there are members that the
program knows nothing of.  `Part.Edit` is one such difference, in any object of the document: the
agenda itself, or a task, an activity or a plan in one of its lists.

No edit changes what the object is read as (`Part.Edit.reader_eq`), so no number of edits does, and
a text that comes from the form of an agenda by edits is read as that agenda (`edited_reads_same`).
-/

namespace Daybook

open Json (valuesOf without)

/-! ### Fields -/

namespace Json.Field

variable {α : Type} {name : String} {reader : Reader α} {write : α → Json} {value : Json}
  {values : List Json}

/-- A default that is written is as good as none. -/
theorem takes_of_default {absent x : α} (hdefault : reader value = .ok absent)
    (h : (defaulted name absent reader write).Takes (value :: values) x) :
    (defaulted name absent reader write).Takes values x := by
  obtain ⟨rfl, hread⟩ := takes_cons_iff.mp h
  rw [takes_nil_iff, ← Except.ok.inj (hdefault.symm.trans hread)]
  rfl

/-- Nothing may be written as `null`. -/
theorem takes_null {x : Option α} (h : (optional name reader write).Takes [] x) :
    (optional name reader write).Takes [.null] x := by
  obtain rfl := Option.some.inj (takes_nil_iff.mp h)
  exact takes_cons_iff.mpr ⟨rfl, rfl⟩

/-- An item of a list may be written in another way. -/
theorem takes_listOf {absent xs : List α} {write : List α → Json} {item item' : Json}
    {before after : List Json} (hitem : ∀ x, reader item = .ok x → reader item' = .ok x)
    (h : (defaulted name absent (Json.listOf reader) write).Takes
      (.ofList (before ++ item :: after) :: values) xs) :
    (defaulted name absent (Json.listOf reader) write).Takes
      (.ofList (before ++ item' :: after) :: values) xs := by
  obtain ⟨rfl, hread⟩ := takes_cons_iff.mp h
  refine takes_cons_iff.mpr ⟨rfl, listOf_eq_ok_iff.mpr ?_⟩
  replace hread := listOf_eq_ok_iff.mp hread
  clear h
  induction before generalizing xs with
  | nil =>
    obtain ⟨x, xs, hx, hxs, rfl⟩ := List.forall₂_cons_left_iff.mp hread
    exact .cons (hitem x hx) hxs
  | cons first before ih =>
    obtain ⟨x, xs, hx, hxs, rfl⟩ := List.forall₂_cons_left_iff.mp hread
    exact .cons hx (ih hxs)

end Json.Field

/-! ### The objects of a document -/

namespace Agenda

/-- **The objects of an agenda's document**: the agenda, and the records in its lists. -/
inductive Part where
  | agenda
  | task
  | activity
  | plan
  deriving DecidableEq

/-- The form of a record, whatever the record is. -/
structure Shape where
  {Value Fields : Type}
  form : Json.RecordForm Value Fields

namespace Part

/-- The form of an object. -/
def shape : Part → Shape
  | .agenda => ⟨Agenda.form⟩
  | .task => ⟨Task.form⟩
  | .activity => ⟨Activity.form⟩
  | .plan => ⟨Plan.form⟩

/-- How an object is read. -/
def reader (part : Part) : Json.Reader part.shape.Value :=
  part.shape.form.reader

/-- The members of an object that may be left out if they have the given values. -/
def defaults : Part → List (String × Json)
  | .agenda => [("tasks", .ofList []), ("activities", .ofList []), ("plans", .ofList [])]
  | .task => [("description", .ofString "")]
  | .activity => [("location", .ofString ""), ("done", .bool false), ("note", .ofString "")]
  | .plan => [("location", .ofString "")]

/-- The names of the members that are not there if there is nothing to say. -/
def optional : Part → List String
  | .agenda => []
  | .task => ["deadline", "due"]
  | .activity => []
  | .plan => ["activity_id", "duration_ge", "duration_lt"]

/-- The members that hold a list of other objects. -/
def lists : Part → List (String × Part)
  | .agenda => [("tasks", .task), ("activities", .activity), ("plans", .plan)]
  | _ => []

/-- The names of all members that mean something. -/
def names (part : Part) : List String :=
  part.shape.form.form.names

/-- **What may be different in a document that is written by hand.**  Members are changed in front
of the others, which is anywhere, since they may be put in any order. -/
inductive Edit : Part → Json → Json → Prop where
  /-- The members stand in another order. -/
  | permute {part : Part} {members members' : List (Option String × Json)}
    (h : members.Perm members') : Edit part (.object members true) (.object members' true)
  /-- A member that has its default is left out. -/
  | leaveOut {part : Part} {key : String} {value : Json} {members : List (Option String × Json)}
    (h : (key, value) ∈ part.defaults) :
    Edit part (.object ((some key, value) :: members) true) (.object members true)
  /-- An optional member that is not there is written as `null`. -/
  | null {part : Part} {key : String} {members : List (Option String × Json)}
    (h : key ∈ part.optional) (habsent : ∀ m ∈ members, m.1 ≠ some key) :
    Edit part (.object members true) (.object ((some key, .null) :: members) true)
  /-- There is a member that means nothing. -/
  | unknown {part : Part} {key : String} {value : Json} {members : List (Option String × Json)}
    (h : key ∉ part.names) (hvalue : value.Proper) :
    Edit part (.object members true) (.object ((some key, value) :: members) true)
  /-- An object in a list is written in another way. -/
  | inside {part inner : Part} {item item' : Json} {members : List (Option String × Json)}
    (key : String) (before after : List Json) (h : (key, inner) ∈ part.lists)
    (hitem : Edit inner item item') :
    Edit part (.object ((some key, .ofList (before ++ item :: after)) :: members) true)
      (.object ((some key, .ofList (before ++ item' :: after)) :: members) true)

variable {part inner : Part} {key : String} {value j j' : Json} {values : List Json}

/-! ### One edit -/

theorem allows_leaveOut (h : (key, value) ∈ part.defaults) :
    part.shape.form.form.Allows key (value :: values) values := by
  cases part <;> simp only [defaults, List.mem_cons, List.not_mem_nil, or_false, Prod.mk.injEq] at h
  case agenda =>
    obtain ⟨rfl, rfl⟩ | ⟨rfl, rfl⟩ | ⟨rfl, rfl⟩ := h <;>
      exact fun _ => Json.Field.takes_of_default rfl
  case task =>
    obtain ⟨rfl, rfl⟩ := h
    exact fun _ => Json.Field.takes_of_default rfl
  case activity =>
    obtain ⟨rfl, rfl⟩ | ⟨rfl, rfl⟩ | ⟨rfl, rfl⟩ := h <;>
      exact fun _ => Json.Field.takes_of_default rfl
  case plan =>
    obtain ⟨rfl, rfl⟩ := h
    exact fun _ => Json.Field.takes_of_default rfl

theorem allows_null (h : key ∈ part.optional) : part.shape.form.form.Allows key [] [.null] := by
  cases part <;> simp only [optional, List.mem_cons, List.not_mem_nil, or_false] at h
  case task =>
    obtain rfl | rfl := h <;> exact fun _ => Json.Field.takes_null
  case plan =>
    obtain rfl | rfl | rfl := h <;> exact fun _ => Json.Field.takes_null

theorem allows_inside {item item' : Json} {before after : List Json}
    (h : (key, inner) ∈ part.lists)
    (hitem : ∀ x, inner.reader item = .ok x → inner.reader item' = .ok x) :
    part.shape.form.form.Allows key (.ofList (before ++ item :: after) :: values)
      (.ofList (before ++ item' :: after) :: values) := by
  cases part <;> simp only [lists, List.mem_cons, List.not_mem_nil, or_false, Prod.mk.injEq] at h
  case agenda =>
    obtain ⟨rfl, rfl⟩ | ⟨rfl, rfl⟩ | ⟨rfl, rfl⟩ := h <;>
      exact fun _ => Json.Field.takes_listOf hitem

/-- **An edit does not change what an object is read as.** -/
theorem Edit.reader_eq (h : Edit part j j') {x : part.shape.Value} (hread : part.reader j = .ok x) :
    part.reader j' = .ok x := by
  induction h with
  | permute hperm => exact Json.RecordForm.reader_of_perm hperm hread
  | leaveOut hdefault =>
    refine Json.RecordForm.reader_of_allows ?_ Json.without_cons_self hread
    rw [Json.valuesOf_cons_self]
    exact allows_leaveOut hdefault
  | null hoptional habsent =>
    refine Json.RecordForm.reader_of_allows ?_ Json.without_cons_self.symm hread
    rw [Json.valuesOf_cons_self, Json.valuesOf_eq_nil_iff.mpr habsent]
    exact allows_null hoptional
  | unknown hkey hvalue =>
    refine Json.RecordForm.reader_of_allows ?_ Json.without_cons_self.symm hread
    rw [Json.valuesOf_cons_self]
    refine Json.Form.allows_of_not_mem_names hkey fun hwhole => ?_
    exact List.forall_mem_cons.mpr ⟨hvalue.isWhole, hwhole⟩
  | inside key before after hlist hitem ih =>
    refine Json.RecordForm.reader_of_allows ?_
      (Json.without_cons_self.trans Json.without_cons_self.symm) hread
    rw [Json.valuesOf_cons_self, Json.valuesOf_cons_self]
    exact allows_inside hlist fun x => ih

/-- A document remains one. -/
theorem Edit.proper (h : Edit part j j') (hj : j.Proper) : j'.Proper := by
  induction h with
  | permute hperm =>
    rw [Json.proper_object_iff] at hj ⊢
    exact fun m hm => hj m (hperm.mem_iff.mpr hm)
  | leaveOut =>
    rw [Json.proper_object_iff] at hj ⊢
    exact (List.forall_mem_cons.mp hj).2
  | null =>
    rw [Json.proper_object_iff] at hj ⊢
    exact List.forall_mem_cons.mpr ⟨.null, hj⟩
  | unknown hkey hvalue =>
    rw [Json.proper_object_iff] at hj ⊢
    exact List.forall_mem_cons.mpr ⟨hvalue, hj⟩
  | inside key before after hlist hitem ih =>
    rw [Json.proper_object_iff] at hj ⊢
    obtain ⟨hitems, hmembers⟩ := List.forall_mem_cons.mp hj
    refine List.forall_mem_cons.mpr ⟨?_, hmembers⟩
    rw [Json.proper_ofList_iff, List.forall_mem_append, List.forall_mem_cons] at hitems ⊢
    exact ⟨hitems.1, ih hitems.2.1, hitems.2.2⟩

end Part

/-! ### Any number of edits -/

/-- **An agenda that is written by hand is read as the one it is meant to be**, whatever was edited
in its document, and however the document is spelled. -/
theorem edited_reads_same (a : Agenda) (j : Json) (text : List Char)
    (hedits : Relation.ReflTransGen (Part.Edit .agenda) (form.toJson a) j)
    (htext : j.Spells text) : Json.read form.reader text = .ok a := by
  have hread : j.Proper ∧ Part.agenda.reader j = .ok a := by
    clear htext
    induction hedits with
    | refl => exact ⟨readsBack.proper a, readsBack.reader_write a⟩
    | tail _ hedit ih => exact ⟨hedit.proper ih.1, hedit.reader_eq ih.2⟩
  exact Json.read_eq_ok_iff.mpr ⟨j, hread.1, htext, hread.2⟩

/-- An agenda whose tasks come last, without the empty list of activities, and with a member that
means nothing.  In the task the due time is written as `null`. -/
theorem edited_reads_same_by_hand :
    let task : Task := ⟨⟨1, by decide⟩, "Count", "", none, none⟩
    let a : Agenda := ⟨[task], [], []⟩
    let j : Json := .ofMembers
      [("note", .ofMembers [("by", .ofString "hand")]), ("plans", .ofList []),
        ("tasks", .ofList [.ofMembers
          [("due", .null), ("id", .ofInt 1), ("quick_title", .ofString "Count"),
            ("description", .ofString "")]])]
    Relation.ReflTransGen (Part.Edit .agenda) (form.toJson a) j ∧ j.Spells (j.pretty 0) ∧
      Json.read form.reader (j.pretty 0) = .ok a := by
  intro task a j
  have htask : Part.Edit .task (Task.form.toJson task)
      (.ofMembers (("due", .null) :: Task.form.members task)) := .null (by decide) (by decide)
  have hnote : (Json.ofMembers [("by", .ofString "hand")]).Proper :=
    Json.proper_ofMembers_iff.mpr (List.forall_mem_singleton.mpr (.string _))
  have hedits : Relation.ReflTransGen (Part.Edit .agenda) (form.toJson a) j :=
    .head (.inside "tasks" [] [] List.mem_cons_self htask) <|
    .head (.permute (List.perm_append_singleton _ [_, _]).symm) <|
    .head (.leaveOut (List.mem_cons_of_mem _ List.mem_cons_self)) <|
    .single (.unknown (by decide) hnote)
  have hproper : j.Proper := by
    simp [j, Json.proper_ofMembers_iff, Json.proper_ofList_iff, Json.proper_ofInt, Json.ofString,
      Json.Proper.string, Json.Proper.null]
  have htext := Json.spells_pretty hproper 0
  exact ⟨hedits, htext, edited_reads_same a j _ hedits htext⟩

end Agenda

end Daybook
