import Mathlib
import Daybook.Proofs.CommandLine.Session
import Daybook.Proofs.Json.Values

/-!
# Boxes in, columns out

Which boxes a text lists is said by the grammar of the text and the members of its objects
(`Packing.Lists`), and these are the boxes that are read from it (`Packing.read_eq_ok_iff_lists`).
If none of them is of negative length, there is a line that tells of their columns and of nothing
else, and the command prints it (`Packing.line_of_listed_boxes`).
-/

namespace Daybook

open Json (valuesOf without)

/-! ### A box as a document -/

/-- **How a box is given**: as an object with one member for each of its two numbers and others of
any kind, in any order, or as a list of the two numbers. -/
inductive Box.GivenBy (b : Box) : Json → Prop where
  | object {members : List (Option String × Json)}
    (hstart : valuesOf "start" members = [.ofInt b.start.toInt])
    (hduration : valuesOf "duration" members = [.ofInt b.duration.toInt])
    (hkeys : ∀ m ∈ members, m.1.isSome = true) : b.GivenBy (.object members true)
  | list : b.GivenBy (.ofList [.ofInt b.start.toInt, .ofInt b.duration.toInt])

namespace Box

theorem ofItems_eq_ok_iff {short : ℕ → Json.Error} {items left : List Json} {b : Box} :
    form.form.ofItems short 0 items = .ok ((b.start, b.duration, ()), left) ↔
      ∃ first second, items = first :: second :: left ∧
        Json.int64 first = .ok b.start ∧ Json.int64 second = .ok b.duration := by
  match items with
  | [] => simp [form, Json.Form.ofItems]
  | [first] => simp [form, Json.Form.ofItems]
  | first :: second :: items =>
    have hleft : (.ok ((), items) : Except Json.Error (Unit × List Json)) = .ok ((), left) ↔
        items = left := by simp
    rw [form, Json.Form.ofItems_cons_eq_ok_iff, Json.Form.ofItems_cons_eq_ok_iff,
      Json.Form.ofItems, hleft]
    constructor
    · rintro ⟨hstart, hduration, rfl⟩
      exact ⟨first, second, rfl, hstart, hduration⟩
    · rintro ⟨_, _, heq, hstart, hduration⟩
      obtain ⟨rfl, rfl, rfl⟩ : _ ∧ _ ∧ _ := by simpa using heq
      exact ⟨hstart, hduration, rfl⟩

/-- The members that give a box are those that its form describes. -/
theorem describes_iff {members : List (Option String × Json)} (hmembers : ∀ m ∈ members, m.2.Proper)
    {b : Box} : form.form.Describes members (b.start, b.duration, ()) ↔
      b.GivenBy (.object members true) := by
  have hvalues : ∀ {name : String}, ∀ value ∈ valuesOf name members, value.Proper := by
    intro name value hvalue
    obtain ⟨m, hm, rfl⟩ := Json.exists_mem_of_mem_valuesOf hvalue
    exact hmembers m hm
  have hother : valuesOf "duration" (without "start" members) = valuesOf "duration" members :=
    Json.valuesOf_without_of_ne (by decide)
  rw [form, Json.Form.Describes, Json.Form.Describes, Json.Form.Describes]
  simp only [hother]
  rw [Json.Field.takes_int64_iff hvalues, Json.Field.takes_int64_iff hvalues]
  constructor
  · rintro ⟨hstart, hduration, hrest⟩
    refine .object hstart hduration fun m hm => ?_
    by_cases hname : m.1 = some "start" ∨ m.1 = some "duration"
    · rcases hname with h | h <;> rw [h] <;> rfl
    · rw [not_or] at hname
      exact (hrest m (Json.mem_without.mpr ⟨Json.mem_without.mpr ⟨hm, hname.1⟩, hname.2⟩)).1
  · -- Other members are of no matter, since documents of the standard are whole.
    rintro (⟨hstart, hduration, hkeys⟩ | _)
    refine ⟨hstart, hduration, fun m hm => ?_⟩
    have hm := (Json.mem_without.mp (Json.mem_without.mp hm).1).1
    exact ⟨hkeys m hm, (hmembers m hm).isWhole⟩

/-- **A box is read from the documents that give it.** -/
theorem reader_eq_ok_iff {j : Json} (hj : j.Proper) {b : Box} :
    form.reader j = .ok b ↔ b.GivenBy j := by
  cases hj with
  | object hmembers =>
    rw [← describes_iff hmembers, ← Json.Form.ofMembers_eq_ok_iff, Json.RecordForm.reader,
      Json.RecordForm.ofMembers, Except.map_eq_ok_iff]
    constructor
    · rintro ⟨⟨start, duration, _⟩, h, rfl⟩
      exact h
    · exact fun h => ⟨_, h, rfl⟩
  | @array items hitems =>
    rw [Json.RecordForm.reader, Except.bind_eq_ok_iff]
    constructor
    · rintro ⟨⟨⟨start, duration, _⟩, left⟩, hread, hleft⟩
      obtain ⟨first, second, rfl, hstart, hduration⟩ :=
        (ofItems_eq_ok_iff (b := ⟨start, duration⟩)).mp hread
      -- Items that are left over are an error.
      cases left with
      | cons item left => cases hleft
      | nil =>
        cases hleft
        rw [(Json.int64_eq_ok_iff (hitems first (by simp))).mp hstart,
          (Json.int64_eq_ok_iff (hitems second (by simp))).mp hduration]
        exact .list
    · rintro (_ | _)
      have hread := fun n : Int64 => Json.readsBack_int64.reader_write n
      exact ⟨_, ofItems_eq_ok_iff.mpr ⟨_, _, rfl, hread b.start, hread b.duration⟩, rfl⟩
  | _ => constructor <;> rintro ⟨⟩

end Box

/-! ### A list of boxes as a text -/

namespace Packing

variable {text : List Char} {boxes : List Box}

/-- **Whether a text lists boxes**: whether it spells a list of documents that give them, one after
the other. -/
def Lists (text : List Char) (boxes : List Box) : Prop :=
  ∃ items, (Json.ofList items).Proper ∧ (Json.ofList items).Spells text ∧
    List.Forall₂ (fun item b => Box.GivenBy b item) items boxes

/-- **The boxes that are read from a text are those that it lists.** -/
theorem read_eq_ok_iff_lists :
    Json.read (Json.listOf Box.form.reader) text = .ok boxes ↔ Lists text boxes := by
  rw [Json.read_eq_ok_iff]
  constructor
  · rintro ⟨j, hj, hspells, hread⟩
    cases hj with
    | @array items hitems =>
      refine ⟨items, .array hitems, hspells, ?_⟩
      have hboxes := (List.forall₂_and_left _ _).mpr ⟨hitems, Json.listOf_eq_ok_iff.mp hread⟩
      exact hboxes.imp fun item b h => (Box.reader_eq_ok_iff h.1).mp h.2
    | _ => cases hread
  · rintro ⟨items, hj, hspells, hgiven⟩
    refine ⟨_, hj, hspells, Json.listOf_eq_ok_iff.mpr ?_⟩
    cases hj with
    | array hitems =>
      have hboxes := (List.forall₂_and_left _ _).mpr ⟨hitems, hgiven⟩
      exact hboxes.imp fun item b h => (Box.reader_eq_ok_iff h.1).mpr h.2

/-! ### Boxes of negative length -/

theorem find?_negative_eq_none_iff :
    (boxes.zipIdx.find? fun (box, _) => box.duration.toInt < 0) = none ↔
      ∀ b ∈ boxes, 0 ≤ b.duration.toInt := by
  rw [List.find?_eq_none]
  constructor
  · intro h b hb
    obtain ⟨i, hi, rfl⟩ := List.mem_iff_getElem.mp hb
    simpa using h (boxes[i], i) (by simp [List.mem_zipIdx_iff_getElem?])
  · rintro h ⟨b, i⟩ hb
    simpa using h b (List.fst_mem_of_mem_zipIdx hb)

/-- What is found is the first box of negative length, with its index. -/
theorem of_find?_negative {b : Box} {i : ℕ}
    (h : (boxes.zipIdx.find? fun (box, _) => box.duration.toInt < 0) = some (b, i)) :
    boxes[i]? = some b ∧ b.duration.toInt < 0 ∧
      ∀ j < i, ∀ b' ∈ boxes[j]?, 0 ≤ b'.duration.toInt := by
  obtain ⟨hneg, k, hk, hget, hbefore⟩ := List.find?_eq_some_iff_getElem.mp h
  rw [List.getElem_zipIdx, Prod.mk.injEq, Nat.zero_add] at hget
  obtain ⟨rfl, rfl⟩ := hget
  refine ⟨List.getElem?_eq_getElem _, by simpa using hneg, fun j hj b' hb' => ?_⟩
  obtain ⟨hlt, rfl⟩ := List.getElem?_eq_some_iff.mp hb'
  simpa using hbefore j hj

/-! ### The line -/

/-- Boxes that are listed are given, if none of them is of negative length. -/
theorem boxesOfText_of_lists (h : Lists text boxes) : boxesOfText text =
    match boxes.zipIdx.find? fun (box, _) => box.duration.toInt < 0 with
    | some (box, index) => .error (.negative index box.duration)
    | none => .ok boxes := by
  rw [boxesOfText, read_eq_ok_iff_lists.mpr h]
  rfl

theorem boxesOfText_eq_ok_iff : boxesOfText text = .ok boxes ↔
    Lists text boxes ∧ ∀ b ∈ boxes, 0 ≤ b.duration.toInt := by
  constructor
  · intro h
    obtain ⟨boxes', hread, -⟩ := Except.bind_eq_ok_iff.mp h
    have hlists := read_eq_ok_iff_lists.mp (Except.mapError_eq_ok_iff.mp hread)
    rw [boxesOfText_of_lists hlists] at h
    split at h
    · cases h
    · next hfind =>
      cases h
      exact ⟨hlists, find?_negative_eq_none_iff.mp hfind⟩
  · rintro ⟨hlists, hpositive⟩
    rw [boxesOfText_of_lists hlists, find?_negative_eq_none_iff.mpr hpositive]

theorem lineOfText_eq_ok_iff {least : Int64} {line : List Char} :
    lineOfText least text = .ok line ↔
      ∃ boxes, Lists text boxes ∧ (∀ b ∈ boxes, 0 ≤ b.duration.toInt) ∧
        line = (pack least boxes).toJson.compact ++ ['\n'] := by
  rw [lineOfText, Except.bind_eq_ok_iff]
  simp only [boxesOfText_eq_ok_iff, Except.pure_eq_ok_iff, and_assoc, @eq_comm _ line]

/-- If boxes are listed, what is wrong is the length of the first that is negative. -/
theorem lineOfText_eq_error_of_lists {least : Int64} {error : ReadError}
    (h : lineOfText least text = .error error) (hlists : Lists text boxes) :
    ∃ i b, boxes[i]? = some b ∧ b.duration.toInt < 0 ∧
      (∀ j < i, ∀ b' ∈ boxes[j]?, 0 ≤ b'.duration.toInt) ∧ error = .negative i b.duration := by
  cases hfind : boxes.zipIdx.find? fun (box, _) => box.duration.toInt < 0 with
  | none =>
    have hline : lineOfText least text = .ok ((pack least boxes).toJson.compact ++ ['\n']) :=
      lineOfText_eq_ok_iff.mpr ⟨boxes, hlists, find?_negative_eq_none_iff.mp hfind, rfl⟩
    cases hline.symm.trans h
  | some found =>
    obtain ⟨b, i⟩ := found
    obtain ⟨hget, hneg, hbefore⟩ := of_find?_negative hfind
    have herror : lineOfText least text = .error (.negative i b.duration) := by
      rw [lineOfText, boxesOfText_of_lists hlists, hfind]
      rfl
    exact ⟨i, b, hget, hneg, hbefore, Except.error.inj (h.symm.trans herror)⟩

/-! ### Reading the line -/

/-- The natural number that a document is. -/
def natural? : Json → Option ℕ
  | .number n =>
    if n = .ofInt (Text.naturalOf n.whole) then some (Text.naturalOf n.whole) else none
  | _ => none

/-- The packing that a document tells of, with the number of columns first. -/
def ofJson? : Json → Option Packing
  | .object [(some "column_count", count), (some "columns", .array columns true)] true => do
    return { count := ← natural? count, columns := ← columns.mapM natural? }
  | _ => none

theorem natural?_ofInt (n : ℕ) : natural? (.ofInt n) = some n := by
  have hvalue : Text.naturalOf (Json.Number.ofInt n).whole = n := Text.naturalOf_natural n
  rw [Json.ofInt, natural?, hvalue, if_pos rfl]

theorem ofJson?_toJson (p : Packing) : ofJson? p.toJson = some p := by
  have hcolumns : (p.columns.map fun (column : ℕ) => Json.ofInt column).mapM natural? =
      some p.columns := by
    induction p.columns with
    | nil => rfl
    | cons column columns ih => simp [natural?_ofInt, ih]
  simp [toJson, Json.ofMembers, Json.ofList, ofJson?, natural?_ofInt, hcolumns]

theorem proper_toJson (p : Packing) : p.toJson.Proper := by
  have hcolumns : (Json.ofList (p.columns.map fun (column : ℕ) => .ofInt column)).Proper := by
    rw [Json.proper_ofList_iff, List.forall_mem_map]
    exact fun column _ => Json.proper_ofInt column
  simpa [toJson, Json.proper_ofMembers_iff, Json.proper_ofInt] using hcolumns

theorem parse_line (p : Packing) :
    Json.parse (p.toJson.compact ++ ['\n']) = { root := p.toJson, ended := true } :=
  p.proper_toJson.parse_line (Json.spells_compact p.proper_toJson)

end Packing

/-! ### The command -/

namespace CommandLine

open Session

variable {m : Type → Type} [Monad m]

/-- **The command prints the line, or nothing but why there is none.** -/
theorem runLayout_eq [LawfulMonad m] {s : Surroundings m} {file : Option String}
    {argument : String} {least : Int64} {text : List Char}
    (hleast : duration argument = .ok least)
    (htext : (layoutInput s file).run = pure (.ok text)) :
    (runLayout s file argument).run = pure
      ((Packing.lineOfText least text).mapError fun error => Outcome.failed error.summary) := by
  have hinput : (layoutInput s file).adapt Failure.failed = pure text := by
    apply ExceptT.ext
    rw [ExceptT.run_adapt, htext, map_pure]
    rfl
  have hperform : performLayout s file argument = silently (ofExcept
      ((Packing.lineOfText least text).mapError fun error => .failed error.summary)) >>= write := by
    unfold performLayout
    rw [hleast, hinput, silently_pure, silently_ofExcept]
    show (pure least >>= fun least => pure text >>= writeLayout least : Session m Unit) = _
    rw [pure_bind, pure_bind]
    rfl
  unfold runLayout
  rw [hperform, captured_silently_bind_write, ExceptT.run_adapt]
  cases Packing.lineOfText least text <;> exact map_pure ..

end CommandLine

/-! ### Boxes in, columns out -/

namespace Packing

/-- **The columns of the boxes that a text lists.**  There is a line if and only if the text lists
boxes none of which is of negative length.  It is one line, and what is read from it are the columns
of these boxes.  Otherwise nothing is printed, and if the text lists boxes, the error names the
first of negative length. -/
theorem line_of_listed_boxes (least : Int64) (text : List Char) :
    ((∃ line, lineOfText least text = .ok line) ↔
      ∃ boxes, Lists text boxes ∧ ∀ b ∈ boxes, 0 ≤ b.duration.toInt) ∧
    (∀ boxes, Lists text boxes → (∀ b ∈ boxes, 0 ≤ b.duration.toInt) →
      ∃ row, lineOfText least text = .ok (row ++ ['\n']) ∧ '\n' ∉ row ∧
        (Json.parse (row ++ ['\n'])).ended = true ∧
        ofJson? (Json.parse (row ++ ['\n'])).root = some (pack least boxes)) ∧
    (∀ error, lineOfText least text = .error error → ∀ boxes, Lists text boxes →
      ∃ i b, boxes[i]? = some b ∧ b.duration.toInt < 0 ∧
        (∀ j < i, ∀ b' ∈ boxes[j]?, 0 ≤ b'.duration.toInt) ∧
        error = .negative i b.duration ∧
        error.message =
          s!"box {Text.showNat i} has negative duration {Text.showInt b.duration.toInt}") ∧
    ∀ (m : Type → Type) [Monad m] [LawfulMonad m] (s : Surroundings m) (file : Option String)
      (argument : String), CommandLine.duration argument = .ok least →
      (CommandLine.layoutInput s file).run = pure (.ok text) →
      (∀ line, lineOfText least text = .ok line →
        (CommandLine.runLayout s file argument).run = pure (.ok line)) ∧
      ∀ error, lineOfText least text = .error error →
        ∃ outcome : Outcome, (CommandLine.runLayout s file argument).run = pure (.error outcome) ∧
          outcome = .failed error.summary ∧ outcome.output = [] := by
  refine ⟨?_, ?_, ?_, ?_⟩
  · simp only [lineOfText_eq_ok_iff]
    constructor
    · rintro ⟨_, boxes, hlists, hpositive, -⟩
      exact ⟨boxes, hlists, hpositive⟩
    · rintro ⟨boxes, hlists, hpositive⟩
      exact ⟨_, boxes, hlists, hpositive, rfl⟩
  · intro boxes hlists hpositive
    have hone := Json.onOneLine_compact (pack least boxes).proper_toJson
    refine ⟨_, lineOfText_eq_ok_iff.mpr ⟨boxes, hlists, hpositive, rfl⟩, ?_, ?_, ?_⟩
    · exact fun hfeed => absurd (hone '\n' hfeed) (by decide)
    · rw [parse_line]
    · rw [parse_line, ofJson?_toJson]
  · intro error herror boxes hlists
    obtain ⟨i, b, hget, hneg, hbefore, rfl⟩ := lineOfText_eq_error_of_lists herror hlists
    exact ⟨i, b, hget, hneg, hbefore, rfl, rfl⟩
  · intro m _ _ s file argument hleast htext
    have hrun := CommandLine.runLayout_eq hleast htext
    constructor
    · intro line hline
      rw [hrun, hline]
      rfl
    · intro error herror
      refine ⟨.failed error.summary, ?_, rfl, rfl⟩
      rw [hrun, herror]
      rfl

/-- Three boxes, two given as objects and one as a list, the last with a member of another name. -/
theorem line_of_listed_boxes_mixed :
    let text := Json.compact (.ofList
      [.ofMembers [("duration", .ofInt 1), ("start", .ofInt 0)], .ofList [.ofInt 1, .ofInt 2],
        .ofMembers [("start", .ofInt 2), ("note", .null), ("duration", .ofInt 2)]])
    let boxes : List Box := [⟨0, 1⟩, ⟨1, 2⟩, ⟨2, 2⟩]
    Lists text boxes ∧ (∀ b ∈ boxes, 0 ≤ b.duration.toInt) ∧
      ∃ row, lineOfText 0 text = .ok (row ++ ['\n']) ∧ '\n' ∉ row ∧
        ofJson? (Json.parse (row ++ ['\n'])).root = some ⟨2, [0, 0, 1]⟩ := by
  intro text boxes
  have hitems : (Json.ofList
      [.ofMembers [("duration", .ofInt 1), ("start", .ofInt 0)], .ofList [.ofInt 1, .ofInt 2],
        .ofMembers [("start", .ofInt 2), ("note", .null), ("duration", .ofInt 2)]]).Proper := by
    simp [Json.proper_ofList_iff, Json.proper_ofMembers_iff, Json.proper_ofInt, Json.Proper.null]
  have hlists : Lists text boxes :=
    ⟨_, hitems, Json.spells_compact hitems, .cons (.object rfl rfl (by simp))
      (.cons .list (.cons (.object rfl rfl (by simp)) .nil))⟩
  have hpositive : ∀ b ∈ boxes, 0 ≤ b.duration.toInt := by decide
  have hpack : pack 0 boxes = ⟨2, [0, 0, 1]⟩ := by cbv
  obtain ⟨row, hline, hone, -, hread⟩ := (line_of_listed_boxes 0 text).2.1 boxes hlists hpositive
  exact ⟨hlists, hpositive, row, hline, hone, hread.trans (congrArg some hpack)⟩

end Packing

end Daybook
