import Mathlib
import Daybook.Agenda.Json
import Daybook.DayView.Text
import Daybook.Proofs.Agenda.RoundTrip
import Daybook.Proofs.DayView.Blocks
import Daybook.Proofs.Except

/-!
# What a checked agenda is

An agenda passes its check if no entry ends before it starts, no plan has its bounds of effort the
wrong way round, and every entry has its task (`check_eq_ok_iff`).  A text is accepted if it reads
as such an agenda (`ofText_eq_ok_iff`).

That is enough to lay the agenda out and to print it (`accepted_agenda_sound`).  To the end of an
entry it is no negative number of seconds then, whatever leap seconds do, and the task that is
looked up for its title, the first with the number, is there if the check found any.
-/

namespace Daybook

/-! ### Tasks by number -/

namespace Agenda

theorem exists_mem_putTask_iff {task : Task} {tasks : List Task} {id : TaskId} :
    (∃ t ∈ putTask task tasks, t.id = id) ↔ task.id = id ∨ ∃ t ∈ tasks, t.id = id := by
  induction tasks with
  | nil => simp [putTask]
  | cons other others ih =>
    rw [putTask]
    split
    · next h => simp [h]
    · simp only [List.exists_mem_cons_iff, ih, or_left_comm]

/-- Of each number that a task has there is a task left. -/
theorem exists_mem_tasksById_iff {a : Agenda} {id : TaskId} :
    (∃ t ∈ a.tasksById, t.id = id) ↔ ∃ t ∈ a.tasks, t.id = id := by
  -- Generalized over the tasks found so far, since each step puts one more among them.
  have hfold : ∀ tasks found : List Task,
      (∃ t ∈ tasks.foldl (fun tasks task => putTask task tasks) found, t.id = id) ↔
        (∃ t ∈ tasks, t.id = id) ∨ ∃ t ∈ found, t.id = id := by
    intro tasks
    induction tasks with
    | nil => simp
    | cons task tasks ih =>
      intro found
      rw [List.foldl_cons, ih, exists_mem_putTask_iff, List.exists_mem_cons_iff, ← or_assoc,
        or_comm (a := ∃ t ∈ tasks, t.id = id)]
  rw [tasksById, hfold]
  simp

end Agenda

/-! ### Checks -/

theorem Activity.check_eq_ok_iff {a : Activity} : a.check = .ok () ↔ a.start ≤ a.finish := by
  rw [check, ← not_lt]
  split <;> simp_all

theorem Plan.check_eq_ok_iff {p : Plan} :
    p.check = .ok () ↔ p.start ≤ p.finish ∧
      ∀ atLeast ∈ p.atLeast, ∀ below ∈ p.below, atLeast.toInt ≤ below.toInt := by
  rw [check, ← not_lt]
  by_cases hends : p.finish < p.start
  · simp [hends]
  · cases p.atLeast with
    | none => simp [hends]
    | some atLeast =>
      cases p.below with
      | none => simp [hends]
      | some below =>
        by_cases hbounds : below.toInt < atLeast.toInt
        · simp [hends, hbounds]
        · simp [hends, hbounds, not_lt.mp hbounds]

theorem Entry.check_eq_ok_iff {e : Entry} :
    e.check = .ok () ↔ e.start ≤ e.finish ∧
      ∀ p : Plan, e = .plan p →
        ∀ atLeast ∈ p.atLeast, ∀ below ∈ p.below, atLeast.toInt ≤ below.toInt := by
  cases e with
  | activity a => simp [check, start, finish, Activity.check_eq_ok_iff]
  | plan p => simp [check, start, finish, Plan.check_eq_ok_iff]

namespace Agenda

theorem any_id_eq_iff {tasks : List Task} {id : TaskId} :
    (tasks.any fun task => task.id == id) = true ↔ ∃ t ∈ tasks, t.id = id := by
  simp

theorem checkEntry_eq_ok_iff {tasks : List Task} {e : Entry} :
    checkEntry tasks e = .ok () ↔ e.check = .ok () ∧ ∃ t ∈ tasks, t.id = e.task := by
  rw [checkEntry, Except.bind_eq_ok_iff, ← any_id_eq_iff]
  constructor
  · rintro ⟨_, hcheck, htask⟩
    exact ⟨hcheck, by by_contra hnone; simp [hnone] at htask⟩
  · rintro ⟨hcheck, htask⟩
    exact ⟨(), hcheck, if_pos htask⟩

/-- **What is right with an agenda** that passes its check. -/
structure Sound (a : Agenda) : Prop where
  /-- No entry ends before it starts. -/
  start_le_finish : ∀ e ∈ a.entries, e.start ≤ e.finish
  /-- No plan expects more effort than it allows. -/
  atLeast_le_below : ∀ p ∈ a.plans, ∀ atLeast ∈ p.atLeast, ∀ below ∈ p.below,
    atLeast.toInt ≤ below.toInt
  /-- Every entry has its task. -/
  exists_task : ∀ e ∈ a.entries, ∃ t ∈ a.tasks, t.id = e.task

theorem plan_mem_entries_iff {a : Agenda} {p : Plan} : .plan p ∈ a.entries ↔ p ∈ a.plans := by
  simp [entries]

/-- **The check passes what is right**, and nothing else. -/
theorem check_eq_ok_iff {a : Agenda} : a.check = .ok () ↔ a.Sound := by
  simp only [check, Except.forM_eq_ok_iff, checkEntry_eq_ok_iff, Entry.check_eq_ok_iff,
    exists_mem_tasksById_iff]
  constructor
  · intro h
    refine ⟨fun e he => (h e he).1.1, fun p hp => ?_, fun e he => (h e he).2⟩
    exact (h (.plan p) (plan_mem_entries_iff.mpr hp)).1.2 p rfl
  · intro h e he
    refine ⟨⟨h.start_le_finish e he, ?_⟩, h.exists_task e he⟩
    rintro p rfl
    exact h.atLeast_le_below p (plan_mem_entries_iff.mp he)

/-- **A text is accepted** if it reads as an agenda with which nothing is wrong. -/
theorem ofText_eq_ok_iff {text : List Char} {a : Agenda} :
    ofText text = .ok a ↔ Json.read Agenda.form.reader text = .ok a ∧ a.Sound := by
  simp only [ofText, Except.bind_eq_ok_iff, Except.mapError_eq_ok_iff, Except.pure_eq_ok_iff]
  constructor
  · rintro ⟨a', hread, _, hcheck, rfl⟩
    exact ⟨hread, check_eq_ok_iff.mp hcheck⟩
  · rintro ⟨hread, hsound⟩
    exact ⟨a, hread, (), check_eq_ok_iff.mpr hsound, rfl⟩

/-! ### Laying out and printing -/

/-- The task that is looked up is the first one with the number. -/
theorem exists_task?_of_mem {a : Agenda} {id : TaskId} (h : ∃ t ∈ a.tasks, t.id = id) :
    ∃ t ∈ a.task? id, t ∈ a.tasks ∧ t.id = id := by
  obtain ⟨t, ht, hid⟩ := h
  have hsome : (a.task? id).isSome := by
    rw [task?, List.find?_isSome]
    exact ⟨t, ht, by simp [hid]⟩
  obtain ⟨t', ht'⟩ := Option.isSome_iff_exists.mp hsome
  have hid' := List.find?_some ht'
  exact ⟨t', ht', List.mem_of_find?_eq_some ht', by simpa using hid'⟩

end Agenda

/-- An entry whose task is there is printed with its title. -/
theorem DayView.titleOf_eq {a : Agenda} {e : Entry} {t : Task} (h : t ∈ a.task? e.task) :
    titleOf a e = t.title.toList := by
  rw [titleOf, Option.mem_def.mp h]

/-- A number that is zero or negative is refused where an id is read. -/
theorem Id.reader_of_not_positive {of : Numbered} {j : Json} {n : Int64}
    (hj : Json.int64 j = .ok n) (hn : n.toInt ≤ 0) :
    Id.reader of j = .error (.mismatch (.refused (Problem.notPositive of n).message)) := by
  have hofNumber : Id.ofNumber of n = .error (.notPositive of n) := dif_neg hn.not_gt
  rw [Id.reader, hj]
  show (Id.ofNumber of n).mapError _ = _
  rw [hofNumber]
  rfl

namespace Agenda

/-- **An accepted agenda can be laid out and printed.** -/
theorem accepted_agenda_sound (text : List Char) (a : Agenda) :
    (ofText text = .ok a ↔ Json.read Agenda.form.reader text = .ok a ∧ a.Sound) ∧
    (ofText text = .ok a →
      (∀ t ∈ a.tasks, 0 < t.id.number.toInt) ∧
      (∀ w ∈ a.activities, 0 < w.id.number.toInt ∧ 0 < w.task.number.toInt) ∧
      (∀ p ∈ a.plans, 0 < p.id.number.toInt ∧ 0 < p.task.number.toInt ∧
        ∀ id ∈ p.activity, 0 < id.number.toInt) ∧
      (∀ e ∈ a.entries, 0 ≤ e.duration ∧ e.box.duration.toInt = e.duration ∧
        ∃ t ∈ a.task? e.task, DayView.titleOf a e = t.title.toList) ∧
      ∀ d z least, ∀ v ∈ DayView.build? d z least a.entries, ∀ b ∈ v.blocks,
        ∃ t ∈ a.task? b.entry.task, DayView.titleOf a b.entry = t.title.toList) ∧
    ∀ (of : Numbered) (j : Json) (n : Int64), Json.int64 j = .ok n → n.toInt ≤ 0 →
      Id.reader of j = .error (.mismatch (.refused (Problem.notPositive of n).message)) := by
  refine ⟨ofText_eq_ok_iff, fun haccepted => ?_, fun of j n => Id.reader_of_not_positive⟩
  have hsound := (ofText_eq_ok_iff.mp haccepted).2
  have htitle : ∀ e ∈ a.entries,
      ∃ t ∈ a.task? e.task, DayView.titleOf a e = t.title.toList := by
    intro e he
    obtain ⟨t, ht, -⟩ := exists_task?_of_mem (hsound.exists_task e he)
    exact ⟨t, ht, DayView.titleOf_eq ht⟩
  refine ⟨fun t _ => t.id.positive, fun w _ => ⟨w.id.positive, w.task.positive⟩,
    fun p _ => ⟨p.id.positive, p.task.positive, fun id _ => id.positive⟩, fun e he => ?_, ?_⟩
  · exact ⟨Instant.secondsSince_nonneg (hsound.start_le_finish e he), e.toInt_duration_box,
      htitle e he⟩
  · intro d z least v hv b hb
    -- Whatever the day, the entry of a block is one of the agenda.
    obtain ⟨bounds, -, rfl⟩ := Option.map_eq_some_iff.mp hv
    exact htitle b.entry (DayView.mem_blocks_ofBounds hb).1.1

/-- Work that begins within the leap second at the end of 2016 and ends within the second after it.
By the clock it ends before it begins, but its length is zero. -/
theorem accepted_agenda_sound_leap_second :
    let start : Instant := ⟨1483228799, 1500000000, by decide, by decide, by decide, by decide⟩
    let finish : Instant := ⟨1483228800, 200000000, by decide, by decide, by decide, by decide⟩
    let task : Task := ⟨⟨1, by decide⟩, "Count", "", none, none⟩
    let work : Activity := ⟨⟨1, by decide⟩, ⟨1, by decide⟩, "", start, finish, true, ""⟩
    let a : Agenda := ⟨[task], [work], []⟩
    ofText (form.toJson a).compact = .ok a ∧ finish.nanosecondsSince start < 0 ∧
      0 ≤ (Entry.activity work).duration ∧
      DayView.titleOf a (.activity work) = "Count".toList := by
  intro start finish task work a
  have hsound : a.Sound := ⟨by decide, by decide, by decide⟩
  have hread : Json.read form.reader (form.toJson a).compact = .ok a :=
    readsBack.read_eq (Json.spells_compact (readsBack.proper a))
  obtain ⟨haccepted, hlayout, -⟩ := accepted_agenda_sound (form.toJson a).compact a
  have htext := haccepted.mpr ⟨hread, hsound⟩
  have hwork : Entry.activity work ∈ a.entries := by decide
  obtain ⟨hduration, -, t, ht, htitle⟩ := (hlayout htext).2.2.2.1 (.activity work) hwork
  obtain rfl : task = t := Option.some.inj ht
  exact ⟨htext, by decide, hduration, htitle⟩

end Agenda

end Daybook
