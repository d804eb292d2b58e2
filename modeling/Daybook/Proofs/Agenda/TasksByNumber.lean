import Mathlib
import Daybook.Agenda.Basic
import Daybook.Proofs.Agenda.Check

/-!
# Tasks that share a number

Nothing keeps two tasks of an agenda from having one number, and the check passes such an agenda.
There are two ways to find the task of a number then.  The one that gives an entry its title takes
the first task with the number.  The one that the check goes by keeps a task of each number, and a
later task takes the place of an earlier one, so it holds the last (`mem_tasksById_iff`).

Hence both find a task or none does, but they differ as soon as the first task with a number is not
also the last (`first_and_last_of_number`).
-/

namespace Daybook.Agenda

/-- The tasks with a number, in their order. -/
def tasksNumbered (a : Agenda) (id : TaskId) : List Task :=
  a.tasks.filter fun task => task.id == id

/-- The task that is kept for a number. -/
def taskById? (a : Agenda) (id : TaskId) : Option Task :=
  a.tasksById.find? fun task => task.id == id

/-! ### One task of each number -/

variable {task t : Task} {tasks : List Task} {a : Agenda} {id : TaskId}

/-- Of the tasks that were there only the one with the same number is gone. -/
theorem mem_putTask_iff (h : (tasks.map Task.id).Nodup) :
    t ∈ putTask task tasks ↔ t = task ∨ t ∈ tasks ∧ t.id ≠ task.id := by
  induction tasks with
  | nil => simp [putTask]
  | cons other others ih =>
    rw [List.map_cons, List.nodup_cons, List.mem_map] at h
    obtain ⟨hother, hothers⟩ := h
    unfold putTask
    split
    · next hid =>
      -- None of the others has the number, since one before them has it.
      have hne : t ∈ others → t.id ≠ task.id := fun ht heq => hother ⟨t, ht, heq.trans hid.symm⟩
      rw [List.mem_cons, List.mem_cons]
      constructor
      · rintro (rfl | ht)
        · exact Or.inl rfl
        · exact Or.inr ⟨Or.inr ht, hne ht⟩
      · rintro (rfl | ⟨rfl | ht, hself⟩)
        · exact Or.inl rfl
        · exact absurd hid hself
        · exact Or.inr ht
    · next hid =>
      rw [List.mem_cons, List.mem_cons, ih hothers, or_and_right, or_left_comm]
      have hself : t = other ↔ t = other ∧ t.id ≠ task.id :=
        ⟨fun heq => ⟨heq, heq ▸ hid⟩, And.left⟩
      rw [← hself]

theorem nodup_map_putTask (h : (tasks.map Task.id).Nodup) :
    ((putTask task tasks).map Task.id).Nodup := by
  induction tasks with
  | nil => exact List.nodup_singleton _
  | cons other others ih =>
    have hcons := h
    rw [List.map_cons, List.nodup_cons] at hcons
    obtain ⟨hother, hothers⟩ := hcons
    unfold putTask
    split
    · next hid =>
      rw [List.map_cons, ← hid]
      exact h
    · next hid =>
      rw [List.map_cons, List.nodup_cons]
      refine ⟨fun hmem => ?_, ih hothers⟩
      obtain ⟨t, ht, heq⟩ := List.mem_map.mp hmem
      rcases (mem_putTask_iff hothers).mp ht with rfl | ⟨ht, -⟩
      · exact hid heq.symm
      · exact hother (heq ▸ List.mem_map_of_mem ht)

theorem nodup_tasksById (a : Agenda) : (a.tasksById.map Task.id).Nodup := by
  unfold tasksById
  induction a.tasks using List.reverseRecOn with
  | nil => exact List.nodup_nil
  | append_singleton tasks task ih =>
    rw [List.foldl_concat]
    exact nodup_map_putTask ih

/-- **The last task with its number is kept**, and no other. -/
theorem mem_tasksById_iff : t ∈ a.tasksById ↔ (a.tasksNumbered t.id).getLast? = some t := by
  obtain ⟨tasks, activities, plans⟩ := a
  induction tasks using List.reverseRecOn with
  | nil => simp [tasksById, tasksNumbered]
  | append_singleton tasks task ih =>
    have hnodup := nodup_tasksById ⟨tasks, activities, plans⟩
    unfold tasksById tasksNumbered at *
    rw [List.foldl_concat, mem_putTask_iff hnodup, ih, List.filter_append]
    by_cases hid : task.id = t.id
    · have hlast : [task].filter (fun task => task.id == t.id) = [task] := by simp [hid]
      rw [hlast, List.getLast?_concat, Option.some.injEq, eq_comm (a := task)]
      simp [hid]
    · have hnone : [task].filter (fun task => task.id == t.id) = [] := by simp [hid]
      have hne : t ≠ task := fun heq => hid (heq ▸ rfl)
      rw [hnone, List.append_nil]
      simp [hne, Ne.symm hid]

theorem taskById?_eq_some_iff : a.taskById? id = some t ↔ t ∈ a.tasksById ∧ t.id = id := by
  constructor
  · intro h
    have hid := List.find?_some h
    exact ⟨List.mem_of_find?_eq_some h, by simpa using hid⟩
  · rintro ⟨ht, rfl⟩
    have hsome : (a.taskById? t.id).isSome := by
      rw [taskById?, List.find?_isSome]
      exact ⟨t, ht, beq_self_eq_true t.id⟩
    obtain ⟨t', ht'⟩ := Option.isSome_iff_exists.mp hsome
    have hid : t'.id = t.id := by simpa using List.find?_some ht'
    rw [ht', List.inj_on_of_nodup_map a.nodup_tasksById (List.mem_of_find?_eq_some ht') ht hid]

/-! ### First and last -/

theorem task?_eq_head? : a.task? id = (a.tasksNumbered id).head? :=
  List.head?_filter.symm

theorem taskById?_eq_getLast? : a.taskById? id = (a.tasksNumbered id).getLast? := by
  ext t
  rw [taskById?_eq_some_iff, mem_tasksById_iff]
  constructor
  · rintro ⟨ht, rfl⟩
    exact ht
  · intro ht
    have hid : t.id = id := by simpa using (List.mem_filter.mp (List.mem_of_getLast? ht)).2
    exact ⟨hid ▸ ht, hid⟩

/-- First and last of a list differ exactly if it has them at different places. -/
theorem head?_ne_getLast?_iff {α : Type} {l : List α} :
    l.head? ≠ l.getLast? ↔
      ∃ first between last, l = first :: (between ++ [last]) ∧ first ≠ last := by
  cases l with
  | nil => simp
  | cons x l =>
    rcases List.eq_nil_or_concat l with rfl | ⟨between, last, rfl⟩
    · simp
    · rw [List.concat_eq_append, List.head?_cons, ← List.cons_append, List.getLast?_concat]
      constructor
      · intro hne
        exact ⟨x, between, last, rfl, fun heq => hne (congrArg some heq)⟩
      · rintro ⟨first, between', last', heq, hne⟩ hsome
        rw [List.cons_append, List.cons.injEq] at heq
        obtain ⟨rfl, heq⟩ := heq
        obtain ⟨-, hlast⟩ := List.append_inj' heq rfl
        obtain rfl := List.singleton_injective hlast
        exact hne (Option.some.inj hsome)

/-- **The first task with a number is looked up, and the last one is kept.**  They are there
together, and differ exactly if the number belongs to a first and another last task. -/
theorem first_and_last_of_number (a : Agenda) (id : TaskId) :
    a.task? id = (a.tasksNumbered id).head? ∧
      (∀ t, t ∈ a.tasksById ∧ t.id = id ↔ a.taskById? id = some t) ∧
      a.taskById? id = (a.tasksNumbered id).getLast? ∧
      (a.task? id = none ↔ a.taskById? id = none) ∧
      (a.task? id ≠ a.taskById? id ↔ ∃ first between last,
        a.tasksNumbered id = first :: (between ++ [last]) ∧ first ≠ last) := by
  refine ⟨task?_eq_head?, fun t => taskById?_eq_some_iff.symm, taskById?_eq_getLast?, ?_, ?_⟩
  · rw [task?_eq_head?, taskById?_eq_getLast?, List.head?_eq_none_iff, List.getLast?_eq_none_iff]
  · rw [task?_eq_head?, taskById?_eq_getLast?]
    exact head?_ne_getLast?_iff

/-- Two tasks with the number 1, and work on it.  The check finds nothing wrong, but the title comes
from the first task and the second one is kept. -/
theorem two_tasks_of_one_number :
    let one : TaskId := ⟨1, by decide⟩
    let first : Task := ⟨one, "Count", "", none, none⟩
    let last : Task := ⟨one, "Measure", "", none, none⟩
    let work : Activity := ⟨⟨1, by decide⟩, one, "", .ofSeconds 0 (by decide),
      .ofSeconds 60 (by decide), false, ""⟩
    let a : Agenda := ⟨[first, last], [work], []⟩
    a.check = .ok () ∧ a.task? one = some first ∧ last ∈ a.tasksById ∧ last.id = one ∧
      first ∉ a.tasksById ∧ a.task? one ≠ a.taskById? one := by
  intro one first last work a
  have hne : first ≠ last := by decide
  have hlookup : a.task? one = some first := rfl
  have hkept : a.taskById? one = some last := rfl
  obtain ⟨hmem, hid⟩ := taskById?_eq_some_iff.mp hkept
  refine ⟨rfl, hlookup, hmem, hid, by decide, ?_⟩
  rw [hlookup, hkept]
  exact fun heq => hne (Option.some.inj heq)

end Daybook.Agenda
