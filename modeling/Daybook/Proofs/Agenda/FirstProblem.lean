import Mathlib
import Daybook.Agenda.Basic
import Daybook.Proofs.Agenda.Check

/-!
# The problem that is reported

Of all that is wrong with an entry one problem is reported (`Entry.Reports`).  That it ends before
it starts comes first, then that its bounds of effort are the wrong way round, and only then that
its task is not there.  This is what the check of an entry says (`Entry.check_eq_error_iff`,
`checkEntry_eq_error_iff`).

The check of an agenda goes through the activities and then the plans, and stops at the first entry
that has something to report (`check_reports_first`).
-/

namespace Daybook

variable {tasks : List Task} {e : Entry} {problem : Problem}

/-! ### One entry -/

namespace Entry

/-- Whether an entry, if it is a plan, expects no more effort than it allows. -/
def BoundsInOrder (e : Entry) : Prop :=
  ∀ p : Plan, e = .plan p → ∀ atLeast ∈ p.atLeast, ∀ below ∈ p.below, atLeast.toInt ≤ below.toInt

/-- **The problem that an entry has to report**, beside the tasks that there are. -/
inductive Reports (tasks : List Task) : Entry → Problem → Prop where
  | endBeforeStart {e : Entry} (h : e.finish < e.start) :
    Reports tasks e (.endBeforeStart e.kind e.number)
  | boundsInverted {p : Plan} {atLeast below : Int64} (horder : p.start ≤ p.finish)
    (hatLeast : p.atLeast = some atLeast) (hbelow : p.below = some below)
    (h : below.toInt < atLeast.toInt) :
    Reports tasks (.plan p) (.boundsInverted p.id.number atLeast below)
  | unknownTask {e : Entry} (horder : e.start ≤ e.finish) (hbounds : e.BoundsInOrder)
    (h : ∀ t ∈ tasks, t.id ≠ e.task) :
    Reports tasks e (.unknownTask e.kind e.number e.task.number)

/-- Of the tasks it matters only whether that of the entry is among them. -/
theorem Reports.of_tasks {tasks' : List Task}
    (htasks : (∀ t ∈ tasks, t.id ≠ e.task) → ∀ t ∈ tasks', t.id ≠ e.task)
    (h : e.Reports tasks problem) : e.Reports tasks' problem := by
  cases h with
  | endBeforeStart hends => exact .endBeforeStart hends
  | boundsInverted horder hatLeast hbelow hbounds =>
    exact .boundsInverted horder hatLeast hbelow hbounds
  | unknownTask horder hbounds hnone => exact .unknownTask horder hbounds (htasks hnone)

end Entry

theorem Activity.check_eq_error_iff {a : Activity} :
    a.check = .error problem ↔
      a.finish < a.start ∧ problem = .endBeforeStart .activity a.id.number := by
  unfold check
  split_ifs with h <;> simp [h, eq_comm]

theorem Plan.check_eq_error_iff {p : Plan} :
    p.check = .error problem ↔
      p.finish < p.start ∧ problem = .endBeforeStart .plan p.id.number ∨
      p.start ≤ p.finish ∧ ∃ atLeast below, p.atLeast = some atLeast ∧ p.below = some below ∧
        below.toInt < atLeast.toInt ∧ problem = .boundsInverted p.id.number atLeast below := by
  unfold check
  rw [← not_lt]
  by_cases hends : p.finish < p.start
  · simp [hends, eq_comm]
  · cases p.atLeast with
    | none => simp [hends]
    | some atLeast =>
      cases p.below with
      | none => simp [hends]
      | some below =>
        by_cases hbounds : below.toInt < atLeast.toInt
        · simp [hends, hbounds, eq_comm]
        · simp [hends, hbounds]

/-- What is wrong with an entry by itself. -/
theorem Entry.check_eq_error_iff :
    e.check = .error problem ↔
      e.finish < e.start ∧ problem = .endBeforeStart e.kind e.number ∨
      ∃ p, e = .plan p ∧ p.start ≤ p.finish ∧ ∃ atLeast below, p.atLeast = some atLeast ∧
        p.below = some below ∧ below.toInt < atLeast.toInt ∧
        problem = .boundsInverted p.id.number atLeast below := by
  cases e with
  | activity a => simp [check, start, finish, kind, number, Activity.check_eq_error_iff]
  | plan p => simp [check, start, finish, kind, number, Plan.check_eq_error_iff]

namespace Agenda

/-- The task of an entry is looked for only if nothing is wrong with the entry by itself. -/
theorem checkEntry_eq_error_iff :
    checkEntry tasks e = .error problem ↔ e.Reports tasks problem := by
  unfold checkEntry
  rw [Except.bind_eq_error_iff]
  constructor
  · rintro (hcheck | ⟨_, hcheck, htask⟩)
    · obtain ⟨hends, rfl⟩ | ⟨p, rfl, horder, _, _, hatLeast, hbelow, hbounds, rfl⟩ :=
        Entry.check_eq_error_iff.mp hcheck
      · exact .endBeforeStart hends
      · exact .boundsInverted horder hatLeast hbelow hbounds
    · obtain ⟨horder, hbounds⟩ := Entry.check_eq_ok_iff.mp hcheck
      split at htask
      · cases htask
      · next hnone =>
        obtain rfl := Except.error.inj htask
        refine .unknownTask horder hbounds fun t ht hid => hnone ?_
        exact any_id_eq_iff.mpr ⟨t, ht, hid⟩
  · intro hreports
    cases hreports with
    | endBeforeStart hends => exact Or.inl (Entry.check_eq_error_iff.mpr (Or.inl ⟨hends, rfl⟩))
    | boundsInverted horder hatLeast hbelow hbounds =>
      refine Or.inl (Entry.check_eq_error_iff.mpr (Or.inr ?_))
      exact ⟨_, rfl, horder, _, _, hatLeast, hbelow, hbounds, rfl⟩
    | unknownTask horder hbounds hnone =>
      refine Or.inr ⟨(), Entry.check_eq_ok_iff.mpr ⟨horder, hbounds⟩, if_neg fun hsome => ?_⟩
      obtain ⟨t, ht, hid⟩ := any_id_eq_iff.mp hsome
      exact hnone t ht hid

/-- What is reported does not depend on which of the tasks with one number is kept. -/
theorem reports_tasksById_iff {a : Agenda} :
    e.Reports a.tasksById problem ↔ e.Reports a.tasks problem := by
  have hnone : (∀ t ∈ a.tasksById, t.id ≠ e.task) ↔ ∀ t ∈ a.tasks, t.id ≠ e.task := by
    have hiff := not_congr (@exists_mem_tasksById_iff a e.task)
    simpa only [not_exists, not_and] using hiff
  exact ⟨Entry.Reports.of_tasks hnone.mp, Entry.Reports.of_tasks hnone.mpr⟩

/-! ### All entries -/

/-- **The check reports the first problem, and only real ones.**  It finds nothing exactly if the
agenda is sound.  Otherwise it gives the problem of the first entry that has one, with all
activities before all plans. -/
theorem check_reports_first (a : Agenda) :
    (a.check = .ok () ↔ a.Sound) ∧
      ∀ problem, a.check = .error problem ↔ ∃ before e after,
        a.activities.map Entry.activity ++ a.plans.map Entry.plan = before ++ e :: after ∧
          (∀ e' ∈ before, ∀ other, ¬ e'.Reports a.tasks other) ∧ e.Reports a.tasks problem := by
  refine ⟨check_eq_ok_iff, fun problem => ?_⟩
  have hreports : ∀ e problem,
      checkEntry a.tasksById e = .error problem ↔ e.Reports a.tasks problem :=
    fun e problem => checkEntry_eq_error_iff.trans reports_tasksById_iff
  have hquiet : ∀ e, checkEntry a.tasksById e = .ok () ↔ ∀ other, ¬ e.Reports a.tasks other := by
    intro e
    rw [Except.eq_ok_iff_forall_ne]
    exact forall_congr' fun other => not_congr (hreports e other)
  unfold check entries
  rw [Except.forM_eq_error_iff]
  simp only [hreports, hquiet]

end Agenda

end Daybook
