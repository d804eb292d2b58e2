import Daybook.Agenda.Entry

/-!
# Agendas

An agenda is a set of tasks with the activities and plans that belong to them.  `Agenda.check` finds
the first thing that is wrong with it, activities before plans.
-/

namespace Daybook

/-- **Tasks with their activities and plans.** -/
structure Agenda where
  tasks : List Task
  activities : List Activity
  plans : List Plan
  deriving DecidableEq

namespace Agenda

/-- Activities, and then plans. -/
def entries (a : Agenda) : List Entry :=
  a.activities.map .activity ++ a.plans.map .plan

/-- The first task with a number. -/
def task? (a : Agenda) (id : TaskId) : Option Task :=
  a.tasks.find? fun task => task.id == id

/-- Puts a task into a list that has at most one task of each number, in the place of the one with
its number if there is one. -/
def putTask (task : Task) : List Task → List Task
  | [] => [task]
  | other :: others => if other.id = task.id then task :: others else other :: putTask task others

/-- One task of each number, the last of those that share one. -/
def tasksById (a : Agenda) : List Task :=
  a.tasks.foldl (fun tasks task => putTask task tasks) []

/-- What is wrong with an entry: something by itself, or that there is no such task. -/
def checkEntry (tasks : List Task) (e : Entry) : Except Problem Unit := do
  e.check
  if tasks.any fun task => task.id == e.task then return ()
  else throw (.unknownTask e.kind e.number e.task.number)

/-- **What is wrong with an agenda**: the first problem of an entry, in the order of `entries`. -/
def check (a : Agenda) : Except Problem Unit :=
  a.entries.forM (checkEntry a.tasksById)

end Agenda

end Daybook
