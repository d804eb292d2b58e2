import Daybook.Agenda.Id
import Daybook.Calendar.Instant
import Daybook.Packing

/-!
# Tasks, activities and plans

A task is something to be done, an activity is work that was done on it, and a plan is a window in
which such work is expected.  An `Entry` is an activity or a plan: what a day has to show.

Nothing keeps an entry from ending before it starts; `Entry.check` says whether one does.
-/

namespace Daybook

/-- **Something to be done.** -/
structure Task where
  id : TaskId
  /-- The title that a day shows. -/
  title : String
  /-- A description, in Markdown. -/
  description : String
  /-- When it becomes useless to finish the task. -/
  deadline : Option Instant
  /-- When the task should be finished. -/
  due : Option Instant
  deriving DecidableEq

/-- **Work that was done on a task.** -/
structure Activity where
  id : ActivityId
  /-- The task that was worked on. -/
  task : TaskId
  location : String
  /-- When the work began. -/
  start : Instant
  /-- When the work ended. -/
  finish : Instant
  /-- Whether the task was finished by it. -/
  done : Bool
  note : String
  deriving DecidableEq

/-- **A window in which a task is to be worked on.** -/
structure Plan where
  id : PlanId
  /-- The task to be worked on. -/
  task : TaskId
  /-- The activity that fulfilled the plan. -/
  activity : Option ActivityId
  location : String
  /-- When work may begin. -/
  start : Instant
  /-- When work should have ended. -/
  finish : Instant
  /-- The least effort in seconds. -/
  atLeast : Option Int64
  /-- The effort in seconds that is too much. -/
  below : Option Int64
  deriving DecidableEq

/-- **An activity or a plan.** -/
inductive Entry where
  /-- Work that was done. -/
  | activity (a : Activity)
  /-- Work that is planned. -/
  | plan (p : Plan)
  deriving DecidableEq

namespace Activity

/-- What is wrong with an activity by itself: that it ends before it starts. -/
def check (a : Activity) : Except Problem Unit :=
  if a.finish < a.start then .error (.endBeforeStart .activity a.id.number) else .ok ()

end Activity

namespace Plan

/-- What is wrong with a plan by itself: first that it ends before it starts, then that its bounds
of effort are the wrong way round. -/
def check (p : Plan) : Except Problem Unit :=
  if p.finish < p.start then .error (.endBeforeStart .plan p.id.number)
  else
    match p.atLeast, p.below with
    | some atLeast, some below =>
      if below.toInt < atLeast.toInt then .error (.boundsInverted p.id.number atLeast below)
      else .ok ()
    | _, _ => .ok ()

end Plan

namespace Entry

/-- Whether the entry is an activity or a plan. -/
def kind : Entry → Kind
  | .activity _ => .activity
  | .plan _ => .plan

/-- The number of the activity or the plan. -/
def number : Entry → Int64
  | .activity a => a.id.number
  | .plan p => p.id.number

/-- The task that the entry belongs to. -/
def task : Entry → TaskId
  | .activity a => a.task
  | .plan p => p.task

/-- When the entry starts. -/
def start : Entry → Instant
  | .activity a => a.start
  | .plan p => p.start

/-- When the entry ends. -/
def finish : Entry → Instant
  | .activity a => a.finish
  | .plan p => p.finish

/-- The length of an entry in whole seconds. -/
def duration (e : Entry) : Int :=
  e.finish.secondsSince e.start

/-- The box that the entry takes on the time line. -/
def box (e : Entry) : Box :=
  { start := Int64.ofInt e.start.seconds, duration := Int64.ofInt e.duration }

/-- What is wrong with an entry by itself. -/
def check : Entry → Except Problem Unit
  | .activity a => a.check
  | .plan p => p.check

end Entry

end Daybook
