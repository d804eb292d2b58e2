import Daybook.Text.Digits

/-!
# Numbers of tasks, activities and plans

Tasks, activities and plans are numbered independently, by positive numbers.  An `Id` knows what it
numbers, so a plan and an activity may share a number without being mistaken for each other.

A `Problem` is what can be wrong with such numbers, and with the records that carry them.
-/

namespace Daybook

/-- **What is numbered.** -/
inductive Numbered where
  | task
  | activity
  | plan
  deriving DecidableEq

/-- The name of what is numbered. -/
def Numbered.name : Numbered → String
  | .task => "task"
  | .activity => "activity"
  | .plan => "plan"

/-- **A positive number of a task, an activity or a plan.** -/
structure Id (of : Numbered) where
  number : Int64
  positive : 0 < number.toInt
  deriving DecidableEq

/-- The number of a task. -/
abbrev TaskId := Id .task

/-- The number of an activity. -/
abbrev ActivityId := Id .activity

/-- The number of a plan. -/
abbrev PlanId := Id .plan

/-- **The kinds of entries of a day.** -/
inductive Entry.Kind where
  | activity
  | plan
  deriving DecidableEq

/-- The name of a kind. -/
def Entry.Kind.name : Entry.Kind → String
  | .activity => "activity"
  | .plan => "plan"

/-- **What is wrong with a record or an agenda.** -/
inductive Problem where
  /-- A number that is zero or negative. -/
  | notPositive (of : Numbered) (value : Int64)
  /-- An activity or a plan that ends before it starts. -/
  | endBeforeStart (of : Entry.Kind) (id : Int64)
  /-- A plan whose least effort is greater than its greatest. -/
  | boundsInverted (id : Int64) (atLeast below : Int64)
  /-- An activity or a plan of a task that is not there. -/
  | unknownTask (of : Entry.Kind) (id : Int64) (task : Int64)
  deriving DecidableEq

/-- The text of a problem. -/
def Problem.message : Problem → String
  | .notPositive of value => s!"{of.name} ID must be positive, got {Text.showInt value.toInt}"
  | .endBeforeStart of id => s!"{of.name} {Text.showInt id.toInt} ends before it starts"
  | .boundsInverted id atLeast below =>
    s!"plan {Text.showInt id.toInt}: duration_ge ({Text.showInt atLeast.toInt}s) exceeds " ++
      s!"duration_lt ({Text.showInt below.toInt}s)"
  | .unknownTask of id task =>
    s!"{of.name} {Text.showInt id.toInt} refers to unknown task {Text.showInt task.toInt}"

namespace Id

/-- The number as an id, if it is positive. -/
def ofNumber (of : Numbered) (number : Int64) : Except Problem (Id of) :=
  if h : 0 < number.toInt then .ok ⟨number, h⟩ else .error (.notPositive of number)

/-- An id as text. -/
def text (id : Id of) : List Char :=
  Text.integer id.number.toInt

end Id

end Daybook
