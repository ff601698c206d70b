import CrynuxRelay.Base.Keyset
import CrynuxRelay.Model.State
import Mathlib.Data.Prod.Lex

/-!
# The scan for tasks past their deadline

Every tick reads one page of the tasks whose deadline has passed, above a cursor that the tick before
has left, and aborts them.

* `taskDeadlineCursor`, `aboveCursor` -- the cursor and the condition of the query;
* `getDueTaskDeadlines` -- the page;
* `processTick` -- the tasks that a tick returns, and its cursor.
-/

namespace CrynuxRelay

def TaskStatus.code : TaskStatus → Nat
  | .queued => 0
  | .started => 1
  | .parametersUploaded => 2
  | .errorReported => 3
  | .scoreReady => 4
  | .validated => 5
  | .groupValidated => 6
  | .endInvalidated => 7
  | .endSuccess => 8
  | .endAborted => 9
  | .endGroupRefund => 10
  | .endGroupSuccess => 11

structure TaskDeadlineCursor where
  status : TaskStatus
  deadlineAt : Time
  id : Nat
  deriving DecidableEq

def dueStatuses : List TaskStatus :=
  [.queued, .started, .parametersUploaded, .errorReported, .scoreReady, .validated, .groupValidated]

structure DueTask where
  task : InferenceTask
  deadline : Time

/-- the row with its deadline, if it is in one of the statuses of the scan and the deadline has
passed. -/
def dueTask (now : Time) (task : InferenceTask) : Option DueTask :=
  match task.deadlineAt with
  | some deadline =>
    if task.status ∈ dueStatuses ∧ deadline ≤ now then some ⟨task, deadline⟩ else none
  | none => none

def aboveCursor (cursor : TaskDeadlineCursor) (t : DueTask) : Bool :=
  decide (cursor.status.code < t.task.status.code ∨
    (t.task.status.code = cursor.status.code ∧ cursor.deadlineAt < t.deadline) ∨
    (t.task.status.code = cursor.status.code ∧ t.deadline = cursor.deadlineAt ∧
      cursor.id < t.task.id))

def DueTask.orderKey (t : DueTask) : Nat ×ₗ Time ×ₗ Nat :=
  toLex (t.task.status.code, toLex (t.deadline, t.task.id))

def getDueTaskDeadlines (tasks : Table InferenceTask.taskIDCommitment) (now : Time) (limit : Nat)
    (cursor : Option TaskDeadlineCursor) : List DueTask :=
  let due := tasks.rows.filterMap (dueTask now)
  let matching := due.filter fun t => cursor.all fun c => aboveCursor c t
  (matching.insertionSort fun t u => t.orderKey ≤ u.orderKey).take limit

/-- one tick of `processTaskTimeouts`: the tasks it returns and the cursor it leaves; a tick without an
abort issuer or with a failed query keeps the cursor. -/
def processTick (failed : Bool) (tasks : Table InferenceTask.taskIDCommitment) (now : Time)
    (limit : Nat) (cursor : Option TaskDeadlineCursor) : List DueTask × Option TaskDeadlineCursor :=
  if failed then ([], cursor)
  else
    let page := getDueTaskDeadlines tasks now limit cursor
    (page, page.getLast?.map fun last => ⟨last.task.status, last.deadline, last.task.id⟩)

end CrynuxRelay
