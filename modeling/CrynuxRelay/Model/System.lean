import CrynuxRelay.Model.Funding
import CrynuxRelay.Model.NodeOps
import CrynuxRelay.Model.Validate

/-!
# The relay as one system

The operations of the relay in any order.  A handler works on a copy of the task that it has read
some time ago; between its read and its write, and between its attempts, other handlers run.

* `Flight` -- a task as a handler has read it; `syncStatus` -- what a retry reads again;
* `TaskCall` -- what the handlers do with a task, one attempt of each;
* `RelayOp`, `RelayOp.exec` -- the operations on the state of the relay.
-/

namespace CrynuxRelay

/-! ## handlers -/

/-- `InferenceTask.SyncStatus`: the status and the abort reason of the row, and nothing else. -/
def InferenceTask.syncStatus (task row : InferenceTask) : InferenceTask :=
  { task with status := row.status, abortReason := row.abortReason }

/-- a task as a handler has read it, with the status that the handler has checked. -/
structure Flight where
  task : InferenceTask
  readStatus : TaskStatus

/-- the abort of a task that waits in the queue, by its creator or by the matching. -/
def abortQueuedTask (env : Env) (reason : TaskAbortReason) (task : InferenceTask) :
    Relay Unit := do
  Tx.require (task.status = .queued)
    (.validationError "task_id_commitment" "Task can no longer be cancelled")
  setTaskStatusEndAborted env { task with abortReason := reason }

def abortTimedOutTask (env : Env) (task : InferenceTask) : Relay Unit :=
  match getTaskDeadline env task, task.deadlineAt with
  | some (_, reason), some deadline =>
    Tx.when (deadline ≤ env.now) (setTaskStatusEndAborted env { task with abortReason := reason })
  | _, _ => pure ()

/-- the settlement of an upload; the status is checked on the first read only. -/
def uploadResult (env : Env) (flight : Flight) : Relay Unit :=
  Tx.when (flight.readStatus = .validated ∨ flight.readStatus = .groupValidated)
    (setTaskStatusEndSuccess env flight.task)

inductive TaskCall
  | start (address : Text)
  | submitScore (score : Text)
  | reportError (error : TaskError)
  | validate (taskID vrfProof publicKey : Text)
  | cancel
  | removeDisallowed
  | timeOut
  | upload

def TaskCall.tx (call : TaskCall) (env : Env) (flight : Flight) : Relay Unit :=
  match call with
  | .start address => setTaskStatusStarted env flight.task address
  | .submitScore score => setTaskStatusScoreReady env { flight.task with score := score }
  | .reportError error => setTaskStatusErrorReported env { flight.task with taskError := error }
  | .validate taskID vrfProof publicKey =>
    validateSingleTask env flight.task taskID vrfProof publicKey
  | .cancel => abortQueuedTask env .creatorCancelled flight.task
  | .removeDisallowed => abortQueuedTask env .modelNotAllowed flight.task
  | .timeOut => abortTimedOutTask env flight.task
  | .upload => uploadResult env flight

/-! ## operations -/

/-- a task as the creation handlers build it. -/
structure NewTask where
  task : InferenceTask
  queued : task.status = .queued
  unselected : task.selectedNode = []
  unrevealed : task.taskID = []

/-- one round of the projector, with a batch of at most `limit` events. -/
def projectPending (chain : Chain) (limit : Nat) : Relay Unit := do
  let events ← getPendingRelayAccountEvents limit
  Tx.when (events ≠ []) (processPendingRelayAccountEvents chain events)

structure RelayState where
  world : World
  flights : List Flight

inductive RelayOp
  | create (env : Env) (task : NewTask)
  | read (taskIDCommitment : Text)
  | sync (i : Nat)
  | attempt (env : Env) (i : Nat) (call : TaskCall)
  | validateGroup (env : Env) (i j k : Nat) (taskID vrfProof publicKey : Text)
  | slash (env : Env) (node : Node)
  | request (op : NodeOp)
  | deposit (successful : Bool) (txHash network : Text) (d : DepositTxData)
  | withdraw (env : Env) (userAddress : Text) (input : CreateWithdrawInput)
  | fulfill (env : Env) (withdrawID : Nat) (txHash : Text)
  | reject (withdrawID : Nat)
  | releaseVestings (env : Env)
  | project (chain : Chain) (limit : Nat)

/-- the transaction of an operation, with the copies of the handlers in flight. -/
def RelayOp.tx (flights : List Flight) : RelayOp → Relay Unit
  | .create env t => createTask env t.task
  | .read _ | .sync _ => pure ()
  | .attempt env i call =>
    match flights[i]? with
    | some flight => call.tx env flight
    | none => pure ()
  | .validateGroup env i j k taskID vrfProof publicKey =>
    match flights[i]?, flights[j]?, flights[k]? with
    | some f, some g, some h =>
      validateTaskGroup env [f.task, g.task, h.task] taskID vrfProof publicKey
    | _, _, _ => pure ()
  | .slash env node => slashNode env node
  | .request op => op.tx
  | .deposit successful txHash network d => processDeposit successful txHash network d
  | .withdraw env userAddress input => do
    let _ ← createWithdrawRequest env userAddress input
    pure ()
  | .fulfill env withdrawID txHash => fulfillWithdraw env withdrawID txHash
  | .reject withdrawID => rejectWithdraw withdrawID
  | .releaseVestings env => processDueVestingReleases env
  | .project chain limit => projectPending chain limit

/-- the copies after an operation: a read adds one, a retry refreshes one or, when the task has left
the queue, gives up. -/
def RelayOp.flights (db : Db) (flights : List Flight) : RelayOp → List Flight
  | .read c =>
    match db.tasks.get c with
    | some t => flights ++ [⟨t, t.status⟩]
    | none => flights
  | .sync i =>
    match flights[i]? with
    | none => flights
    | some flight =>
      match db.tasks.get flight.task.taskIDCommitment with
      | none => flights
      | some row =>
        if flight.task.status = .queued ∧ row.status ≠ .queued then flights.eraseIdx i
        else flights.set i { flight with task := flight.task.syncStatus row }
  | _ => flights

def RelayOp.exec (op : RelayOp) (s : RelayState) : RelayState :=
  ⟨Tx.after (op.tx s.flights) s.world, op.flights s.world.db s.flights⟩

end CrynuxRelay
