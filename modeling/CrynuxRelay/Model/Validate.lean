import CrynuxRelay.Model.Task

/-!
# Validation of one task and of a group of three

* `compareTaskScore` -- when two members of a group agree;
* `assignValidationGroupQosScores` -- the scores of the members, in the order of their speed;
* `groupNextStatus` -- the status that the comparison gives to each member;
* `validateSingleTask`, `validateTaskGroup` -- the two validations, with all that they write.
-/

namespace CrynuxRelay

/-! ## scores -/

def hexDigit (c : Char) : Option Nat :=
  if '0' ≤ c ∧ c ≤ '9' then some (c.toNat - '0'.toNat)
  else if 'a' ≤ c ∧ c ≤ 'f' then some (c.toNat - 'a'.toNat + 10)
  else if 'A' ≤ c ∧ c ≤ 'F' then some (c.toNat - 'A'.toNat + 10)
  else none

def hexBytes : Text → Option (List Nat)
  | [] => some []
  | [_] => none
  | a :: b :: l => do
    let x ← hexDigit a
    let y ← hexDigit b
    let r ← hexBytes l
    pure ((16 * x + y) :: r)

/-- `hexutil.Decode`: the bytes after `0x`, and no empty text. -/
def hexDecode : Text → Option (List Nat)
  | '0' :: x :: l => if x = 'x' ∨ x = 'X' then hexBytes l else none
  | _ => none

def onesCount8 (n : Nat) : Nat := (List.range 8).countP n.testBit

def hammingDistance (a b : List Nat) : Nat :=
  (a.zip b).foldl (fun d p => d + onesCount8 (p.1 ^^^ p.2)) 0

/-- every block of eight bytes is closer than the threshold; `n` bounds the number of blocks. -/
def blocksClose (threshold : Nat) : Nat → List Nat → List Nat → Bool
  | 0, _, _ => true
  | n + 1, h₁, h₂ =>
    decide (hammingDistance (h₁.take 8) (h₂.take 8) < threshold) &&
      blocksClose threshold n (h₁.drop 8) (h₂.drop 8)

def checkHammingDistance (h₁ h₂ : List Nat) (threshold : Nat) : Bool :=
  if h₁.length ≠ h₂.length ∨ h₁.length % 8 ≠ 0 then false
  else blocksClose threshold (h₁.length / 8) h₁ h₂

/-- whether two members agree; `none` is the panic of `hexutil.MustDecode`. -/
def compareTaskScore (t₁ t₂ : InferenceTask) (threshold : Nat) : Option Bool :=
  if t₁.taskType ≠ t₂.taskType then some false
  else if t₁.status ≠ t₂.status then some false
  else if t₁.status = .scoreReady then
    match t₁.taskType with
    | .sd | .sdFTLora => do
      let h₁ ← hexDecode t₁.score
      let h₂ ← hexDecode t₂.score
      pure (checkHammingDistance h₁ h₂ threshold)
    | .llm => some (decide (t₁.score = t₂.score))
  else some true

/-- `TASK_SCORE_REWARDS`. -/
def getTaskQosScore : Nat → Nat
  | 0 => 10
  | 1 => 5
  | 2 => 2
  | _ => 0

def assignScoresFrom : Nat → List InferenceTask → List InferenceTask
  | _, [] => []
  | order, t :: l =>
    if t.status ≠ .endAborted then
      { t with qosScore := some (getTaskQosScore order) } :: assignScoresFrom (order + 1) l
    else { t with qosScore := some 0 } :: assignScoresFrom order l

variable (env : Env) (tasks : List InferenceTask)

def assignValidationGroupQosScores : List InferenceTask :=
  if (tasks.filter fun t => t.status ≠ .endAborted) = [] then
    tasks.map fun t => { t with qosScore := none }
  else assignScoresFrom 0 tasks

/-! ## single validation -/

def validateSingleTask (task : InferenceTask) (taskID vrfProof publicKey : Text) : Relay Unit := do
  Tx.require (env.validTaskID taskID task.nonce task.taskIDCommitment = true) .validationIllegal
  Tx.require (env.validVRFProof task.samplingSeed vrfProof publicKey task.creator false = true)
    .validationIllegal
  Tx.require (task.taskID = [] ∨ task.taskID = taskID) .validationIllegal
  Tx.require (¬ (task.status = .validated ∨ task.status = .endSuccess ∨
    (task.status = .endAborted ∧ task.abortReason = .errorReported))) .validationAlreadyApplied
  Tx.require (task.status = .scoreReady ∨ task.status = .errorReported) .validationIllegal
  if task.status = .scoreReady then setTaskStatusValidated env { task with taskID := taskID }
  else
    setTaskStatusEndAborted env { task with
      taskID := taskID
      abortReason := .errorReported
      validatedTime := some env.now }

/-! ## group validation -/

def insertBy {α : Type} (lt : α → α → Bool) (a : α) : List α → List α
  | [] => [a]
  | b :: l => if lt a b then a :: b :: l else b :: insertBy lt a l

/-- `sort.Slice`. -/
def sortBy {α : Type} (lt : α → α → Bool) (l : List α) : List α := l.foldr (insertBy lt) []

def InferenceTask.executionTime (t : InferenceTask) : Time :=
  match t.startTime, t.scoreReadyTime with
  | some s, some r => r - s
  | _, _ => 2 ^ 63 - 1

def fasterThan (t₁ t₂ : InferenceTask) : Bool :=
  if t₁.executionTime = t₂.executionTime then t₁.id < t₂.id
  else t₁.executionTime < t₂.executionTime

def checkGroupExecutionModelFiles : Bool :=
  match tasks.filter fun t => t.status ≠ .endAborted with
  | [] => true
  | r :: l => l.all fun t => t.executionModelFileHashes = r.executionModelFileHashes

def groupHasCreatorValidationTimeout : Bool :=
  tasks.any fun t => t.status = .endAborted ∧ t.abortReason = .creatorValidationTimeout

def lockValidationGroupTasks : Relay (List InferenceTask) := do
  Tx.require (tasks.length = 3) .taskGroupIllegal
  let db ← Tx.getDb
  let records := db.tasks.rows.filter fun t => t.id ∈ tasks.map (·.id)
  Tx.require (records.length = tasks.length) .taskGroupIllegal
  Tx.orFail (tasks.mapM fun t => records.find? fun r => r.id = t.id) .taskGroupIllegal

def refreshValidationGroupTasksForFinalUpdate (taskID : Text) : Relay (List InferenceTask) := do
  let refreshed ← lockValidationGroupTasks tasks
  Tx.require (¬ ∀ t ∈ refreshed, t.taskID = taskID) .validationAlreadyApplied
  Tx.require (groupHasCreatorValidationTimeout refreshed = false) .taskGroupIllegal
  Tx.require (∀ t ∈ refreshed, t.status = .scoreReady ∨ t.status = .errorReported ∨
    t.status = .endAborted) .taskGroupIllegal
  pure refreshed

def groupNextStatus (threshold : Nat) (tasks : List InferenceTask) : Option (Text → TaskStatus) :=
  let next : Text → TaskStatus := fun _ => .endAborted
  let set (m : Text → TaskStatus) (t : InferenceTask) (st : TaskStatus) :=
    Function.update m t.taskIDCommitment st
  match tasks.filter fun t => t.status ≠ .endAborted with
  | [f₀, f₁] => do
    let same ← compareTaskScore f₀ f₁ threshold
    if same && decide (f₀.status = .scoreReady) then
      pure (set (set next f₀ .groupValidated) f₁ .endGroupRefund)
    else pure next
  | [f₀, f₁, f₂] => do
    let same₁ ← compareTaskScore f₀ f₁ threshold
    let same₂ ← compareTaskScore f₀ f₂ threshold
    let same₃ ← compareTaskScore f₁ f₂ threshold
    if same₁ then
      let next := if f₀.status = .scoreReady then
        set (set next f₀ .groupValidated) f₁ .endGroupRefund else next
      -- the third member is refunded even when the group agrees on an error
      pure (set next f₂ (if same₂ then .endGroupRefund else .endInvalidated))
    else if same₂ then
      let next := if f₀.status = .scoreReady then
        set (set next f₀ .groupValidated) f₂ .endGroupRefund else next
      pure (set next f₁ .endInvalidated)
    else if same₃ then
      let next := if f₁.status = .scoreReady then
        set (set next f₁ .groupValidated) f₂ .endGroupRefund else next
      pure (set next f₀ .endInvalidated)
    else pure next
  | _ => some next

/-- whether the slash evidence of each invalidated member is complete. -/
def buildInvalidatedTaskSlashEvidence (env : Env) (next : Text → TaskStatus) :
    List InferenceTask → Relay (List (Text × Bool))
  | [] => pure []
  | t :: l =>
    if next t.taskIDCommitment ≠ .endInvalidated then buildInvalidatedTaskSlashEvidence env next l
    else do
      let node ← checkTaskSelectedNode t
      match env.slashEvidence t node with
      | .error e => Tx.fail e
      | .ok complete =>
        let r ← buildInvalidatedTaskSlashEvidence env next l
        pure ((t.taskIDCommitment, complete) :: r)

def shouldPersistValidationGroupTimeoutQos (t : InferenceTask) : Bool :=
  t.status = .endAborted ∧ t.abortReason = .timeout ∧ t.qosScore.isSome ∧ t.selectedNode ≠ []

def persistValidationGroupAbortedTaskQos (task : InferenceTask) : Relay Unit := do
  Tx.when (shouldPersistValidationGroupTimeoutQos task) do
    let node ← getNodeByAddress task.selectedNode
    let _ ← updateNodeQosScore env node (task.qosScore.getD 0)
    pure ()
  task.update (fun t => { t with qosScore := task.qosScore, taskID := task.taskID }) fun _ => rfl

/-- the transition of one member; `finished` members have executed. -/
def applyGroupStatus (next : Text → TaskStatus) (evidence : List (Text × Bool)) (finished : Nat)
    (task : InferenceTask) : Relay Unit :=
  match next task.taskIDCommitment with
  | .endInvalidated => do
    let complete ← Tx.orFail (evidence.lookup task.taskIDCommitment) .validationIllegal
    setTaskStatusEndInvalidatedWithEvidence env task complete
  | .groupValidated => setTaskStatusGroupValidated env task
  | .endGroupRefund => setTaskStatusEndGroupRefund env task
  | _ =>
    if task.status ≠ .endAborted then
      setTaskStatusEndAborted env { task with
        abortReason := if finished < 2 then .groupTimeout else .incorrectResult
        validatedTime := some env.now }
    else persistValidationGroupAbortedTaskQos env task

def settleTaskGroup (taskID : Text) : Relay Unit := do
  let refreshed ← refreshValidationGroupTasksForFinalUpdate tasks taskID
  let tasks := refreshed.map fun t => { t with taskID := taskID }
  Tx.require (checkGroupExecutionModelFiles tasks = true) .inconsistentExecutionModelFiles
  let tasks := assignValidationGroupQosScores (sortBy fasterThan tasks)
  let next ← Tx.orFail (groupNextStatus env.distanceThreshold tasks) .validationIllegal
  let evidence ← buildInvalidatedTaskSlashEvidence env next tasks
  Tx.each (applyGroupStatus env next evidence
    (tasks.filter fun t => t.status ≠ .endAborted).length) tasks

def validateTaskGroup (originTasks : List InferenceTask) (taskID vrfProof publicKey : Text) :
    Relay Unit := do
  Tx.require (originTasks.length = 3) .taskGroupIllegal
  let tasks := sortBy (fun t₁ t₂ => t₁.id < t₂.id) originTasks
  Tx.require (groupHasCreatorValidationTimeout tasks = false) .taskGroupIllegal
  let samplingSeed := (tasks.head?.map (·.samplingSeed)).getD []
  Tx.each (fun t => do
    Tx.require (env.validTaskID taskID t.nonce t.taskIDCommitment = true) .validationIllegal
    Tx.require (env.validVRFProof samplingSeed vrfProof publicKey t.creator true = true)
      .validationIllegal
    Tx.require (t.taskID = [] ∨ t.taskID = taskID) .validationIllegal) tasks
  Tx.require (¬ ∀ t ∈ tasks, t.taskID = taskID) .validationAlreadyApplied
  Tx.transaction (settleTaskGroup env (tasks.map fun t => { t with taskID := taskID }) taskID)

end CrynuxRelay
