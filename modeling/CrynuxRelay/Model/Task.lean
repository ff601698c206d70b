import CrynuxRelay.Model.Node

/-!
# Tasks: creation, transitions, settlement

* `createTask` -- the charge of a new task; `unmarshalBigInt` -- the decoder of its fee;
* `sendTaskIncome` -- the split of a payment between DAO, delegators and node;
* `settlementPayments` -- the payments of a group whose representative succeeded;
* `setTaskStatusStarted` and the other `SetTaskStatus` functions.
-/

namespace CrynuxRelay

variable (env : Env) (t task : InferenceTask) (node : Node)

/-! ## deadlines -/

def usesRelayOwnedTimeouts : Bool := t.taskType = .sd ∨ t.taskType = .llm

def seconds (n : Nat) : Time := n * 1000000000

def getQueueDeadline : Option Time :=
  match t.createTime with
  | none => none
  | some create =>
    if t.taskType = .sdFTLora then some (create + seconds 180 + seconds t.timeout)
    else if usesRelayOwnedTimeouts t = false then none
    else some (create + seconds
      (if t.queueTimeout = 0 then env.defaultQueueTimeoutSeconds else t.queueTimeout))

/-- the deadline of a task in its status and the reason of the abort after it. -/
def getTaskDeadline : Option (Time × TaskAbortReason) :=
  if t.status = .queued then
    match getQueueDeadline env t with
    | some d => some (d, .timeout)
    | none => none
  else if usesRelayOwnedTimeouts t = false then
    if t.taskType = .sdFTLora ∧ (t.status = .started ∨ t.status = .parametersUploaded ∨
        t.status = .errorReported ∨ t.status = .scoreReady ∨ t.status = .validated ∨
        t.status = .groupValidated) then
      t.startTime.map fun s => (s + seconds t.timeout, .timeout)
    else none
  else
    match t.status with
    | .started | .parametersUploaded =>
      t.startTime.map fun s => (s + seconds t.timeout, .timeout)
    | .scoreReady | .errorReported =>
      t.scoreReadyTime.map fun s =>
        (s + seconds env.appValidationTimeoutSeconds, .creatorValidationTimeout)
    | .validated | .groupValidated =>
      t.validatedTime.map fun s =>
        (s + seconds env.resultUploadTimeoutSeconds, .resultUploadTimeout)
    | _ => none

def InferenceTask.atTransition (st : TaskStatus) (now : Time) : InferenceTask :=
  match st with
  | .scoreReady | .errorReported => { t with status := st, scoreReadyTime := some now }
  | .validated | .groupValidated => { t with status := st, validatedTime := some now }
  | _ => { t with status := st }

def getTaskTransitionDeadline (st : TaskStatus) : Relay Time :=
  match getTaskDeadline env (t.atTransition st env.now) with
  | some (d, _) => pure d
  | none => Tx.fail .deadlineNotComputable

/-! ## creation -/

/-- `strings.Trim` of double quotes. -/
def trimQuotes (s : Text) : Text :=
  ((s.dropWhile fun c => c = '"').reverse.dropWhile fun c => c = '"').reverse

/-- `BigInt.UnmarshalJSON` into a zero value. -/
def unmarshalBigInt (data : Text) : Option Int :=
  if data = "null".toList then some 0 else Text.parseInt (trimQuotes data)

def InferenceTask.withQueueDeadline : InferenceTask :=
  { task with
    deadlineAt := match getQueueDeadline env task with
      | some d => some d
      | none => task.deadlineAt }

def createTask : Relay Unit := do
  match env.taskPricingError task with
  | some e => Tx.fail e
  | none =>
    Tx.require (env.taskModelsAllowed task = true) .modelNotWhitelisted
    let task := task.withQueueDeadline env
    let balance ← getRelayAccountFromCache task.creator
    Tx.require (task.taskFee ≤ balance) .insufficientRelayAccount
    Tx.transaction do
      let db ← Tx.getDb
      Tx.require (db.tasks.get task.taskIDCommitment = none) .duplicateKey
      Tx.modifyDb fun db =>
        { db with
          tasks := db.tasks.insert { task with id := db.tasks.keys.length + 1 } }
      createRelayAccountEvent .taskPayment (reason2 .taskPayment task.taskIDCommitment)
        task.creator task.taskFee
    addToCache ⟨task.creator, -task.taskFee⟩

/-! ## task income -/

/-- the floored shares of a pool, with the remainder added to the first one. -/
def delegatorFees (pool : Int) (stakes : List Int) : List Int :=
  match stakes.map fun s => pool * s / stakes.sum with
  | [] => []
  | f :: fs => (f + (pool - (f :: fs).sum)) :: fs

def totalDelegatorFee (address network : Text) (income : Int) : Int :=
  if 0 < env.delegatorShare address network ∧ env.delegationsOfNode address network ≠ [] then
    income * env.delegatorShare address network / 100
  else 0

def taskIncomeEvents (c address : Text) (amount : Int) (network : Text) : List EventDraft :=
  let dao := amount * env.daoTaskFeeSharePercent / 100
  let income := amount - dao
  let pool := totalDelegatorFee env address network income
  let users := if 0 < env.delegatorShare address network then
    env.delegationsOfNode address network else []
  (users.zip (delegatorFees pool (users.map (·.2)))).map (fun p =>
      ⟨.userDelegation, reason3 .userDelegation c p.1.1, p.1.1, p.2⟩) ++
    [⟨.taskIncome, reason2 .taskIncome c, address, income - pool⟩,
      ⟨.daoTaskShare, reason2 .daoTaskShare c, env.daoTaskFeeShareAddress, dao⟩]

def createRelayAccountEvents (events : List EventDraft) : Relay Unit :=
  Tx.each (fun e => createRelayAccountEvent e.type e.reason e.address e.amount) events

def loadAccounts (events : List EventDraft) : Relay Unit :=
  Tx.each (fun e => do let _ ← getRelayAccountFromCache e.address; pure ()) events

def sendTaskIncome (c address : Text) (amount : Int) (network : Text) : Relay CommitFunc := do
  let events := taskIncomeEvents env c address amount network
  Tx.transaction (createRelayAccountEvents events)
  loadAccounts events
  pure (events.map fun e => ⟨e.address, e.amount⟩)

/-! ## start, scores, validation -/

def isNodeVersionValidForTask (task : InferenceTask) : Bool :=
  node.majorVersion = task.versionNumbers.1 ∧ (task.versionNumbers.2.1 < node.minorVersion ∨
      (node.minorVersion = task.versionNumbers.2.1 ∧ task.versionNumbers.2.2 ≤ node.patchVersion))

/-- the smallest of the candidates that is loaded in memory, or else the smallest one. -/
def pickModelFile (candidates current : List Hash32) : Option Hash32 :=
  match (candidates.filter fun h => h ∈ current).min? with
  | some h => some h
  | none => candidates.min?

def insertHash (h : Hash32) : List Hash32 → List Hash32
  | [] => [h]
  | x :: l => if h < x then h :: x :: l else if h = x then x :: l else x :: insertHash h l

def sortedUniqueHashes (l : List Hash32) : List Hash32 := l.foldr insertHash []

def resolveExecutionModelFileHashes (files : List NodeModelFileRow) (current : List Hash32) :
    Option (List Hash32) := do
  let exact ← task.requiredModelFileHashes.mapM fun h =>
    if h ∈ files.map (·.modelFileHash) then some h else none
  let source ← task.requiredModelFileSourceHashes.mapM fun s =>
    pickModelFile ((files.filter fun f => f.modelFileSourceHash = s).map (·.modelFileHash)) current
  pure (sortedUniqueHashes (exact ++ source))

def currentModelFileHashes (db : Db) (address : Text) : List Hash32 :=
  match db.nodeInMemoryModels address with
  | some m => m.fileHashes
  | none => []

def startTimeout : Relay Nat :=
  if usesRelayOwnedTimeouts task then
    match env.executionTimeout task node.gpuName node.gpuVram with
    | .ok n => pure n
    | .error e => Tx.fail e
  else pure task.timeout

def setTaskStatusStarted (address : Text) : Relay Unit := do
  Tx.require (task.status = .queued) .wrongTaskStatus
  let node ← getNodeByAddress address
  Tx.require (isHealthExcluded env node = false) .nodeHealthExcluded
  Tx.require (isNodeVersionValidForTask node task = true) .nodeVersionIncompatible
  let db ← Tx.getDb
  let executionHashes ← Tx.orFail (resolveExecutionModelFileHashes task
    (db.nodeModels node.address) (currentModelFileHashes db node.address)) .modelFileNotHeld
  let timeout ← startTimeout env task node
  Tx.transaction do
    task.updateStatus (fun t => { t with
      selectedNode := node.address
      startTime := some env.now
      timeout := timeout
      status := .started
      deadlineAt := some (env.now + seconds timeout)
      executionModelFileHashes := executionHashes }) fun _ => rfl
    nodeStartTask env node task.taskIDCommitment

def checkTaskSelectedNode : Relay Node := do
  let node ← getNodeByAddress task.selectedNode
  Tx.require (node.currentTaskIDCommitment = some task.taskIDCommitment) .wrongNodeCurrentTask
  pure node

def setTaskStatusScoreReady : Relay Unit := do
  Tx.require (task.status = .started) .wrongTaskStatus
  let _ ← checkTaskSelectedNode task
  let deadline ← getTaskTransitionDeadline env task .scoreReady
  Tx.transaction (task.updateStatus (fun t => { t with
    status := .scoreReady
    score := task.score
    scoreReadyTime := some env.now
    deadlineAt := some deadline }) fun _ => rfl)

def setTaskStatusErrorReported : Relay Unit := do
  Tx.require (task.status = .started) .wrongTaskStatus
  let _ ← checkTaskSelectedNode task
  let deadline ← getTaskTransitionDeadline env task .errorReported
  Tx.transaction (task.updateStatus (fun t => { t with
    status := .errorReported
    taskError := task.taskError
    scoreReadyTime := some env.now
    deadlineAt := some deadline }) fun _ => rfl)

def setTaskStatusValidated : Relay Unit := do
  Tx.require (task.status = .scoreReady) .wrongTaskStatus
  let _ ← checkTaskSelectedNode task
  let deadline ← getTaskTransitionDeadline env task .validated
  Tx.transaction (task.updateStatus (fun t => { t with
    status := .validated
    taskID := task.taskID
    validatedTime := some env.now
    deadlineAt := some deadline }) fun _ => rfl)

def applyTaskQosScore (task : InferenceTask) : Relay Node :=
  match task.qosScore with
  | some q => updateNodeQosScore env node q
  | none => pure node

def setTaskStatusGroupValidated : Relay Unit := do
  Tx.require (task.status = .scoreReady) .wrongTaskStatus
  let node ← checkTaskSelectedNode task
  let deadline ← getTaskTransitionDeadline env task .groupValidated
  Tx.transaction do
    task.updateStatus (fun t => { t with
      status := .groupValidated
      taskID := task.taskID
      validatedTime := some env.now
      qosScore := task.qosScore
      deadlineAt := some deadline }) fun _ => rfl
    let _ ← applyTaskQosScore env node task
    pure ()

/-! ## terminal transitions -/

def createPendingSlash (evidenceComplete : Bool) : Relay Unit :=
  Tx.modifyDb fun db =>
    { db with
      pendingSlashes :=
        db.pendingSlashes ++ [⟨node.address, task.taskIDCommitment, evidenceComplete⟩] }

def setTaskStatusEndInvalidatedWithEvidence (evidenceComplete : Bool) : Relay Unit := do
  Tx.require (task.status = .scoreReady ∨ task.status = .endAborted ∨
    task.status = .errorReported) .wrongTaskStatus
  let node ← checkTaskSelectedNode task
  Tx.transaction do
    task.updateStatus (fun t => { t with
      status := .endInvalidated
      taskID := task.taskID
      validatedTime := some env.now
      qosScore := some 0
      deadlineAt := none }) fun _ => rfl
    if env.passiveSlashMode then
      createPendingSlash task node evidenceComplete
      nodeFinishTask env node
    else slashNode env node

def setTaskStatusEndGroupRefund : Relay Unit := do
  Tx.require (task.status = .scoreReady) .wrongTaskStatus
  let node ← checkTaskSelectedNode task
  Tx.transaction do
    let commitFunc ←
      refundTaskPaymentToRelayAccount task.taskIDCommitment task.creator task.taskFee
    let node ← applyTaskQosScore env node task
    task.updateStatus (fun t => { t with
      status := .endGroupRefund
      taskID := task.taskID
      validatedTime := some env.now
      qosScore := task.qosScore
      deadlineAt := none }) fun _ => rfl
    let node ← applyHealthBoost env node
    nodeFinishTask env node
    runCommitFunc commitFunc

def shouldUpdateNodeQosScoreOnAbort : Bool :=
  task.qosScore.isSome ∧ task.abortReason ≠ .creatorValidationTimeout ∧
    task.abortReason ≠ .resultUploadTimeout

/-- the node of an aborted task: none when no node was selected, and none as well when the node
has gone on to another task and the abort is not a timeout. -/
def abortedTaskNode : Relay (Option Node) := do
  if task.selectedNode = [] then pure none
  else
    let node ← getNodeByAddress task.selectedNode
    if node.currentTaskIDCommitment = some task.taskIDCommitment then pure (some node)
    else if task.abortReason = .timeout ∨ task.abortReason = .creatorValidationTimeout ∨
        task.abortReason = .resultUploadTimeout then Tx.fail .wrongNodeCurrentTask
    else pure none

/-- the node keeps the full fee after a creator timeout; every other abort refunds the creator. -/
def settleAbortedTask (node : Option Node) : Relay CommitFunc :=
  if task.abortReason = .creatorValidationTimeout then
    match node with
    | none => Tx.fail .noActiveSelectedNode
    | some n => sendTaskIncome env task.taskIDCommitment n.address task.taskFee n.network
  else refundTaskPaymentToRelayAccount task.taskIDCommitment task.creator task.taskFee

def applyAbortQosScore : Relay Node :=
  if shouldUpdateNodeQosScoreOnAbort task then applyTaskQosScore env node task else pure node

def applyAbortHealthPenalty : Relay Node :=
  if (task.abortReason = .timeout ∧ (task.status = .started ∨ task.status = .parametersUploaded)) ∨
      task.abortReason = .resultUploadTimeout then applyHealthPenalty env node
  else pure node

def releaseAbortedNode : Relay Unit := do
  let node ← applyAbortQosScore env task node
  let node ← applyAbortHealthPenalty env task node
  nodeFinishTask env node

def setTaskStatusEndAborted : Relay Unit := do
  if task.status = .endAborted then pure ()
  else
    Tx.require (task.status.isTerminal = false) .wrongTaskStatus
    Tx.transaction do
      let node ← abortedTaskNode task
      let commitFunc ← settleAbortedTask env task node
      task.updateStatus (fun t => { t with
        status := .endAborted
        taskID := task.taskID
        abortReason := task.abortReason
        validatedTime := task.validatedTime
        qosScore := task.qosScore
        deadlineAt := none }) fun _ => rfl
      match node with
      | some n => releaseAbortedNode env task n
      | none => pure ()
      runCommitFunc commitFunc

/-! ## settlement -/

structure TaskPayment where
  taskIDCommitment : Text
  address : Text
  payment : Int
  network : Text

def isPaidInGroup : Bool :=
  t.status = .groupValidated ∨ t.status = .endGroupRefund

def totalScore (tasks : List InferenceTask) : Nat := (tasks.map fun t => t.qosScore.getD 0).sum

/-- the loop over the paid members: each gets the quotient of its own fee and weight, the last one
the remainders as well. -/
def groupPayments (network : Text → Text) (score : Nat) : Int → List InferenceTask → List TaskPayment
  | _, [] => []
  | rem, t :: l =>
    let q := (t.taskFee * (t.qosScore.getD 0 : Nat)).tdiv score
    let rem' := rem + (t.taskFee * (t.qosScore.getD 0 : Nat)).tmod score
    let payment := if l = [] then q + rem' else q
    ⟨t.taskIDCommitment, t.selectedNode, payment, network t.selectedNode⟩ ::
      groupPayments network score rem' l

def nodeNetwork (db : Db) (a : Text) : Text :=
  match db.nodes.get a with
  | some n => n.network
  | none => []

def settlementPayments (db : Db) (task : InferenceTask) (node : Node)
    (tasks : List InferenceTask) : List TaskPayment × TaskStatus :=
  if 1 < tasks.length then
    let valid := tasks.filter isPaidInGroup
    (groupPayments (nodeNetwork db) (totalScore valid) 0 valid, .endGroupSuccess)
  else ([⟨task.taskIDCommitment, task.selectedNode, task.taskFee, node.network⟩], .endSuccess)

def sendTaskIncomes (env : Env) : List TaskPayment → Relay CommitFunc
  | [] => pure []
  | p :: l => do
    let f ← sendTaskIncome env p.taskIDCommitment p.address p.payment p.network
    let fs ← sendTaskIncomes env l
    pure (f ++ fs)

def setTaskStatusEndSuccess : Relay Unit := do
  let node ← checkTaskSelectedNode task
  let tasks ← getTaskGroupByTaskID task.taskID
  let db ← Tx.getDb
  -- `QuoRem` by a zero score panics before the transaction starts
  Tx.require (1 < tasks.length → tasks.filter isPaidInGroup ≠ [] →
    totalScore (tasks.filter isPaidInGroup) ≠ 0) .taskGroupIllegal
  let r := settlementPayments db task node tasks
  Tx.transaction do
    let commitFuncs ← sendTaskIncomes env r.1
    task.updateStatus (fun t => { t with
      status := r.2
      resultUploadedTime := some env.now
      deadlineAt := none }) fun _ => rfl
    let node ← applyHealthBoost env node
    nodeFinishTask env node
    runCommitFunc commitFuncs

end CrynuxRelay
