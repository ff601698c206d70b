import Mathlib.Data.Rat.Defs
import CrynuxRelay.Base.Table
import CrynuxRelay.Base.Text
import CrynuxRelay.Base.Tx

/-!
# The state of the relay

The rows of the database, the caches of the process and the errors of the service, each with the
fields that the modelled functions read or write.

* `InferenceTask`, `Node`, `RelayAccountEvent`, `WithdrawRecord`, `VestingRecord` -- the rows;
* `Db` -- the tables; `Mem` -- the in-memory caches; `World` -- both;
* `Relay` -- the computations of the service.

Amounts are unbounded integers (`BigInt`), times are nanoseconds, `float64` scores are rationals.
-/

namespace CrynuxRelay

abbrev Time := Int

abbrev Hash32 := Nat

/-! ## inference tasks -/

inductive TaskStatus
  | queued | started | parametersUploaded | errorReported | scoreReady | validated
  | groupValidated | endInvalidated | endSuccess | endAborted | endGroupRefund | endGroupSuccess
  deriving DecidableEq, Repr

inductive TaskType
  | sd | llm | sdFTLora
  deriving DecidableEq, Repr

inductive TaskAbortReason
  | none | timeout | modelDownloadFailed | incorrectResult | taskFeeTooLow | groupTimeout
  | errorReported | creatorCancelled | creatorValidationTimeout | resultUploadTimeout
  | nodeSlashed | modelNotAllowed
  deriving DecidableEq, Repr

inductive TaskError
  | none | parametersValidationFailed
  deriving DecidableEq, Repr

structure InferenceTask where
  id : Nat := 0
  taskIDCommitment : Text
  creator : Text
  taskArgs : Text := []
  samplingSeed : Text := []
  nonce : Text := []
  status : TaskStatus := .queued
  taskType : TaskType := .sd
  taskVersion : Text := []
  versionNumbers : Nat × Nat × Nat := (0, 0, 0)
  taskSize : Nat := 0
  modelIDs : List Text := []
  requiredModelFileHashes : List Hash32 := []
  requiredModelFileSourceHashes : List Hash32 := []
  executionModelFileHashes : List Hash32 := []
  requestedModelCacheHash : Hash32 := 0
  requireLinuxCuda : Bool := false
  timeout : Nat := 0
  queueTimeout : Nat := 0
  minVRAM : Nat := 0
  requiredGPU : Text := []
  requiredGPUVRAM : Nat := 0
  taskFee : Int
  abortReason : TaskAbortReason := .none
  taskError : TaskError := .none
  score : Text := []
  qosScore : Option Nat := Option.none
  selectedNode : Text := []
  taskID : Text := []
  deadlineAt : Option Time := Option.none
  createTime : Option Time := Option.none
  startTime : Option Time := Option.none
  scoreReadyTime : Option Time := Option.none
  validatedTime : Option Time := Option.none
  resultUploadedTime : Option Time := Option.none
  deriving DecidableEq

/-! ## nodes -/

inductive NodeStatus
  | quit | available | busy | pendingPause | pendingQuit | paused
  deriving DecidableEq, Repr

structure Node where
  address : Text
  network : Text := []
  status : NodeStatus := .quit
  gpuName : Text := []
  gpuVram : Nat := 0
  qosScore : Rat := 0
  majorVersion : Nat := 0
  minorVersion : Nat := 0
  patchVersion : Nat := 0
  stakeAmount : Int := 0
  joinTime : Time := 0
  healthBase : Rat := 1
  healthUpdatedAt : Option Time := Option.none
  healthExcluded : Bool := false
  currentTaskIDCommitment : Option Text := Option.none
  deriving DecidableEq

/-- a model file on the disk of a node, with the hash of its source. -/
structure NodeModelFileRow where
  modelFileHash : Hash32
  modelFileSourceHash : Hash32
  deriving DecidableEq

structure NodeInMemoryModel where
  currentModelCacheHash : Hash32
  fileHashes : List Hash32
  deriving DecidableEq

/-- the key of a node-name count: GPU name, VRAM, version. -/
structure NodeName where
  gpuName : Text
  gpuVram : Nat
  nodeVersion : Nat × Nat × Nat
  deriving DecidableEq

def Node.name (node : Node) : NodeName :=
  ⟨node.gpuName, node.gpuVram, (node.majorVersion, node.minorVersion, node.patchVersion)⟩

/-! ## relay accounts -/

inductive RelayAccountEventStatus
  | pending | processed | invalid
  deriving DecidableEq, Repr

inductive RelayAccountEventType
  | taskIncome | daoTaskShare | withdrawFeeIncome | deposit | taskPayment | taskRefund
  | withdraw | withdrawRefund | userDelegation | vestingCreated | vestingRelease
  deriving DecidableEq, Repr

def RelayAccountEventType.code : RelayAccountEventType → Nat
  | .taskIncome => 0
  | .daoTaskShare => 1
  | .withdrawFeeIncome => 2
  | .deposit => 3
  | .taskPayment => 4
  | .taskRefund => 5
  | .withdraw => 6
  | .withdrawRefund => 7
  | .userDelegation => 8
  | .vestingCreated => 9
  | .vestingRelease => 10

structure RelayAccountEvent where
  id : Nat
  address : Text
  amount : Int
  status : RelayAccountEventStatus
  reason : Text
  type : RelayAccountEventType
  deriving DecidableEq

/-- the event table: ids count up from one, and no two events have the same reason. -/
structure EventLog where
  rows : List RelayAccountEvent
  ids_eq : rows.map (·.id) = List.range' 1 rows.length
  reasons_nodup : (rows.map (·.reason)).Nodup

namespace EventLog

def empty : EventLog := ⟨[], rfl, List.nodup_nil⟩

def reasonTaken (log : EventLog) (reason : Text) : Bool :=
  log.rows.any fun e => e.reason = reason

/-- insert a pending event; a taken reason leaves the log as it is. -/
def append (log : EventLog) (t : RelayAccountEventType) (reason address : Text) (amount : Int) :
    EventLog :=
  if h : log.reasonTaken reason = true then log else
    { rows := log.rows ++ [⟨log.rows.length + 1, address, amount, .pending, reason, t⟩]
      ids_eq := by
        rw [List.map_append, log.ids_eq, List.length_append, List.map_singleton,
          List.length_singleton, List.range'_concat, Nat.one_mul, Nat.add_comm 1]
      reasons_nodup := by
        rw [List.map_append, List.map_singleton]
        refine List.nodup_append.2 ⟨log.reasons_nodup, List.nodup_singleton _, ?_⟩
        intro a ha b hb e
        rw [List.mem_singleton] at hb
        subst hb
        subst e
        obtain ⟨x, hx, hr⟩ := List.mem_map.1 ha
        exact h (List.any_eq_true.2 ⟨x, hx, decide_eq_true hr⟩) }

def mark (log : EventLog) (p : RelayAccountEvent → Bool) (st : RelayAccountEventStatus) :
    EventLog where
  rows := log.rows.map fun e => if p e then { e with status := st } else e
  ids_eq := by
    rw [List.map_map, List.length_map, ← log.ids_eq]
    exact List.map_congr_left fun e _ => by
      simp only [Function.comp_apply]
      split <;> rfl
  reasons_nodup := by
    rw [List.map_map, show (List.map _ log.rows) = log.rows.map (·.reason) from
      List.map_congr_left fun e _ => by
        simp only [Function.comp_apply]
        split <;> rfl]
    exact log.reasons_nodup

end EventLog

/-! ## deposits, withdrawals, vestings -/

inductive LocalStatus
  | pending | processed | invalid
  deriving DecidableEq, Repr

structure DepositRecord where
  address : Text
  amount : Int
  network : Text
  txHash : Text
  localStatus : LocalStatus
  relayAccountEventID : Nat
  deriving DecidableEq

inductive WithdrawStatus
  | pending | success | failed
  deriving DecidableEq, Repr

structure WithdrawRecord where
  id : Nat
  address : Text
  benefitAddress : Text := []
  amount : Int
  network : Text := []
  status : WithdrawStatus := .pending
  localStatus : LocalStatus := .pending
  relayAccountEventID : Nat := 0
  txHash : Option Text := Option.none
  withdrawalFee : Int := 0
  createdAt : Time := 0
  deriving DecidableEq

inductive VestingStatus
  | active | completed | deprecated
  deriving DecidableEq, Repr

structure VestingRecord where
  id : Nat
  address : Text
  totalAmount : Int
  releasedAmount : Int
  startTime : Time
  durationDays : Nat
  status : VestingStatus := .active
  slashed : Bool := false
  deriving DecidableEq

/-! ## slashing -/

structure PendingSlash where
  nodeAddress : Text
  taskIDCommitment : Text
  evidenceComplete : Bool
  deriving DecidableEq

/-! ## the database and the caches -/

structure Db where
  tasks : Table InferenceTask.taskIDCommitment := Table.empty
  nodes : Table Node.address := Table.empty
  nodeModels : Text → List NodeModelFileRow := fun _ => []
  nodeInMemoryModels : Text → Option NodeInMemoryModel := fun _ => none
  nodeNameCounts : NodeName → Option Nat := fun _ => none
  relayAccounts : Text → Option Int := fun _ => none
  relayAccountEvents : EventLog := EventLog.empty
  withdrawRecords : Table WithdrawRecord.id := Table.empty
  depositRecords : List DepositRecord := []
  vestingRecords : Table VestingRecord.id := Table.empty
  pendingSlashes : List PendingSlash := []

structure Mem where
  relayAccountCache : Text → Option Int := fun _ => none
  nodeQoSScorePool : Text → Option (List Nat) := fun _ => none
  nodeNameCountLoaded : Bool := false
  nodeNameCountCache : NodeName → Nat := fun _ => 0

abbrev World := Sys Db Mem

inductive Err
  | recordNotFound
  | duplicateKey
  | wrongTaskStatus
  | taskStatusChanged
  | wrongNodeCurrentTask
  | nodeStatusChanged
  | illegalNodeStatus
  | nodeNotAvailable
  | nodeHealthExcluded
  | nodeAlreadyQuit
  | nodeVersionIncompatible
  | modelFileNotHeld
  | nodeNameCountEntryMissing
  | nodeNameCountAlreadyZero
  | insufficientRelayAccount
  | taskNotPriceable
  | modelNotWhitelisted
  | noActiveSelectedNode
  | deadlineNotComputable
  | invalidReason
  | chain
  | invalidStatement
  | unsupportedWithdrawNetwork
  | withdrawRequestNotPending
  | withdrawRequestNotProcessedLocally
  | withdrawDailyLimitExceeded
  | vestingRecordNotFound
  | vestingReleaseExceedsSchedule
  | vestingReleaseRangeInvalid
  | invalidReleaseRange
  | releaseAmountNotPositive
  | taskGroupIllegal
  | validationIllegal
  | validationAlreadyApplied
  | inconsistentExecutionModelFiles
  | queueTimeoutNotAllowed
  | queueTimeoutZero
  | queueTimeoutTooLarge
  | validationError (field message : String)
  deriving DecidableEq, Repr

abbrev Relay := Tx Db Mem Err

/-! ## statements -/

/-- `First` of a task by its commitment. -/
def getTaskByIDCommitment (c : Text) : Relay InferenceTask := do
  let db ← Tx.getDb
  Tx.orFail (db.tasks.get c) .recordNotFound

def getTaskGroupByTaskID (taskID : Text) : Relay (List InferenceTask) := do
  let db ← Tx.getDb
  pure (db.tasks.rows.filter fun t => t.taskID = taskID)

/-- `InferenceTask.Update` of a status: conditional on the status that the caller has read. -/
def InferenceTask.updateStatus (task : InferenceTask) (f : InferenceTask → InferenceTask)
    (hf : ∀ t, (f t).taskIDCommitment = t.taskIDCommitment) : Relay Unit := do
  let db ← Tx.getDb
  let row ← Tx.orFail (db.tasks.get task.taskIDCommitment) .taskStatusChanged
  Tx.require (row.status = task.status) .taskStatusChanged
  Tx.modifyDb fun db => { db with tasks := db.tasks.modify task.taskIDCommitment f hf }

def InferenceTask.update (task : InferenceTask) (f : InferenceTask → InferenceTask)
    (hf : ∀ t, (f t).taskIDCommitment = t.taskIDCommitment) : Relay Unit :=
  Tx.modifyDb fun db => { db with tasks := db.tasks.modify task.taskIDCommitment f hf }

def getNodeByAddress (a : Text) : Relay Node := do
  let db ← Tx.getDb
  Tx.orFail (db.nodes.get a) .recordNotFound

/-- `Node.Update` of a status: conditional on the status that the caller has read. -/
def Node.updateStatus (node : Node) (f : Node → Node)
    (hf : ∀ n, (f n).address = n.address) : Relay Unit := do
  let db ← Tx.getDb
  let row ← Tx.orFail (db.nodes.get node.address) .nodeStatusChanged
  Tx.require (row.status = node.status) .nodeStatusChanged
  Tx.modifyDb fun db => { db with nodes := db.nodes.modify node.address f hf }

def Node.update (node : Node) (f : Node → Node) (hf : ∀ n, (f n).address = n.address) :
    Relay Unit :=
  Tx.modifyDb fun db => { db with nodes := db.nodes.modify node.address f hf }

end CrynuxRelay
