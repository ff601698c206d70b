import CrynuxRelay.Base.Tally
import CrynuxRelay.Model.RelayAccount

/-!
# Nodes: counts, scores, health, status

* `Env` -- what an operation reads from outside the database: the time, the configuration, the
  delegation caches and the answers of the staking contracts;
* `incrementNodeNameCountTx`, `decrementNodeNameCountTx` -- the persisted node-name counts;
* `updateNodeQosScore`, `shouldPermanentKickout` -- the in-memory score pools;
* `setNodeStatusQuitTx`, `nodeStartTask`, `nodeFinishTask`, `slashNode` -- the status changes.
-/

namespace CrynuxRelay

/-! ## the environment of an operation -/

lemma default_ratio_nonneg : ∀ tier ∈ ([] : List (Nat × Rat)), 0 ≤ tier.2 := by simp

/-- a network that deposits and withdrawals run on; amounts are in ether, and the ratio of a fee
tier is at least zero and below one. -/
structure FundingNetwork where
  withdrawalFee : Nat
  withdrawalMin : Nat
  withdrawalFeeTiers : List (Nat × Rat) := []
  ratio_nonneg : ∀ tier ∈ withdrawalFeeTiers, 0 ≤ tier.2 := by first | exact default_ratio_nonneg | simp
  maxWithdrawalsPerDay : Nat

lemma default_stake_pos (_ _ : Text) : ∀ p ∈ ([] : List (Text × Int)), 0 < p.2 := by simp

lemma default_taskID_empty (_ _ : Text) : decide (([] : Text) ≠ []) = false := by simp

/-- shares are percentages, the stakes of the delegators of a node are positive, and the empty text
is not a hexadecimal task id. -/
structure Env where
  now : Time := 0
  daoTaskFeeSharePercent : Nat := 0
  dao_le : daoTaskFeeSharePercent ≤ 100 := by first | exact Nat.zero_le (nat_lit 100) | decide
  daoTaskFeeShareAddress : Text := []
  withdrawalFeeAddress : Text := []
  delegatorShare : Text → Text → Nat := fun _ _ => 0
  share_le : ∀ a n, delegatorShare a n ≤ 100 := by
    first | exact fun _ _ => Nat.zero_le (nat_lit 100) | simp
  delegationsOfNode : Text → Text → List (Text × Int) := fun _ _ => []
  stake_pos : ∀ a n, ∀ p ∈ delegationsOfNode a n, 0 < p.2 := by
    first | exact default_stake_pos | simp
  scorePoolSize : Nat := 0
  kickoutThreshold : Rat := 0
  effectiveHealthAt : Rat → Option Time → Time → Rat := fun h _ _ => h
  healthExcludeExitThreshold : Rat := 0
  healthExcludeEnterThreshold : Rat := 0
  firstTimeoutHealthThreshold : Rat := 0
  firstTimeoutPenaltyFactor : Rat := 1
  penaltyFactor : Rat := 1
  successBoost : Rat := 0
  rejoinQosLongFloor : Rat := 0
  maxQosScore : Rat := 10
  passiveSlashMode : Bool := false
  stakingStatus : Text → Text → Option Nat := fun _ _ => some 0
  taskPricingError : InferenceTask → Option Err := fun _ => none
  taskModelsAllowed : InferenceTask → Bool := fun _ => true
  defaultQueueTimeoutSeconds : Nat := 0
  appValidationTimeoutSeconds : Nat := 0
  resultUploadTimeoutSeconds : Nat := 0
  executionTimeout : InferenceTask → Text → Nat → Except Err Nat := fun t _ _ => .ok t.timeout
  distanceThreshold : Nat := 5
  validTaskID : Text → Text → Text → Bool := fun taskID _ _ => taskID ≠ []
  validTaskID_empty : ∀ nonce c, validTaskID [] nonce c = false := by
    first | exact default_taskID_empty | simp
  validVRFProof : Text → Text → Text → Text → Bool → Bool := fun _ _ _ _ _ => true
  slashEvidence : InferenceTask → Node → Except Err Bool := fun _ _ => .ok true
  modelFileAllowed : NodeModelFileRow → Bool := fun _ => true
  joinError : Node → Option Err := fun _ => none
  defaultStakeAmount : Int := 0
  fundingNetwork : Text → Option FundingNetwork := fun _ => none
  benefitAddress : Text → Text → Option Text := fun _ _ => none

/-! ## node-name counts -/

def isNodeStatusActiveForNodeNameCount (st : NodeStatus) : Bool :=
  st ≠ .quit ∧ st ≠ .paused

variable (env : Env) (node : Node)

def incrementNodeNameCountTx : Relay Unit :=
  Tx.modifyDb fun db => { db with nodeNameCounts := Tally.inc db.nodeNameCounts node.name }

def decrementNodeNameCountTx : Relay Unit := do
  let db ← Tx.getDb
  match Tally.dec db.nodeNameCounts node.name with
  | some counts => Tx.modifyDb fun db => { db with nodeNameCounts := counts }
  | none =>
    Tx.fail (if db.nodeNameCounts node.name = none then .nodeNameCountEntryMissing
      else .nodeNameCountAlreadyZero)

def applyNodeNameCountDeltaToCache (name : NodeName) (delta : Int) : Relay Unit :=
  Tx.modifyMem fun m =>
    if m.nodeNameCountLoaded then
      { m with
        nodeNameCountCache := Function.update m.nodeNameCountCache name
          ((m.nodeNameCountCache name : Int) + delta).toNat }
    else m

/-! ## scores and health -/

def qosPoolSize : Nat := if env.scorePoolSize = 0 then 50 else env.scorePoolSize

/-- the pool of a node, seeded from its persisted score when the node has none. -/
def qosPoolOf (m : Mem) (node : Node) : List Nat :=
  match m.nodeQoSScorePool node.address with
  | some p => p
  | none =>
    if 0 < node.qosScore then List.replicate (qosPoolSize env - 1) node.qosScore.floor.toNat
    else []

def pushQosScore (size : Nat) (pool : List Nat) (qos : Nat) : List Nat :=
  if size < (pool ++ [qos]).length then (pool ++ [qos]).tail else pool ++ [qos]

def getNodeTaskQosScore (qos : Nat) : Relay Rat := do
  let m ← Tx.getMem
  let pool := pushQosScore (qosPoolSize env) (qosPoolOf env m node) qos
  Tx.modifyMem fun m =>
    { m with nodeQoSScorePool := Function.update m.nodeQoSScorePool node.address (some pool) }
  pure ((pool.sum : Rat) / (pool.length : Rat))

def updateNodeQosScore (qos : Nat) : Relay Node := do
  let score ← getNodeTaskQosScore env node qos
  node.update (fun n => { n with qosScore := score }) fun _ => rfl
  pure { node with qosScore := score }

def shouldPermanentKickout (m : Mem) (node : Node) : Bool :=
  match m.nodeQoSScorePool node.address with
  | none => false
  | some pool => decide (env.scorePoolSize ≤ pool.length ∧ node.qosScore < env.kickoutThreshold)

def isHealthExcluded : Bool :=
  node.healthExcluded &&
    decide (env.effectiveHealthAt node.healthBase node.healthUpdatedAt env.now <
      env.healthExcludeExitThreshold)

def calculatePenalizedHealth (h : Rat) : Rat :=
  if env.firstTimeoutHealthThreshold ≤ h then h * env.firstTimeoutPenaltyFactor
  else h * env.penaltyFactor

def calculateBoostedHealth (h : Rat) : Rat :=
  if 1 < h + env.successBoost then 1 else h + env.successBoost

def applyHealthPenalty : Relay Node := do
  let h := calculatePenalizedHealth env
    (env.effectiveHealthAt node.healthBase node.healthUpdatedAt env.now)
  let excluded := decide (h < env.healthExcludeEnterThreshold)
  node.update (fun n => { n with
    healthBase := h, healthUpdatedAt := some env.now,
    healthExcluded := excluded || n.healthExcluded }) fun _ => rfl
  pure { node with
    healthBase := h, healthUpdatedAt := some env.now,
    healthExcluded := excluded || node.healthExcluded }

def applyHealthBoost : Relay Node := do
  let h := calculateBoostedHealth env
    (env.effectiveHealthAt node.healthBase node.healthUpdatedAt env.now)
  node.update (fun n => { n with healthBase := h, healthUpdatedAt := some env.now }) fun _ => rfl
  pure { node with healthBase := h, healthUpdatedAt := some env.now }

/-! ## quitting -/

def clearNodeModelState (address : Text) : Relay Unit :=
  Tx.modifyDb fun db =>
    { db with
      nodeModels := Function.update db.nodeModels address []
      nodeInMemoryModels := Function.update db.nodeInMemoryModels address none }

def slashNodeVestingsTx (address : Text) : Relay Unit :=
  Tx.modifyDb fun db =>
    { db with
      vestingRecords := db.vestingRecords.mapRows (fun v =>
        if v.address = address ∧ v.status = .active ∧ v.slashed = false then
          { v with slashed := true } else v) fun v => by split <;> rfl }

def getStakingStatus : Relay Nat :=
  Tx.orFail (env.stakingStatus node.address node.network) .chain

def setNodeStatusQuitTx (slashed : Bool) : Relay Bool := do
  let wasActiveBeforeQuit := isNodeStatusActiveForNodeNameCount node.status
  clearNodeModelState node.address
  node.updateStatus (fun n => { n with
    status := .quit, currentTaskIDCommitment := none, stakeAmount := 0 }) fun _ => rfl
  Tx.when wasActiveBeforeQuit (decrementNodeNameCountTx node)
  let _ ← getStakingStatus env node
  Tx.when slashed (slashNodeVestingsTx node.address)
  pure wasActiveBeforeQuit

def applyNodeQuitPostCommit (wasActiveBeforeQuit : Bool) : Relay Unit :=
  Tx.when wasActiveBeforeQuit (applyNodeNameCountDeltaToCache node.name (-1))

def setNodeStatusQuit (slashed : Bool) : Relay Unit := do
  let wasActiveBeforeQuit ← Tx.transaction (setNodeStatusQuitTx env node slashed)
  applyNodeQuitPostCommit node wasActiveBeforeQuit

/-! ## the current task -/

def nodeStartTask (taskIDCommitment : Text) : Relay Unit := do
  Tx.require (node.status = .available ∧ node.currentTaskIDCommitment = none) .nodeNotAvailable
  Tx.require (isHealthExcluded env node = false) .nodeHealthExcluded
  Tx.transaction
    (node.updateStatus (fun n => { n with
      status := .busy, currentTaskIDCommitment := some taskIDCommitment,
      healthExcluded := if node.healthExcluded then false else n.healthExcluded }) fun _ => rfl)

/-- the node leaves its task: kicked out, available again, quit or paused. -/
def nodeFinishTask : Relay Unit := do
  Tx.require (node.status = .busy ∨ node.status = .pendingPause ∨ node.status = .pendingQuit)
    .illegalNodeStatus
  let taskIDCommitment ← Tx.orFail node.currentTaskIDCommitment .illegalNodeStatus
  let m ← Tx.getMem
  if shouldPermanentKickout env m node then
    let _ ← getTaskByIDCommitment taskIDCommitment
    let wasActiveBeforeQuit ← Tx.transaction (setNodeStatusQuitTx env node false)
    applyNodeQuitPostCommit node wasActiveBeforeQuit
  else
    match node.status with
    | .busy =>
      node.updateStatus (fun n => { n with
        status := .available, currentTaskIDCommitment := none }) fun _ => rfl
    | .pendingQuit => setNodeStatusQuit env node false
    | .pendingPause =>
      Tx.transaction do
        node.updateStatus (fun n => { n with
          status := .paused, currentTaskIDCommitment := none }) fun _ => rfl
        decrementNodeNameCountTx node
      applyNodeNameCountDeltaToCache node.name (-1)
    | _ => pure ()

/-! ## slashing -/

def TaskStatus.isTerminal : TaskStatus → Bool
  | .endInvalidated | .endSuccess | .endAborted | .endGroupRefund | .endGroupSuccess => true
  | _ => false

def abortNodeCurrentTaskForSlash : Relay CommitFunc := do
  match node.currentTaskIDCommitment with
  | none => pure []
  | some c =>
    let task ← getTaskByIDCommitment c
    Tx.require (task.selectedNode = node.address) .wrongNodeCurrentTask
    if task.status.isTerminal then pure []
    else
      let commitFunc ←
        refundTaskPaymentToRelayAccount task.taskIDCommitment task.creator task.taskFee
      task.updateStatus (fun t => { t with
        status := .endAborted, abortReason := .nodeSlashed, deadlineAt := none }) fun _ => rfl
      pure commitFunc

def slashNodeTx : Relay (Bool × CommitFunc) := do
  let postCommit ← abortNodeCurrentTaskForSlash node
  let wasActiveBeforeQuit ← setNodeStatusQuitTx env node true
  pure (wasActiveBeforeQuit, postCommit)

def slashNode : Relay Unit := do
  Tx.require (node.status ≠ .quit) .nodeAlreadyQuit
  let r ← Tx.transaction (slashNodeTx env node)
  runCommitFunc r.2
  applyNodeQuitPostCommit node r.1

end CrynuxRelay
