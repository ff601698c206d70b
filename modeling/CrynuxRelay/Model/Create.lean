import CrynuxRelay.Model.Task

/-!
# The creation requests

* `TaskApi` -- what the request handlers read besides the database: the whitelist, the parsers of
  the task arguments, the model registry, the random seed;
* `createTaskRequest` -- the single request;
* `createBatchItem` -- an item of the batch request.

The signature check gives the address of the signer, which is the creator.
-/

namespace CrynuxRelay

structure TaskArgsData where
  taskArgs : Text
  taskVersion : Text
  versionNumbers : Nat × Nat × Nat
  taskSize : Nat
  modelIDs : List Text

structure TaskModelRequirements where
  requiredModelFileHashes : List Hash32
  requiredModelFileSourceHashes : List Hash32
  requestedModelCacheHash : Hash32

structure TaskApi where
  taskWhitelistEnabled : Bool := false
  isTaskCreatorWhitelisted : Text → Except Err Bool := fun _ => .ok true
  validateTaskArgs : TaskType → Text → Except Err Unit := fun _ _ => .ok ()
  deriveTaskArgs : TaskType → Text → Except Err TaskArgsData :=
    fun _ args => .ok ⟨args, [], (0, 0, 0), 0, []⟩
  prepareTaskModelRequirements : TaskType → Text → Except Err TaskModelRequirements :=
    fun _ _ => .ok ⟨[], [], 0⟩
  normalizeGPUName : Text → Text := id
  maxQueueTimeoutSeconds : Nat := 0
  samplingSeed : Text := []

/-- a request; `taskFee` is the JSON text of the fee. -/
structure TaskInput where
  taskIDCommitment : Text
  taskArgs : Text
  taskType : TaskType
  nonce : Text
  minVram : Option Nat
  requiredGPU : Option Text
  requiredGPUVram : Option Nat
  taskFee : Text
  timeout : Nat
  queueTimeout : Option Nat

variable (env : Env) (api : TaskApi) (input : TaskInput) (address : Text)

def resolveQueueTimeout (taskType : TaskType) (requested : Option Nat) : Except Err Nat :=
  if taskType = .sdFTLora then
    if requested.isSome then .error .queueTimeoutNotAllowed else .ok 0
  else
    match requested with
    | none => .ok env.defaultQueueTimeoutSeconds
    | some 0 => .error .queueTimeoutZero
    | some n => if api.maxQueueTimeoutSeconds < n then .error .queueTimeoutTooLarge else .ok n

def liftExcept {α : Type} (x : Except Err α) : Relay α :=
  match x with
  | .ok a => pure a
  | .error e => Tx.fail e

def newTask (fee : Int) (args : TaskArgsData) (minVram queueTimeout : Nat) : InferenceTask :=
  { taskIDCommitment := input.taskIDCommitment
    creator := address
    taskArgs := args.taskArgs
    samplingSeed := api.samplingSeed
    nonce := input.nonce
    status := .queued
    taskType := input.taskType
    taskVersion := args.taskVersion
    versionNumbers := args.versionNumbers
    taskSize := args.taskSize
    modelIDs := args.modelIDs
    queueTimeout := queueTimeout
    minVRAM := minVram
    requiredGPU := match input.requiredGPU with
      | some g => api.normalizeGPUName g
      | none => []
    requiredGPUVRAM := input.requiredGPUVram.getD 0
    taskFee := fee
    createTime := some env.now }

def InferenceTask.setModelRequirements (t : InferenceTask) (r : TaskModelRequirements) :
    InferenceTask :=
  { t with
    requiredModelFileHashes := r.requiredModelFileHashes
    requiredModelFileSourceHashes := r.requiredModelFileSourceHashes
    requestedModelCacheHash := r.requestedModelCacheHash }

def checkCreatorAllowed : Relay Unit :=
  Tx.when api.taskWhitelistEnabled do
    let allowed ← liftExcept (api.isTaskCreatorWhitelisted address)
    Tx.require (allowed = true) (.validationError "address" "Signer not allowed")

def queueTimeoutErrorResponse : Err → Err
  | .queueTimeoutNotAllowed => .validationError "queue_timeout"
      "queue_timeout is only supported for ordinary SD and LLM tasks"
  | .queueTimeoutZero => .validationError "queue_timeout" "queue_timeout must be greater than 0"
  | .queueTimeoutTooLarge => .validationError "queue_timeout"
      "queue_timeout exceeds max_queue_timeout_seconds"
  | e => e

def createTaskErrorResponse : Err → Err
  | .insufficientRelayAccount => .validationError "task_fee" "Insufficient relay account balance"
  | .modelNotWhitelisted => .validationError "task_args" "Model not allowed"
  | e => e

def createTaskRequest : Relay Unit := do
  let fee ← Tx.orFail (unmarshalBigInt input.taskFee)
    (.validationError "task_fee" "not a valid big integer")
  checkCreatorAllowed api address
  liftExcept (api.validateTaskArgs input.taskType input.taskArgs)
  Tx.require (¬ (input.taskType = .sdFTLora ∧ input.timeout = 0))
    (.validationError "timeout" "Timeout is required for fine-tune tasks")
  let queueTimeout ← Tx.mapErr queueTimeoutErrorResponse
    (liftExcept (resolveQueueTimeout env api input.taskType input.queueTimeout))
  let minVram ← Tx.orFail input.minVram (.validationError "min_vram" "min_vram is required")
  let args ← liftExcept (api.deriveTaskArgs input.taskType input.taskArgs)
  let db ← Tx.getDb
  Tx.require (db.tasks.get input.taskIDCommitment = none)
    (.validationError "task_id_commitment" "Task already uploaded")
  let requirements ← liftExcept (api.prepareTaskModelRequirements input.taskType args.taskArgs)
  let task := (newTask env api input address fee args minVram queueTimeout).setModelRequirements
    requirements
  -- the requested timeout counts for fine-tune tasks only
  Tx.mapErr createTaskErrorResponse (createTask env { task with
    timeout := if input.taskType = .sdFTLora then input.timeout else 0 })

/-! ## batches -/

inductive BatchOutcome
  | created | alreadyExists | commitmentConflict | permanentError | temporaryError
  deriving DecidableEq, Repr

def immutableTaskInputEqual (existing candidate : InferenceTask) : Bool :=
  existing.creator = candidate.creator ∧ existing.taskArgs = candidate.taskArgs ∧
    existing.nonce = candidate.nonce ∧ existing.taskType = candidate.taskType ∧
    existing.taskVersion = candidate.taskVersion ∧ existing.minVRAM = candidate.minVRAM ∧
    existing.requiredGPU = candidate.requiredGPU ∧
    existing.requiredGPUVRAM = candidate.requiredGPUVRAM ∧
    existing.taskFee = candidate.taskFee ∧ existing.taskSize = candidate.taskSize ∧
    existing.queueTimeout = candidate.queueTimeout ∧ existing.modelIDs = candidate.modelIDs

def existingOutcome (existing candidate : InferenceTask) : BatchOutcome :=
  if immutableTaskInputEqual existing candidate then .alreadyExists else .commitmentConflict

def prepareBatchTask : Except Err InferenceTask := do
  let fee ← match unmarshalBigInt input.taskFee with
    | some f => pure f
    | none => throw (.validationError "task_fee" "not a valid big integer")
  if input.taskType ≠ .sd ∧ input.taskType ≠ .llm then
    throw (.validationError "task_type"
      "batch creation supports only ordinary SD and LLM tasks")
  match input.minVram with
  | none => throw (.validationError "min_vram" "min_vram is required")
  | some minVram =>
    let queueTimeout ← resolveQueueTimeout env api input.taskType input.queueTimeout
    if input.taskIDCommitment = [] ∨ input.taskArgs = [] ∨ input.nonce = [] then
      throw (.validationError "items" "required task input is missing")
    api.validateTaskArgs input.taskType input.taskArgs
    let args ← api.deriveTaskArgs input.taskType input.taskArgs
    pure (newTask env api input address fee args minVram queueTimeout)

/-- whether an error of the model requirements is the fault of the request. -/
def isPermanentRequirementError : Err → Bool
  | .validationError _ _ => true
  | _ => false

def createBatchItem : Relay BatchOutcome := do
  match prepareBatchTask env api input address with
  | .error _ => pure .permanentError
  | .ok candidate =>
    let db ← Tx.getDb
    match db.tasks.get candidate.taskIDCommitment with
    | some existing => pure (existingOutcome existing candidate)
    | none =>
      match api.prepareTaskModelRequirements candidate.taskType candidate.taskArgs with
      | .error e =>
        pure (if isPermanentRequirementError e then .permanentError else .temporaryError)
      | .ok requirements =>
        let candidate := candidate.setModelRequirements requirements
        match ← Tx.attempt (createTask env candidate) with
        | .ok () => pure .created
        | .error e =>
          let db ← Tx.getDb
          match db.tasks.get candidate.taskIDCommitment with
          | some existing => pure (existingOutcome existing candidate)
          | none =>
            pure (if e = .insufficientRelayAccount ∨ e = .modelNotWhitelisted then
              .permanentError else .temporaryError)

end CrynuxRelay
