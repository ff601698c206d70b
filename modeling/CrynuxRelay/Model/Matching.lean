import CrynuxRelay.Model.System

/-!
# Matching: the node index, the candidates, the start of a pair

* `NodeIndexEntry`, `buildNodeIndexEntry` -- what the index holds of a node;
* `filterIndexEntriesForTaskAt`, `filterIndexEntriesByNodeNamePolicy`,
  `buildMatchingCandidateSet` -- the nodes that a task may run on;
* `MatchingRound` -- a round of the scheduler: its view of the index, the tasks it has read, the
  candidates by requirement and the matched pairs;
* `MatchOp`, `MatchOp.exec` -- the steps of the rounds, between all other operations of the relay.

The weighted draw among the candidates is a parameter of a step, and so are the answers of the
node-name policy.
-/

namespace CrynuxRelay

/-! ## the index -/

structure NodeIndexEntry where
  address : Text
  status : NodeStatus
  hasCurrentTask : Bool
  gpuName : Text
  gpuVram : Nat
  majorVersion : Nat
  minorVersion : Nat
  patchVersion : Nat
  healthBase : Rat
  healthUpdatedAt : Option Time
  healthExcluded : Bool
  onDiskModelFileHashes : List Hash32
  onDiskModelFileSourceHashes : List Hash32
  deriving DecidableEq

def buildNodeIndexEntry (node : Node) (files : List NodeModelFileRow) : NodeIndexEntry where
  address := node.address
  status := node.status
  hasCurrentTask := node.currentTaskIDCommitment.isSome
  gpuName := node.gpuName
  gpuVram := node.gpuVram
  majorVersion := node.majorVersion
  minorVersion := node.minorVersion
  patchVersion := node.patchVersion
  healthBase := node.healthBase
  healthUpdatedAt := node.healthUpdatedAt
  healthExcluded := node.healthExcluded
  onDiskModelFileHashes := files.map (·.modelFileHash)
  onDiskModelFileSourceHashes := files.map (·.modelFileSourceHash)

variable (e : NodeIndexEntry) (gpuName : Text)

/-- the columns that the health of a node is computed from. -/
def NodeIndexEntry.scoreNode : Node where
  address := e.address
  status := e.status
  healthBase := e.healthBase
  healthUpdatedAt := e.healthUpdatedAt
  healthExcluded := e.healthExcluded

/-- the entry of one node is read again; a node that has quit has none. -/
def refreshNodeIndex (db : Db) (index : List NodeIndexEntry) (address : Text) :
    List NodeIndexEntry :=
  let others := index.filter fun e => e.address ≠ address
  match db.nodes.get address with
  | none => others
  | some node =>
    if node.status = .quit then others
    else buildNodeIndexEntry node (db.nodeModels address) :: others

/-! ## candidates -/

def entryMatchesTaskVersion (v : Nat × Nat × Nat) : Bool :=
  e.majorVersion = v.1 ∧ (v.2.1 < e.minorVersion ∨ (e.minorVersion = v.2.1 ∧ v.2.2 ≤ e.patchVersion))

/-- `unicode.IsSpace`. -/
def isSpace (c : Char) : Bool :=
  c = ' ' ∨ (0x09 ≤ c.toNat ∧ c.toNat ≤ 0x0d) ∨ c.toNat = 0x85 ∨ c.toNat = 0xa0 ∨
    c.toNat = 0x1680 ∨ (0x2000 ≤ c.toNat ∧ c.toNat ≤ 0x200a) ∨ c.toNat = 0x2028 ∨
    c.toNat = 0x2029 ∨ c.toNat = 0x202f ∨ c.toNat = 0x205f ∨ c.toNat = 0x3000

/-- `strings.TrimSpace`. -/
def trimSpace (s : Text) : Text := ((s.dropWhile isSpace).reverse.dropWhile isSpace).reverse

/-- a name without a platform counts as Darwin. -/
def isDarwinGPUName : Bool :=
  match Text.splitN '+' 2 gpuName with
  | [_, platform] => trimSpace platform = "Darwin".toList
  | _ => true

def platformFromGPUName : Text :=
  match Text.splitN '+' 2 gpuName with
  | [_, platform] => trimSpace platform
  | _ => []

def isLinuxCudaPlatform : Bool :=
  platformFromGPUName gpuName = "docker".toList ∨ platformFromGPUName gpuName = "Linux".toList

def matchesHardware (task : InferenceTask) (gpuName : Text) (gpuVram : Nat) : Bool :=
  (!task.requireLinuxCuda || isLinuxCudaPlatform gpuName) &&
    if task.requiredGPU ≠ [] then
      decide (gpuName = task.requiredGPU ∧ gpuVram = task.requiredGPUVRAM)
    else decide (task.minVRAM ≤ gpuVram) &&
      !(decide (task.taskType = .llm) && isDarwinGPUName gpuName)

def filterIndexEntriesForTaskAt (env : Env) (task : InferenceTask)
    (entries : List NodeIndexEntry) : List NodeIndexEntry :=
  entries.filter fun e =>
    decide (e.status = .available) && !e.hasCurrentTask && !isHealthExcluded env e.scoreNode &&
      entryMatchesTaskVersion e task.versionNumbers && matchesHardware task e.gpuName e.gpuVram

/-- the settings of the node-name policy and the answers of its caches. -/
structure NodeNamePolicy where
  minimumNodeNameNumber : Nat := 0
  nodeNameWhitelistEnabled : Bool := false
  isNodeNameWhitelisted : NodeName → Bool := fun _ => true
  nodeNameActiveCount : NodeName → Nat := fun _ => 0

def NodeIndexEntry.name : NodeName :=
  ⟨e.gpuName, e.gpuVram, (e.majorVersion, e.minorVersion, e.patchVersion)⟩

def filterIndexEntriesByNodeNamePolicy (policy : NodeNamePolicy)
    (entries : List NodeIndexEntry) : List NodeIndexEntry :=
  entries.filter fun e =>
    (!policy.nodeNameWhitelistEnabled || policy.isNodeNameWhitelisted e.name) &&
      decide (policy.minimumNodeNameNumber ≤ policy.nodeNameActiveCount e.name ∨
        policy.minimumNodeNameNumber = 0)

/-- every exact file is held, and some file of every source. -/
def modelFilesCovered (exactHeld sourceHeld exact source : List Hash32) : Bool :=
  (exact.all fun h => h ∈ exactHeld) && source.all fun h => h ∈ sourceHeld

def NodeIndexEntry.holdsRequiredModelFiles (task : InferenceTask) : Bool :=
  modelFilesCovered e.onDiskModelFileHashes e.onDiskModelFileSourceHashes
    task.requiredModelFileHashes task.requiredModelFileSourceHashes

def buildMatchingCandidateSet (env : Env) (policy : NodeNamePolicy) (task : InferenceTask)
    (entries : List NodeIndexEntry) : List NodeIndexEntry :=
  (filterIndexEntriesByNodeNamePolicy policy (filterIndexEntriesForTaskAt env task entries)).filter
    fun e => e.holdsRequiredModelFiles task

/-- what the candidates of a task depend on. -/
structure RequirementSignature where
  taskType : TaskType
  minVRAM : Nat
  requiredGPU : Text
  requiredGPUVRAM : Nat
  taskVersion : Text
  versionNumbers : Nat × Nat × Nat
  requiredModelFileHashes : List Hash32
  requiredModelFileSourceHashes : List Hash32
  requestedModelCacheHash : Hash32
  requireLinuxCuda : Bool
  deriving DecidableEq

def InferenceTask.requirementSignature (t : InferenceTask) : RequirementSignature where
  taskType := t.taskType
  minVRAM := t.minVRAM
  requiredGPU := t.requiredGPU
  requiredGPUVRAM := t.requiredGPUVRAM
  taskVersion := t.taskVersion
  versionNumbers := t.versionNumbers
  requiredModelFileHashes := t.requiredModelFileHashes
  requiredModelFileSourceHashes := t.requiredModelFileSourceHashes
  requestedModelCacheHash := t.requestedModelCacheHash
  requireLinuxCuda := t.requireLinuxCuda

/-! ## rounds -/

structure MatchedPair where
  task : InferenceTask
  nodeAddress : Text

structure MatchingRound where
  entries : List NodeIndexEntry
  tasks : List InferenceTask := []
  candidateSets : List (RequirementSignature × List NodeIndexEntry) := []
  pairs : List MatchedPair := []

variable (round : MatchingRound) (env : Env) (policy : NodeNamePolicy) (task : InferenceTask)

def isQueuedTaskTimedOut : Bool :=
  match getTaskDeadline env task with
  | some (deadline, _) => decide (task.status = .queued) && decide (deadline ≤ env.now)
  | none => false

/-- the candidates of a task: those of an earlier task with the same requirements, or new ones. -/
def MatchingRound.candidates : List NodeIndexEntry :=
  match round.candidateSets.lookup task.requirementSignature with
  | some set => set
  | none => buildMatchingCandidateSet env policy task round.entries

def MatchingRound.available (set : List NodeIndexEntry) : List NodeIndexEntry :=
  set.filter fun e => e.address ∉ round.pairs.map (·.nodeAddress)

/-- the match of one task with the candidate that the draw has chosen, if there is one. -/
def MatchingRound.matchTask (draw : Nat) : MatchingRound :=
  if isQueuedTaskTimedOut env task ∨ env.taskModelsAllowed task = false then round
  else
    let set := round.candidates env policy task
    { round with
      candidateSets := (task.requirementSignature, set) :: round.candidateSets
      pairs := match (round.available set)[draw]? with
        | some e => round.pairs ++ [⟨task, e.address⟩]
        | none => round.pairs }

/-! ## the system -/

structure MatchState where
  relay : RelayState
  index : List NodeIndexEntry := []
  round : Option MatchingRound := none

def RelayOp.startsTask : RelayOp → Bool
  | .attempt _ _ (.start _) => true
  | _ => false

/-- the steps of the matching and everything that happens in between. -/
inductive MatchOp
  | relay (op : RelayOp) (h : op.startsTask = false)
  | refresh (address : Text)
  | snapshot
  | fetch (taskIDCommitment : Text)
  | matchTask (env : Env) (policy : NodeNamePolicy) (i draw : Nat)
  | start (env : Env) (i : Nat)

def MatchingRound.fetch (db : Db) (c : Text) : MatchingRound :=
  match db.tasks.get c with
  | some t => if t.status = .queued then { round with tasks := round.tasks ++ [t] } else round
  | none => round

def startMatchedPair (pair : MatchedPair) : Relay Unit :=
  setTaskStatusStarted env pair.task pair.nodeAddress

def MatchOp.exec (op : MatchOp) (s : MatchState) : MatchState :=
  match op with
  | .relay op _ => { s with relay := op.exec s.relay }
  | .refresh address =>
    { s with index := refreshNodeIndex s.relay.world.db s.index address }
  | .snapshot => { s with round := some { entries := s.index } }
  | .fetch c => { s with round := s.round.map fun r => r.fetch s.relay.world.db c }
  | .matchTask env policy i draw =>
    { s with
      round := s.round.map fun r =>
        match r.tasks[i]? with
        | some task => r.matchTask env policy task draw
        | none => r }
  | .start env i =>
    match s.round.bind fun r => r.pairs[i]? with
    | some pair =>
      { s with
        relay := { s.relay with world := Tx.after (startMatchedPair env pair) s.relay.world } }
    | none => s

end CrynuxRelay
