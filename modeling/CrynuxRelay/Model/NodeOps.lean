import CrynuxRelay.Model.Node

/-!
# The node requests

* `nodeJoin`, `updateNodeVersion`, `syncNodeCapabilities` -- what a node tells about itself;
* `nodePause`, `nodeResume`, `nodeQuit` -- the status requests, each with up to three attempts;
* `NodeOp`, `NodeOp.tx` -- all operations on nodes, each with the row that it reads.
-/

namespace CrynuxRelay

/-! ## joining -/

def parseNodeVersion (v : Text) : Option (Nat × Nat × Nat) :=
  match Text.splitN '.' 4 v with
  | [a, b, c] =>
    match Text.parseUint 64 a, Text.parseUint 64 b, Text.parseUint 64 c with
    | some x, some y, some z => some (x, y, z)
    | _, _, _ => none
  | _ => none

variable (env : Env) (node : Node) (address : Text)

/-- the model files on the disk of a node are the allowed ones of `files`. -/
def replaceNodeModelFiles (files : List NodeModelFileRow) : Relay Unit :=
  Tx.modifyDb fun db =>
    { db with
      nodeModels := Function.update db.nodeModels address (files.filter env.modelFileAllowed) }

def resetNodeQosScorePool : Relay Unit :=
  Tx.modifyMem fun m =>
    { m with nodeQoSScorePool := Function.update m.nodeQoSScorePool address none }

def adjustNodeQosForJoin (isNewNode : Bool) : Relay Node :=
  if isNewNode ∨ env.rejoinQosLongFloor ≤ node.qosScore / env.maxQosScore then pure node
  else do
    resetNodeQosScorePool node.address
    pure { node with qosScore := env.rejoinQosLongFloor * env.maxQosScore }

def saveRow (nodes : Table Node.address) (node : Node) : Table Node.address :=
  match nodes.get node.address with
  | none => nodes.insert node
  | some _ => nodes.modify node.address (fun n => { node with address := n.address }) fun _ => rfl

def Node.save : Relay Unit :=
  Tx.modifyDb fun db => { db with nodes := saveRow db.nodes node }

def Node.joined (env : Env) : Node :=
  { node with
    status := .available
    joinTime := env.now
    healthBase := 1
    healthUpdatedAt := some env.now
    healthExcluded := false }

def setNodeStatusJoin (modelFiles : List NodeModelFileRow) : Relay Unit := do
  match env.joinError node with
  | some e => Tx.fail e
  | none =>
    let node := node.joined env
    Tx.transaction do
      node.save
      replaceNodeModelFiles env node.address modelFiles
      Tx.modifyDb fun db =>
        { db with nodeInMemoryModels := Function.update db.nodeInMemoryModels node.address none }
      incrementNodeNameCountTx node
    applyNodeNameCountDeltaToCache node.name 1

/-- the capabilities of a node, with a normalized GPU name. -/
structure NodeCapabilities where
  gpuName : Text
  gpuVram : Nat
  version : Text
  modelFiles : List NodeModelFileRow

structure JoinInput extends NodeCapabilities where
  address : Text
  network : Text
  staking : Int

def Node.withCapabilities (gpuName : Text) (gpuVram : Nat) (v : Nat × Nat × Nat) : Node :=
  { node with
    gpuName := gpuName
    gpuVram := gpuVram
    majorVersion := v.1
    minorVersion := v.2.1
    patchVersion := v.2.2 }

lemma Node.address_withCapabilities (gpuName : Text) (gpuVram : Nat) (v : Nat × Nat × Nat) :
    (node.withCapabilities gpuName gpuVram v).address = node.address := rfl

def nodeJoin (input : JoinInput) : Relay Unit := do
  let v ← Tx.orFail (parseNodeVersion input.version)
    (.validationError "version" "Invalid node version")
  let db ← Tx.getDb
  let node : Node := match db.nodes.get input.address with
    | none => { address := input.address, qosScore := 5, status := .quit }
    | some n => n
  let node : Node := { node.withCapabilities input.gpuName input.gpuVram v with network := input.network }
  Tx.require (node.status = .quit) (.validationError "address" "Node already joined")
  let node ← adjustNodeQosForJoin env node (db.nodes.get input.address).isNone
  setNodeStatusJoin env
    { node with stakeAmount := if input.staking = 0 then env.defaultStakeAmount else input.staking }
    input.modelFiles

/-! ## versions and capabilities -/

def updateNodeVersion (version : Text) : Relay Unit := do
  let v ← Tx.orFail (parseNodeVersion version)
    (.validationError "version" "Invalid node version")
  let db ← Tx.getDb
  Tx.modifyDb fun db =>
    { db with
      nodes := db.nodes.modify address (fun n => { n with
        majorVersion := v.1, minorVersion := v.2.1, patchVersion := v.2.2 }) fun _ => rfl }
  Tx.require ((db.nodes.get address).isSome = true) (.validationError "address" "Node not found")

def syncNodeCapabilities (c : NodeCapabilities) : Relay Unit := do
  let v ← Tx.orFail (parseNodeVersion c.version)
    (.validationError "version" "Invalid node version")
  let r ← Tx.transaction do
    let oldNode ← getNodeByAddress address
    Tx.require (oldNode.status ≠ .quit) .illegalNodeStatus
    let node := oldNode.withCapabilities c.gpuName c.gpuVram v
    let transfer := decide (oldNode.name ≠ node.name) &&
      isNodeStatusActiveForNodeNameCount oldNode.status
    Tx.when transfer do
      decrementNodeNameCountTx oldNode
      incrementNodeNameCountTx node
    oldNode.update (fun n => n.withCapabilities c.gpuName c.gpuVram v)
      fun n => n.address_withCapabilities c.gpuName c.gpuVram v
    replaceNodeModelFiles env address c.modelFiles
    pure (transfer, oldNode.name, node.name)
  Tx.when r.1 do
    applyNodeNameCountDeltaToCache r.2.1 (-1)
    applyNodeNameCountDeltaToCache r.2.2 1

/-! ## status requests -/

def Node.syncStatus : Relay Node := do
  let row ← getNodeByAddress node.address
  pure { node with status := row.status }

/-- up to `n` attempts, each after a changed status with the status read again. -/
def retryNode (body : Node → Relay Unit) : Nat → Node → Relay Unit
  | 0, _ => Tx.fail .nodeStatusChanged
  | n + 1, node => do
    match ← Tx.attempt (body node) with
    | .ok () => pure ()
    | .error .nodeStatusChanged =>
      let node ← node.syncStatus
      retryNode body n node
    | .error e => Tx.fail e

def requestedNode : Relay Node := do
  let db ← Tx.getDb
  Tx.orFail (db.nodes.get address) (.validationError "address" "Node not found")

def pauseOnce : Relay Unit :=
  match node.status with
  | .available => do
    Tx.transaction do
      node.updateStatus (fun n => { n with status := .paused }) fun _ => rfl
      decrementNodeNameCountTx node
    applyNodeNameCountDeltaToCache node.name (-1)
  | .busy => node.updateStatus (fun n => { n with status := .pendingPause }) fun _ => rfl
  | _ => Tx.fail (.validationError "address" "Illegal node status")

def nodePause : Relay Unit := do
  let node ← requestedNode address
  retryNode pauseOnce 3 node

def resumeOnce : Relay Unit := do
  Tx.require (node.status = .paused) (.validationError "address" "Illegal node status")
  Tx.transaction do
    node.updateStatus (fun n => { n with status := .available }) fun _ => rfl
    incrementNodeNameCountTx node
  applyNodeNameCountDeltaToCache node.name 1

def nodeResume : Relay Unit := do
  let node ← requestedNode address
  retryNode resumeOnce 3 node

def quitOnce : Relay Unit :=
  match node.status with
  | .available | .paused => setNodeStatusQuit env node false
  | .busy => node.updateStatus (fun n => { n with status := .pendingQuit }) fun _ => rfl
  | .quit | .pendingQuit => pure ()
  | .pendingPause => Tx.fail (.validationError "address" "Illegal node status")

def nodeQuit : Relay Unit := do
  let node ← requestedNode address
  let st ← getStakingStatus env node
  Tx.require (st ≠ 1) (.validationError "staking_status" "Staking status is staked")
  retryNode (quitOnce env) 3 node

/-! ## operations -/

/-- an operation on a node; `start` and `finish` are what a task does to its node. -/
inductive NodeOp
  | join (env : Env) (input : JoinInput)
  | updateVersion (address version : Text)
  | syncCapabilities (env : Env) (address : Text) (c : NodeCapabilities)
  | pause (address : Text)
  | resume (address : Text)
  | quit (env : Env) (address : Text)
  | start (env : Env) (address taskIDCommitment : Text)
  | finish (env : Env) (address : Text)
  | slash (env : Env) (address : Text)

def NodeOp.tx : NodeOp → Relay Unit
  | .join env input => nodeJoin env input
  | .updateVersion address version => updateNodeVersion address version
  | .syncCapabilities env address c => syncNodeCapabilities env address c
  | .pause address => nodePause address
  | .resume address => nodeResume address
  | .quit env address => nodeQuit env address
  | .start env address c => do
    let node ← getNodeByAddress address
    nodeStartTask env node c
  | .finish env address => do
    let node ← getNodeByAddress address
    Tx.transaction (nodeFinishTask env node)
  | .slash env address => do
    let node ← getNodeByAddress address
    slashNode env node

def NodeOp.exec (op : NodeOp) (w : World) : World := Tx.after op.tx w

def NodeOp.isRequest : NodeOp → Bool
  | .start .. | .finish .. | .slash .. => false
  | _ => true

end CrynuxRelay
