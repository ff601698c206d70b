import CrynuxRelay.Model.NodeOps

/-!
# Pending slashes

A pending slash waits for the decision of an administrator.  Meanwhile the members of its group upload
their results, and every upload renews the evidence of the records of the group.

* `EvidenceArtifact`, `SlashEvidence`, `PendingSlashRow` -- a record and its evidence;
* `evidenceGroup`, `buildCurrentResultEvidenceArtifact` -- what a renewal reads, from the rows of the
  tasks and from the directory of the stored results;
* `EvidenceCall` -- a renewal in flight: it reads the directories one by one, then the records without
  a lock, and then saves the records one by one, every column of each;
* `slashPendingNodeTx` -- the decision, which holds the lock of the record;
* `SlashStep`, `SlashStep.exec` -- decisions and the parts of the renewals, in any order.
-/

namespace CrynuxRelay

/-! ## records -/

inductive PendingSlashStatus
  | pending
  | slashed
  deriving DecidableEq

inductive ArtifactStatus
  | pending
  | uploaded
  | notRequired
  deriving DecidableEq

/-- `SlashEvidenceArtifacts`, for the results of one task. -/
structure EvidenceArtifact where
  taskIDCommitment : Text
  storedPath : Text := []
  files : List Text := []
  status : ArtifactStatus
  deriving DecidableEq

/-- the evidence; `snapshots` stands for the parts that no renewal changes. -/
structure SlashEvidence where
  snapshots : Text
  resultArtifacts : List EvidenceArtifact
  deriving DecidableEq

structure PendingSlashRow where
  id : Nat
  status : PendingSlashStatus := .pending
  nodeAddress : Text
  taskIDCommitment : Text
  evidence : SlashEvidence
  evidenceComplete : Bool := true
  deriving DecidableEq

/-! ## result artifacts -/

/-- a task of a group, as far as the evidence depends on it. -/
structure GroupMember where
  taskIDCommitment : Text
  refunded : Bool
  deriving DecidableEq

def InferenceTask.member (t : InferenceTask) : GroupMember :=
  ⟨t.taskIDCommitment, t.status = .endGroupRefund⟩

/-- `getSlashEvidenceGroupTasks` of the task `c`: all tasks with its task id, or the task alone while it
has none. -/
def evidenceGroup (db : Db) (c : Text) : Option (List GroupMember) :=
  (db.tasks.get c).map fun task =>
    if task.taskID = [] then [task.member]
    else (db.tasks.rows.filter fun t => t.taskID = task.taskID).map InferenceTask.member

def resultsPath (c : Text) : Text := c ++ "/results".toList

def buildPendingResultEvidenceArtifact (c : Text) : EvidenceArtifact :=
  { taskIDCommitment := c, storedPath := resultsPath c, status := .pending }

def buildNotRequiredResultEvidenceArtifact (c : Text) : EvidenceArtifact :=
  { taskIDCommitment := c, status := .notRequired }

def buildPendingResultEvidenceArtifacts (group : List GroupMember) : List EvidenceArtifact :=
  group.map fun m =>
    if m.refunded then buildNotRequiredResultEvidenceArtifact m.taskIDCommitment
    else buildPendingResultEvidenceArtifact m.taskIDCommitment

/-- the files of the stored results of each task; `none` while there is no directory. -/
abbrev SlashedTasksDir := Text → Option (List Text)

def buildCurrentResultEvidenceArtifact (dir : SlashedTasksDir) (m : GroupMember) :
    EvidenceArtifact :=
  if m.refunded then buildNotRequiredResultEvidenceArtifact m.taskIDCommitment
  else
    match dir m.taskIDCommitment with
    | none => buildPendingResultEvidenceArtifact m.taskIDCommitment
    | some files =>
      { taskIDCommitment := m.taskIDCommitment, storedPath := resultsPath m.taskIDCommitment,
        files := files, status := .uploaded }

/-! ## renewals in flight -/

/-- a call of `UpdatePendingSlashResultEvidence`: the group it has read, the members whose directory it
has not read yet, the artifacts so far and the records that it has read and not saved yet;
`savedByOthers` lists the records that other calls have saved since it began. -/
structure EvidenceCall where
  group : List GroupMember
  todo : List GroupMember
  artifacts : List EvidenceArtifact := []
  rows : Option (List PendingSlashRow) := none
  savedByOthers : List Nat := []

def PendingSlashRow.renewed (artifacts : List EvidenceArtifact) (row : PendingSlashRow) :
    PendingSlashRow :=
  { row with evidence := { row.evidence with resultArtifacts := artifacts } }

def savePendingSlash (records : Table PendingSlashRow.id) (row : PendingSlashRow) :
    Table PendingSlashRow.id :=
  records.modify row.id (fun r => { row with id := r.id }) fun _ => rfl

/-! ## decisions -/

/-- the part of the transaction of `SlashPendingNode` that slashes the node. -/
def slashPendingNodeTx (env : Env) (nodeAddress : Text) : Relay (Node × Bool × CommitFunc) := do
  let node ← getNodeByAddress nodeAddress
  Tx.require (node.status ≠ .quit) .nodeAlreadyQuit
  let r ← slashNodeTx env node
  pure (node, r)

/-- what follows the commit of a decision. -/
def slashPendingNodePostCommit (r : Node × Bool × CommitFunc) : Relay Unit := do
  runCommitFunc r.2.2
  applyNodeQuitPostCommit r.1 r.2.1

/-! ## the system -/

/-- the relay with its records, the stored results and the renewals in flight; `slashed` lists the
records whose decision has slashed a node. -/
structure SlashState where
  world : World
  dir : SlashedTasksDir
  records : Table PendingSlashRow.id := Table.empty
  calls : List EvidenceCall := []
  slashed : List Nat := []

inductive SlashStep
  | request (op : NodeOp)
  | create (id : Nat) (nodeAddress taskIDCommitment snapshots : Text) (group : List GroupMember)
      (evidenceComplete : Bool)
  | makeDir (taskIDCommitment : Text)
  | storeFile (taskIDCommitment file : Text)
  | beginUpdate (taskIDCommitment : Text)
  | readDir (i : Nat)
  | readRows (i : Nat)
  | save (i : Nat)
  | stop (i : Nat)
  | slash (env : Env) (pendingSlashID : Nat)

namespace SlashState

def moveCall (s : SlashState) (i : Nat) (k : EvidenceCall) : SlashState :=
  { s with calls := s.calls.set i k }

def saveRow (s : SlashState) (i : Nat) (k : EvidenceCall) (row : PendingSlashRow)
    (rest : List PendingSlashRow) : SlashState :=
  { s with
    records := savePendingSlash s.records (row.renewed k.artifacts)
    calls := (s.calls.map fun k' => { k' with savedByOthers := row.id :: k'.savedByOthers }).set i
      { k with rows := some rest } }

/-- `SlashPendingNode` of a pending record. -/
def decide (s : SlashState) (env : Env) (row : PendingSlashRow) : SlashState :=
  match Tx.transaction (slashPendingNodeTx env row.nodeAddress) s.world with
  | (.error _, w) => { s with world := w }
  | (.ok r, w) =>
    { s with
      world := Tx.after (slashPendingNodePostCommit r) w
      records := savePendingSlash s.records { row with status := .slashed }
      slashed := row.id :: s.slashed }

end SlashState

namespace SlashStep

def exec : SlashStep → SlashState → SlashState
  | request op, s => if op.isRequest then { s with world := Tx.after op.tx s.world } else s
  | create id nodeAddress c snapshots group complete, s =>
    match s.records.get id with
    | some _ => s
    | none =>
      { s with
        records := s.records.insert
          { id := id, nodeAddress := nodeAddress, taskIDCommitment := c,
            evidence := ⟨snapshots, buildPendingResultEvidenceArtifacts group⟩,
            evidenceComplete := complete } }
  | makeDir c, s =>
    { s with dir := Function.update s.dir c (some ((s.dir c).getD [])) }
  | storeFile c file, s =>
    { s with dir := Function.update s.dir c (some (((s.dir c).getD []).insert file)) }
  | beginUpdate c, s =>
    match evidenceGroup s.world.db c with
    | some group => { s with calls := s.calls ++ [{ group := group, todo := group }] }
    | none => s
  | readDir i, s =>
    match s.calls[i]? with
    | some k =>
      match k.todo with
      | m :: todo =>
        s.moveCall i { k with
          todo := todo
          artifacts := k.artifacts ++ [buildCurrentResultEvidenceArtifact s.dir m] }
      | [] => s
    | none => s
  | readRows i, s =>
    match s.calls[i]? with
    | some k =>
      if k.todo = [] ∧ k.rows = none then
        s.moveCall i { k with
          rows := some (s.records.rows.filter fun r =>
            r.taskIDCommitment ∈ k.group.map (·.taskIDCommitment)) }
      else s
    | none => s
  | save i, s =>
    match s.calls[i]? with
    | some k =>
      match k.rows with
      | some (row :: rest) => s.saveRow i k row rest
      | _ => s
    | none => s
  | stop i, s => { s with calls := s.calls.eraseIdx i }
  | slash env id, s =>
    match s.records.get id with
    | some row => if row.status = .pending then s.decide env row else s
    | none => s

end SlashStep

end CrynuxRelay
