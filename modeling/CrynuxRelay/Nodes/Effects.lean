import CrynuxRelay.Accounts.Posting
import CrynuxRelay.Model.Rules

/-!
# What the node functions write

One rule for each function of the node service: when it succeeds, and the database it leaves.

* `leaveCounts` -- the node-name counts after a node has left the counted statuses, if they allow it;
* `quitDb`, `finishDb` -- the database after a node has quit and after it has left its task;
* `ok_setNodeStatusQuitTx`, `nodeFinishTask_ok` -- the rules of the two main functions.
-/

namespace CrynuxRelay

open Tx

variable {node : Node} {w w' : World} {u : Unit} {e : Err} {env : Env} {b : Bool} {name : NodeName}
  {f : CommitFunc} {delta : Int}

/-! ## counts -/

lemma ok_incrementNodeNameCountTx : Ok (incrementNodeNameCountTx node) w u w' ↔
      w' = ⟨{ w.db with nodeNameCounts := Tally.inc w.db.nodeNameCounts node.name }, w.mem⟩ := by
  rw [incrementNodeNameCountTx, ok_modifyDb]

lemma ok_decrementNodeNameCountTx : Ok (decrementNodeNameCountTx node) w u w' ↔
      ∃ counts, Tally.dec w.db.nodeNameCounts node.name = some counts ∧
        w' = ⟨{ w.db with nodeNameCounts := counts }, w.mem⟩ := by
  rw [decrementNodeNameCountTx, ok_getDb_bind]
  cases h : Tally.dec w.db.nodeNameCounts node.name with
  | _ => simp

lemma fails_decrementNodeNameCountTx (h : Fails (decrementNodeNameCountTx node) w e w') :
    Tally.dec w.db.nodeNameCounts node.name = none ∧ w' = w := by
  rw [decrementNodeNameCountTx, fails_getDb_bind] at h
  cases hd : Tally.dec w.db.nodeNameCounts node.name with
  | none =>
    rw [hd] at h
    exact ⟨rfl, (fails_fail.1 h).2⟩
  | some counts =>
    rw [hd] at h
    exact absurd h fails_modifyDb

lemma ok_applyNodeNameCountDeltaToCache (h : Ok (applyNodeNameCountDeltaToCache name delta) w u w') :
    w'.db = w.db ∧ w'.mem.relayAccountCache = w.mem.relayAccountCache ∧
      w'.mem.nodeQoSScorePool = w.mem.nodeQoSScorePool := by
  rw [applyNodeNameCountDeltaToCache, ok_modifyMem] at h
  subst h
  refine ⟨rfl, ?_⟩
  show (if w.mem.nodeNameCountLoaded = true then _ else w.mem).relayAccountCache = _ ∧ _
  split <;> exact ⟨rfl, rfl⟩

lemma fails_applyNodeNameCountDeltaToCache :
    ¬ Fails (applyNodeNameCountDeltaToCache name delta) w e w' := fails_modifyMem

instance {name : NodeName} {delta : Int} : Sure (applyNodeNameCountDeltaToCache name delta) :=
  ⟨fun _ _ _ => fails_applyNodeNameCountDeltaToCache⟩

/-! ## quitting -/

/-- the counts after the node of `name` leaves, where `counted` says whether it was counted. -/
def leaveCounts (counted : Bool) (name : NodeName) (counts : Tally NodeName) :
    Option (Tally NodeName) :=
  if counted then Tally.dec counts name else some counts

lemma ok_whenDecrement {counted : Bool} :
    Ok (Tx.when counted (decrementNodeNameCountTx node)) w u w' ↔
      ∃ counts, leaveCounts counted node.name w.db.nodeNameCounts = some counts ∧
        w' = ⟨{ w.db with nodeNameCounts := counts }, w.mem⟩ := by
  rw [ok_when, ok_decrementNodeNameCountTx]
  cases counted with
  | _ => simp [leaveCounts]

lemma slashed_id (address : Text) (v : VestingRecord) :
    (if v.address = address ∧ v.status = .active ∧ v.slashed = false then
      { v with slashed := true } else v).id = v.id := by
  split <;> rfl

def slashVestings (address : Text) (vestings : Table VestingRecord.id) : Table VestingRecord.id :=
  vestings.mapRows (fun v =>
    if v.address = address ∧ v.status = .active ∧ v.slashed = false then
      { v with slashed := true } else v) (slashed_id address)

lemma ok_whenSlashVestings {slashed : Bool} {address : Text} :
    Ok (Tx.when slashed (slashNodeVestingsTx address)) w u w' ↔ w' = ⟨{ w.db with
        vestingRecords := if slashed then slashVestings address w.db.vestingRecords
          else w.db.vestingRecords }, w.mem⟩ := by
  rw [ok_when, slashNodeVestingsTx, ok_modifyDb]
  cases slashed with
  | true => simp [slashVestings]
  | false => simp

lemma quit_address (n : Node) : ({ n with
    status := .quit, currentTaskIDCommitment := none, stakeAmount := 0 } : Node).address = n.address :=
  rfl

def quitDb (node : Node) (slashed : Bool) (counts : Tally NodeName) (db : Db) : Db :=
  { db with
    nodeModels := Function.update db.nodeModels node.address []
    nodeInMemoryModels := Function.update db.nodeInMemoryModels node.address none
    nodes := db.nodes.modify node.address (fun n => { n with
      status := .quit, currentTaskIDCommitment := none, stakeAmount := 0 }) quit_address
    nodeNameCounts := counts
    vestingRecords := if slashed then slashVestings node.address db.vestingRecords
      else db.vestingRecords }

lemma ok_setNodeStatusQuitTx {slashed : Bool} : Ok (setNodeStatusQuitTx env node slashed) w b w' ↔
      b = isNodeStatusActiveForNodeNameCount node.status ∧ StatusCurrent node w.db ∧
        (env.stakingStatus node.address node.network).isSome = true ∧
        ∃ counts, leaveCounts (isNodeStatusActiveForNodeNameCount node.status) node.name
          w.db.nodeNameCounts = some counts ∧ w' = ⟨quitDb node slashed counts w.db, w.mem⟩ := by
  rw [setNodeStatusQuitTx, clearNodeModelState, ok_modifyDb_bind]
  simp only [ok_bind, ok_updateStatus, ok_whenDecrement, getStakingStatus, ok_orFail,
    ok_whenSlashVestings, ok_pure]
  rw [Option.isSome_iff_exists]
  constructor
  · rintro ⟨_, _, ⟨hst, rfl⟩, _, _, ⟨counts, hc, rfl⟩, st, _, ⟨hs, rfl⟩, _, _, rfl, rfl, rfl⟩
    exact ⟨rfl, hst, ⟨st, hs⟩, counts, hc, rfl⟩
  · rintro ⟨rfl, hst, ⟨st, hs⟩, counts, hc, rfl⟩
    exact ⟨(), _, ⟨hst, rfl⟩, (), _, ⟨counts, hc, rfl⟩, st, _, ⟨hs, rfl⟩, (), _, rfl, rfl, rfl⟩

lemma setNodeStatusQuitTx_fails {slashed : Bool}
    (h : Fails (setNodeStatusQuitTx env node slashed) w e w') :
    w'.mem = w.mem ∧ ((¬ StatusCurrent node w.db ∧ e = .nodeStatusChanged) ∨
      leaveCounts (isNodeStatusActiveForNodeNameCount node.status) node.name
        w.db.nodeNameCounts = none ∨
      (env.stakingStatus node.address node.network = none ∧ e = .chain)) := by
  rw [setNodeStatusQuitTx, clearNodeModelState, fails_modifyDb_bind, fails_bind] at h
  rcases h with h | ⟨_, w1, h1, h⟩
  · obtain ⟨hst, he, rfl⟩ := fails_updateStatus h
    exact ⟨rfl, .inl ⟨hst, he⟩⟩
  obtain ⟨-, rfl⟩ := ok_updateStatus.1 h1
  rw [fails_bind] at h
  rcases h with h | ⟨_, w2, h2, h⟩
  · obtain ⟨hact, h⟩ := fails_when.1 h
    obtain ⟨hd, rfl⟩ := fails_decrementNodeNameCountTx h
    refine ⟨rfl, .inr (.inl ?_)⟩
    rw [leaveCounts, if_pos hact]
    exact hd
  obtain ⟨counts, -, rfl⟩ := ok_whenDecrement.1 h2
  rw [getStakingStatus, fails_orFail_bind] at h
  rcases h with ⟨hs, he, rfl⟩ | ⟨st, -, h⟩
  · exact ⟨rfl, .inr (.inr ⟨hs, he⟩)⟩
  · rw [fails_bind] at h
    rcases h with h | ⟨_, _, _, h⟩
    · exact absurd (fails_when.1 h).2 fails_modifyDb
    · exact absurd h fails_pure

lemma applyNodeQuitPostCommit_ok (h : Ok (applyNodeQuitPostCommit node b) w u w') :
    w'.db = w.db ∧ w'.mem.relayAccountCache = w.mem.relayAccountCache ∧
      w'.mem.nodeQoSScorePool = w.mem.nodeQoSScorePool := by
  rw [applyNodeQuitPostCommit, ok_when] at h
  rcases h with ⟨-, h⟩ | ⟨-, rfl⟩
  · exact ok_applyNodeNameCountDeltaToCache h
  · exact ⟨rfl, rfl, rfl⟩

lemma fails_applyNodeQuitPostCommit :
    ¬ Fails (applyNodeQuitPostCommit node b) w e w' := fun h =>
  fails_applyNodeNameCountDeltaToCache (fails_when.1 h).2

instance : Sure (applyNodeQuitPostCommit node b) := ⟨fun _ _ _ => fails_applyNodeQuitPostCommit⟩

lemma setNodeStatusQuit_ok {slashed : Bool}
    (h : Ok (setNodeStatusQuit env node slashed) w u w') : StatusCurrent node w.db ∧
      (∃ counts, leaveCounts (isNodeStatusActiveForNodeNameCount node.status) node.name
        w.db.nodeNameCounts = some counts ∧ w'.db = quitDb node slashed counts w.db) ∧
      w'.mem.relayAccountCache = w.mem.relayAccountCache ∧
      w'.mem.nodeQoSScorePool = w.mem.nodeQoSScorePool := by
  rw [setNodeStatusQuit, ok_bind] at h
  obtain ⟨b, w1, h1, h2⟩ := h
  rw [ok_transaction, ok_setNodeStatusQuitTx] at h1
  obtain ⟨-, hst, -, counts, hc, rfl⟩ := h1
  obtain ⟨hdb, hcache, hpool⟩ := applyNodeQuitPostCommit_ok h2
  exact ⟨hst, ⟨counts, hc, hdb⟩, hcache, hpool⟩

/-! ## leaving a task -/

def NodeStatus.isWorking (st : NodeStatus) : Prop :=
  st = .busy ∨ st = .pendingPause ∨ st = .pendingQuit

instance (st : NodeStatus) : Decidable st.isWorking :=
  inferInstanceAs (Decidable (st = .busy ∨ st = .pendingPause ∨ st = .pendingQuit))

lemma NodeStatus.isWorking.active {st : NodeStatus} (h : st.isWorking) :
    isNodeStatusActiveForNodeNameCount st = true := by
  rcases h with rfl | rfl | rfl <;> rfl

def finishDb (node : Node) (st : NodeStatus) (counts : Tally NodeName) (db : Db) : Db :=
  if st = .quit then quitDb node false counts db
  else { db with
    nodes := db.nodes.modify node.address (fun n => { n with
      status := st, currentTaskIDCommitment := none }) fun _ => rfl
    nodeNameCounts := counts }

/-- the status that a node has after its task: `kickout` is what its scores say. -/
def finishedStatus (kickout : Bool) (st : NodeStatus) : NodeStatus :=
  if kickout then .quit
  else match st with
    | .busy => .available
    | .pendingPause => .paused
    | _ => .quit

/-- **a node leaves its task**: it is not counted any more unless it is available again. -/
theorem nodeFinishTask_ok (h : Ok (nodeFinishTask env node) w u w') :
    node.status.isWorking ∧ StatusCurrent node w.db ∧ (∃ counts, leaveCounts
          (decide (finishedStatus (shouldPermanentKickout env w.mem node) node.status ≠ .available))
          node.name w.db.nodeNameCounts = some counts ∧ w'.db = finishDb node
          (finishedStatus (shouldPermanentKickout env w.mem node) node.status) counts w.db) ∧
      w'.mem.relayAccountCache = w.mem.relayAccountCache ∧
      w'.mem.nodeQoSScorePool = w.mem.nodeQoSScorePool := by
  rw [nodeFinishTask, ok_require_bind, ok_orFail_bind] at h
  obtain ⟨hwork, c, -, h⟩ := h
  refine ⟨hwork, ?_⟩
  rw [ok_getMem_bind] at h
  split at h
  · next hk =>
    rw [getTaskByIDCommitment, ok_bind] at h
    obtain ⟨t, w1, ht, h⟩ := h
    rw [ok_getDb_bind, ok_orFail] at ht
    rw [ht.2] at h
    have hq : Ok (setNodeStatusQuit env node false) w u w' := h
    obtain ⟨hst, ⟨counts, hc, hdb⟩, hmem⟩ := setNodeStatusQuit_ok hq
    rw [NodeStatus.isWorking.active hwork] at hc
    rw [hk]
    exact ⟨hst, ⟨counts, hc, hdb⟩, hmem⟩
  · next hk =>
    have hk : shouldPermanentKickout env w.mem node = false := by simpa using hk
    rw [hk]
    rcases hwork with hs | hs | hs
    · rw [hs] at h ⊢
      obtain ⟨hst, rfl⟩ := ok_updateStatus.1 h
      exact ⟨hst, ⟨_, rfl, rfl⟩, rfl, rfl⟩
    · rw [hs] at h ⊢
      simp only [ok_bind, ok_transaction, ok_updateStatus, ok_decrementNodeNameCountTx] at h
      obtain ⟨_, _, ⟨_, _, ⟨hst, rfl⟩, counts, hc, rfl⟩, h⟩ := h
      obtain ⟨hdb, hmem⟩ := ok_applyNodeNameCountDeltaToCache h
      exact ⟨hst, ⟨counts, hc, hdb⟩, hmem⟩
    · rw [hs] at h ⊢
      obtain ⟨hst, ⟨counts, hc, hdb⟩, hmem⟩ := setNodeStatusQuit_ok h
      rw [hs] at hc
      exact ⟨hst, ⟨counts, hc, hdb⟩, hmem⟩

/-! ## slashing -/

def refundDraft (task : InferenceTask) : EventDraft :=
  ⟨.taskRefund, reason2 .taskRefund task.taskIDCommitment, task.creator, task.taskFee⟩

lemma ok_refundTaskPayment {task : InferenceTask} :
    Ok (refundTaskPaymentToRelayAccount task.taskIDCommitment task.creator task.taskFee)
      w f w' ↔ w.db.relayAccountEvents.reasonTaken (refundDraft task).reason = false ∧
        f = [⟨task.creator, task.taskFee⟩] ∧
        w' = loadAccount task.creator (appendEvent (refundDraft task) w) :=
  ok_creditRelayAccount (d := refundDraft task)

def InferenceTask.slashed (t : InferenceTask) : InferenceTask :=
  { t with status := .endAborted, abortReason := .nodeSlashed, deadlineAt := none }

/-- **the task of a slashed node** is left alone when it has ended, and else aborted and refunded. -/
theorem abortNodeCurrentTaskForSlash_ok (h : Ok (abortNodeCurrentTaskForSlash node) w f w') :
    (f = [] ∧ w' = w ∧ ∀ c, node.currentTaskIDCommitment = some c →
        ∃ task, w.db.tasks.get c = some task ∧ task.selectedNode = node.address ∧
          task.status.isTerminal = true) ∨
      ∃ c task, node.currentTaskIDCommitment = some c ∧ w.db.tasks.get c = some task ∧
        task.selectedNode = node.address ∧ task.status.isTerminal = false ∧
        w.db.relayAccountEvents.reasonTaken (refundDraft task).reason = false ∧
        f = [⟨task.creator, task.taskFee⟩] ∧
        w' = ⟨{ (appendEvent (refundDraft task) w).db with
            tasks := w.db.tasks.modify c InferenceTask.slashed fun _ => rfl },
          (loadAccount task.creator w).mem⟩ := by
  unfold abortNodeCurrentTaskForSlash at h
  split at h
  · next hnone =>
    obtain ⟨hf, hw⟩ := ok_pure.1 h
    refine .inl ⟨hf, hw, ?_⟩
    intro c hc
    rw [hnone] at hc
    cases hc
  · next c hc =>
    rw [ok_bind] at h
    obtain ⟨task, w1, ht, h⟩ := h
    obtain ⟨ht, rfl⟩ := ok_getTaskByIDCommitment.1 ht
    have hkey : task.taskIDCommitment = c := Table.key_of_get ht
    rw [ok_require_bind] at h
    obtain ⟨hsel, h⟩ := h
    split at h
    · next hterm =>
      obtain ⟨hf, hw⟩ := ok_pure.1 h
      refine .inl ⟨hf, hw, ?_⟩
      intro c' hc'
      rw [hc] at hc'
      cases hc'
      exact ⟨task, ht, hsel, hterm⟩
    · next hterm =>
      rw [ok_bind] at h
      obtain ⟨g, w2, hg, h⟩ := h
      obtain ⟨hr, rfl, rfl⟩ := ok_refundTaskPayment.1 hg
      rw [ok_bind] at h
      obtain ⟨_, w3, hup, h⟩ := h
      obtain ⟨-, rfl⟩ := ok_taskUpdateStatus.1 hup
      obtain ⟨rfl, rfl⟩ := ok_pure.1 h
      refine .inr ⟨c, task, hc, ht, hsel, by simpa using hterm, hr, rfl, ?_⟩
      rw [← hkey]
      rfl

end CrynuxRelay
