import CrynuxRelay.Base.Run
import CrynuxRelay.Nodes.Side

/-!
# The node-name counts

* `CountsExact` -- the persisted count of every GPU name, VRAM and version is the number of counted
  nodes with that name;
* `exact_leave`, `exact_enter`, `exact_transfer` -- the three moves of a node between counts;
* `exec_countsExact` -- every node operation keeps the counts exact, but for an `UpdateNodeVersion`
  that changes the version of a counted node;
* `run_countsExact` -- in every run without such an update the counts are exact, and no node is
  kept from quitting by them.
-/

namespace CrynuxRelay

open Table Tx Tally

variable {db : Db} {a address : Text} {n : Node} {body : Node → Relay Unit}
  {counts : Tally NodeName} {node : Node} {slashed : Bool} {env : Env} {w w' : World} {u : Unit}
  {c : NodeCapabilities} {input : JoinInput}

/-! ## exact counts -/

def countedName (n : Node) : Option NodeName :=
  if isNodeStatusActiveForNodeNameCount n.status then some n.name else none

def CountsExact (db : Db) : Prop := Tally.Exact db.nodes countedName db.nodeNameCounts

lemma countsExact_iff : CountsExact db ↔ ∀ name, (db.nodeNameCounts name).getD 0 =
    db.nodes.count fun n => isNodeStatusActiveForNodeNameCount n.status && decide (n.name = name) := by
  refine forall_congr' fun name => ?_
  have : (fun n : Node => decide (countedName n = some name)) =
      fun n => isNodeStatusActiveForNodeNameCount n.status && decide (n.name = name) := by
    funext n
    unfold countedName
    cases isNodeStatusActiveForNodeNameCount n.status <;> simp
  rw [this]
  rfl

/-- the row of `node` has its name; the rest of the row may have changed since it was read. -/
def SameName (node : Node) (db : Db) : Prop :=
  ∃ row, db.nodes.get node.address = some row ∧ row.name = node.name

section moves

variable {db' : Db} {row : Node} {f : Node → Node} (hf : ∀ n, (f n).address = n.address)

lemma exact_same (h : CountsExact db) (hn : db'.nodes = db.nodes.modify a f hf)
    (hc : db'.nodeNameCounts = db.nodeNameCounts) (hrow : db.nodes.get a = some row)
    (hst : isNodeStatusActiveForNodeNameCount (f row).status =
      isNodeStatusActiveForNodeNameCount row.status) (hname : (f row).name = row.name) :
    CountsExact db' := by
  rw [CountsExact, hn, hc]
  apply Tally.Exact.modify_same h
  intro v hv
  rw [hrow] at hv
  cases hv
  rw [countedName, hst, hname, countedName]

section
variable (h : CountsExact db) (hn : db'.nodes = db.nodes.modify a f hf)
  (hrow : db.nodes.get a = some row)
include h hn hrow

lemma exact_leave (hact : isNodeStatusActiveForNodeNameCount row.status = true)
    (hst : isNodeStatusActiveForNodeNameCount (f row).status = false)
    (hc : dec db.nodeNameCounts row.name = some db'.nodeNameCounts) : CountsExact db' := by
  rw [CountsExact, hn]
  apply Tally.Exact.modify h hrow
  intro name
  have := value_dec hc name
  rw [countedName, countedName, hact, hst, ← this]
  by_cases hn : name = row.name
  · simp [hn]
  · have hn' : row.name ≠ name := fun e => hn e.symm
    simp [hn, hn']

lemma exact_enter (hst : isNodeStatusActiveForNodeNameCount row.status = false)
    (hact : isNodeStatusActiveForNodeNameCount (f row).status = true)
    (hc : db'.nodeNameCounts = inc db.nodeNameCounts (f row).name) : CountsExact db' := by
  rw [CountsExact, hn, hc]
  apply Tally.Exact.modify h hrow
  intro name
  rw [countedName, countedName, hact, hst, value_inc]
  by_cases hn : name = (f row).name
  · simp [hn]
  · have hn' : (f row).name ≠ name := fun e => hn e.symm
    simp [hn, hn']

end

end moves

lemma exact_quitDb (h : CountsExact db) (hname : SameName node db) (hst : StatusCurrent node db)
    (hc : leaveCounts (isNodeStatusActiveForNodeNameCount node.status) node.name
      db.nodeNameCounts = some counts) : CountsExact (quitDb node slashed counts db) := by
  obtain ⟨row, hrow, hst⟩ := hst
  obtain ⟨row', hrow', hname⟩ := hname
  rw [hrow] at hrow'
  cases hrow'
  rw [← hst, ← hname, leaveCounts] at hc
  split at hc
  · next hact => exact exact_leave (by intro _; rfl) h rfl hrow hact rfl hc
  · next hact =>
    cases hc
    have hact : isNodeStatusActiveForNodeNameCount row.status = false := by simpa using hact
    exact exact_same (by intro _; rfl) h rfl rfl hrow hact.symm rfl

lemma exact_finishDb {st : NodeStatus} (h : CountsExact db) (hname : SameName node db)
    (hst : StatusCurrent node db) (hwork : node.status.isWorking)
    (hs : st = .available ∨ st = .paused ∨ st = .quit)
    (hc : leaveCounts (decide (st ≠ .available)) node.name db.nodeNameCounts = some counts) :
    CountsExact (finishDb node st counts db) := by
  rcases hs with rfl | rfl | rfl
  · obtain ⟨row, hrow, hst⟩ := hst
    cases hc
    have hact : isNodeStatusActiveForNodeNameCount row.status = true := by
      rw [hst]
      exact hwork.active
    exact exact_same (by intro _; rfl) h rfl rfl hrow hact.symm rfl
  · obtain ⟨row, hrow, hst⟩ := hst
    obtain ⟨row', hrow', hname⟩ := hname
    rw [hrow] at hrow'
    cases hrow'
    have hact : isNodeStatusActiveForNodeNameCount row.status = true := by
      rw [hst]
      exact hwork.active
    rw [← hname] at hc
    exact exact_leave (by intro _; rfl) h rfl hrow hact rfl hc
  · refine exact_quitDb h hname hst ?_
    rwa [hwork.active]

/-! ## joining -/

lemma exact_saveRow (h : CountsExact db) (hrow : ∀ row, db.nodes.get node.address = some row →
    row.status = .quit) (hst : node.status = .available) :
    Tally.Exact (saveRow db.nodes node) countedName (inc db.nodeNameCounts node.name) := by
  unfold saveRow
  split
  · next hnone =>
    refine Tally.Exact.insert h hnone ?_
    rw [countedName, hst]
    rfl
  · next row hsome =>
    have hq : isNodeStatusActiveForNodeNameCount row.status = false := by
      rw [hrow row hsome]
      rfl
    have hact : isNodeStatusActiveForNodeNameCount node.status = true := by
      rw [hst]
      rfl
    have henter : CountsExact { db with
        nodes := db.nodes.modify node.address (fun n => { node with address := n.address })
          fun _ => rfl
        nodeNameCounts := inc db.nodeNameCounts node.name } :=
      exact_enter (by intro _; rfl) h rfl hsome hq hact rfl
    exact henter

lemma adjustNodeQosForJoin_ok {node' : Node} {isNew : Bool}
    (h : Ok (adjustNodeQosForJoin env node isNew) w node' w') :
    (∃ q, node' = { node with qosScore := q }) ∧ w'.db = w.db := by
  unfold adjustNodeQosForJoin at h
  split at h
  all_goals
    obtain ⟨rfl, rfl⟩ := ok_pure.1 h
    exact ⟨⟨_, rfl⟩, rfl⟩

lemma setNodeStatusJoin_ok {files : List NodeModelFileRow}
    (h : Ok (setNodeStatusJoin env node files) w u w') :
    w'.db.nodes = saveRow w.db.nodes (node.joined env) ∧
      w'.db.nodeNameCounts = inc w.db.nodeNameCounts node.name := by
  unfold setNodeStatusJoin at h
  split at h
  · exact absurd h ok_fail
  · obtain ⟨_, w1, h1, h2⟩ := ok_bind.1 h
    rw [ok_transaction, Node.save, ok_modifyDb_bind, replaceNodeModelFiles,
      ok_modifyDb_bind, ok_modifyDb_bind, ok_incrementNodeNameCountTx] at h1
    rw [(ok_applyNodeNameCountDeltaToCache h2).1, h1]
    exact ⟨rfl, rfl⟩

/-- a joining node has quit or is new, and keeps the task of its row. -/
lemma nodeJoin_ok (h : Ok (nodeJoin env input) w u w') :
    ∃ joined : Node, joined.address = input.address ∧ (joined.gpuName = input.gpuName ∧
      joined.gpuVram = input.gpuVram ∧ joined.status = .available ∧
      joined.currentTaskIDCommitment =
        (w.db.nodes.get input.address).bind (·.currentTaskIDCommitment) ∧
      ∀ n, w.db.nodes.get input.address = some n → n.status = .quit) ∧
      w'.db.nodes = saveRow w.db.nodes joined ∧
      w'.db.nodeNameCounts = inc w.db.nodeNameCounts joined.name := by
  obtain ⟨v, -, h⟩ := ok_orFail_bind.1 h
  rw [ok_getDb_bind, ok_require_bind, ok_bind] at h
  obtain ⟨hquit, node, w1, hadj, h⟩ := h
  obtain ⟨⟨q, rfl⟩, hdb⟩ := adjustNodeQosForJoin_ok hadj
  obtain ⟨hnodes, hcounts⟩ := setNodeStatusJoin_ok h
  rw [hdb] at hnodes hcounts
  refine ⟨_, ?_, ⟨rfl, rfl, rfl, ?_, fun n hn => by rwa [hn] at hquit⟩, hnodes, hcounts⟩
  · cases hget : w.db.nodes.get input.address with
    | none => rfl
    | some n =>
      show n.address = input.address
      exact key_of_get hget
  · cases w.db.nodes.get input.address with
    | _ => rfl

/-! ## versions and capabilities -/

lemma syncNodeCapabilities_ok (h : Ok (syncNodeCapabilities env address c) w u w') :
    ∃ row v, w.db.nodes.get address = some row ∧ row.status ≠ .quit ∧
      w'.db.nodes = w.db.nodes.modify address (fun n => n.withCapabilities c.gpuName c.gpuVram v)
        (fun n => n.address_withCapabilities c.gpuName c.gpuVram v) ∧
      if (decide (row.name ≠ (row.withCapabilities c.gpuName c.gpuVram v).name) &&
          isNodeStatusActiveForNodeNameCount row.status) = true then
        ∃ counts, dec w.db.nodeNameCounts row.name = some counts ∧
          w'.db.nodeNameCounts = inc counts (row.withCapabilities c.gpuName c.gpuVram v).name
      else w'.db.nodeNameCounts = w.db.nodeNameCounts := by
  obtain ⟨v, -, h⟩ := ok_orFail_bind.1 h
  obtain ⟨r, w1, htx, hpost⟩ := ok_bind.1 h
  have hdb : w'.db = w1.db := by
    rcases ok_when.1 hpost with ⟨-, hpost⟩ | ⟨-, rfl⟩
    · obtain ⟨_, w2, h1, h2⟩ := ok_bind.1 hpost
      exact (ok_applyNodeNameCountDeltaToCache h2).1.trans (ok_applyNodeNameCountDeltaToCache h1).1
    · rfl
  obtain ⟨row, w2, hget, hbody⟩ := ok_bind.1 (ok_transaction.1 htx)
  obtain ⟨hrow, rfl⟩ := ok_getNodeByAddress.1 hget
  rw [ok_require_bind, ok_bind] at hbody
  obtain ⟨hquit, _, w3, hcount, hbody⟩ := hbody
  obtain ⟨_, w4, hup, hbody⟩ := ok_bind.1 hbody
  obtain ⟨-, rfl⟩ := ok_pure.1 hbody
  cases ok_nodeUpdate.1 hup
  obtain rfl : row.address = address := key_of_get hrow
  refine ⟨row, v, hrow, hquit, ?_⟩
  rw [hdb]
  rcases ok_when.1 hcount with ⟨htr, hcount⟩ | ⟨htr, rfl⟩
  · obtain ⟨_, _, hdec, hinc⟩ := ok_bind.1 hcount
    obtain ⟨counts, hd, rfl⟩ := ok_decrementNodeNameCountTx.1 hdec
    cases ok_incrementNodeNameCountTx.1 hinc
    rw [if_pos htr]
    exact ⟨rfl, counts, hd, rfl⟩
  · rw [if_neg (by rw [htr]; decide)]
    exact ⟨rfl, rfl⟩

lemma syncNodeCapabilities_exact (h : Ok (syncNodeCapabilities env address c) w () w')
    (hex : CountsExact w.db) : CountsExact w'.db := by
  obtain ⟨row, v, hrow, -, hnodes, hcounts⟩ := syncNodeCapabilities_ok h
  split at hcounts
  · next htr =>
    obtain ⟨counts, hd, hcounts⟩ := hcounts
    rw [Bool.and_eq_true] at htr
    rw [CountsExact, hnodes, hcounts]
    apply Tally.Exact.modify hex hrow
    intro name
    have := value_dec hd name
    rw [countedName, countedName, htr.2, show isNodeStatusActiveForNodeNameCount (row.withCapabilities ..).status = _
      from htr.2, value_inc, ← this]
    simp only [if_true, Option.some.injEq, eq_comm (a := name)]
    omega
  · -- no transfer: the name is the same or the node is not counted
    next htr =>
    rw [CountsExact, hnodes, hcounts]
    refine Tally.Exact.modify_same hex _ (by intro _; rfl) fun n hn => ?_
    rw [hrow] at hn
    cases hn
    unfold countedName
    cases hact : isNodeStatusActiveForNodeNameCount row.status with
    | false =>
      rw [show (row.withCapabilities c.gpuName c.gpuVram v).status = row.status from rfl, hact]
      rfl
    | true =>
      rw [hact, Bool.and_true, decide_eq_true_iff, not_not] at htr
      rw [show (row.withCapabilities c.gpuName c.gpuVram v).status = row.status from rfl, hact, htr]

/-! ## status requests -/

lemma ok_requestedNode : Ok (requestedNode a) w n w' ↔ w.db.nodes.get a = some n ∧ w' = w := by
  rw [requestedNode, ok_getDb_bind, ok_orFail]

lemma sameName_of_get (h : db.nodes.get a = some n) : SameName n db := by
  refine ⟨n, ?_, rfl⟩
  have : n.address = a := key_of_get h
  rwa [this]

instance {n : Nat} [hat : ∀ node, KeptOnFail SameDb (body node)] : KeptOnFail SameDb (retryNode body n node) := by
  induction n generalizing node with
  | zero => exact ⟨atomic (x := Tx.fail _)⟩
  | succ n ih =>
    refine ⟨fun w e w' h => ?_⟩
    rcases fails_bind.1 h with h | ⟨r, w1, hr, h⟩
    · exact absurd h fails_attempt
    rcases ok_attempt.1 hr with ⟨u, rfl, -⟩ | ⟨e', rfl, hfail⟩
    · exact absurd h fails_pure
    · have hdb := (hat node).onFail _ _ _ hfail
      split at h
      · exact absurd h fails_pure
      · unfold Node.syncStatus at h
        exact (KeptOnFail.onFail (r := SameDb) _ _ _ h).trans hdb
      · rwa [(fails_fail.1 h).2]

/-- every attempt starts from the name of the row, which no failed attempt has changed. -/
lemma retryNode_exact [hat : ∀ node, KeptOnFail SameDb (body node)]
    (hok : ∀ node w w', SameName node w.db → CountsExact w.db → Ok (body node) w () w' →
      CountsExact w'.db) {n : Nat} (h : Ok (retryNode body n node) w () w')
    (hname : SameName node w.db) (hex : CountsExact w.db) : CountsExact w'.db := by
  induction n generalizing node w with
  | zero => exact absurd h ok_fail
  | succ n ih =>
    obtain ⟨r, w1, hr, h⟩ := ok_bind.1 h
    rcases ok_attempt.1 hr with ⟨u, rfl, hbody⟩ | ⟨e, rfl, hfail⟩
    · rw [(ok_pure.1 h).2]
      exact hok node w w1 hname hex hbody
    · have hdb := (hat node).onFail _ _ _ hfail
      split at h
      · next heq => cases heq
      · rw [Node.syncStatus, ok_bind] at h
        obtain ⟨node', w2, hsync, h⟩ := h
        rw [ok_bind] at hsync
        obtain ⟨row, _, hrow, hsync⟩ := hsync
        obtain ⟨-, rfl⟩ := ok_getNodeByAddress.1 hrow
        obtain ⟨rfl, rfl⟩ := ok_pure.1 hsync
        refine ih h ?_ ?_
        all_goals rwa [hdb]
      · exact absurd h ok_fail

lemma finishedStatus_mem (kickout : Bool) (st : NodeStatus) :
    finishedStatus kickout st = .available ∨ finishedStatus kickout st = .paused ∨
      finishedStatus kickout st = .quit := by
  unfold finishedStatus
  split
  · exact .inr (.inr rfl)
  · split
    · exact .inl rfl
    · exact .inr (.inl rfl)
    · exact .inr (.inr rfl)

instance {f : Node → Node} {hf : ∀ n, (f n).address = n.address} : KeptOnFail SameDb (node.updateStatus f hf) :=
  ⟨fun w e w' h => by rw [SameDb, (fails_updateStatus h).2.2]⟩

instance : KeptOnFail SameDb (pauseOnce node) := by
  unfold pauseOnce
  split
  all_goals infer_instance

instance : KeptOnFail SameDb (resumeOnce node) := by
  unfold resumeOnce
  infer_instance

instance : KeptOnFail SameDb (quitOnce env node) := by
  unfold quitOnce setNodeStatusQuit
  split
  all_goals infer_instance

section
variable (hname : SameName node w.db) (hex : CountsExact w.db)
include hname hex

lemma pauseOnce_exact (h : Ok (pauseOnce node) w () w') : CountsExact w'.db := by
  obtain ⟨row, hrow, hname⟩ := hname
  unfold pauseOnce at h
  split at h
  · next hs =>
    obtain ⟨_, w1, htx, hcache⟩ := ok_bind.1 h
    rw [ok_transaction] at htx
    obtain ⟨_, w2, hup, hdec⟩ := ok_bind.1 htx
    obtain ⟨⟨row', hrow', hst⟩, rfl⟩ := ok_updateStatus.1 hup
    obtain ⟨counts, hd, rfl⟩ := ok_decrementNodeNameCountTx.1 hdec
    rw [(ok_applyNodeNameCountDeltaToCache hcache).1]
    rw [hrow] at hrow'
    cases hrow'
    rw [← hname] at hd
    exact exact_leave (by intro _; rfl) hex rfl hrow (by rw [hst, hs]; rfl) rfl hd
  · next hs =>
    obtain ⟨⟨row', hrow', hst⟩, rfl⟩ := ok_updateStatus.1 h
    rw [hrow] at hrow'
    cases hrow'
    exact exact_same (by intro _; rfl) hex rfl rfl hrow (by rw [hst, hs]; rfl) rfl
  · exact absurd h ok_fail

lemma resumeOnce_exact (h : Ok (resumeOnce node) w () w') : CountsExact w'.db := by
  obtain ⟨row, hrow, hname⟩ := hname
  rw [resumeOnce, ok_require_bind, ok_bind] at h
  obtain ⟨hs, _, w1, htx, hcache⟩ := h
  rw [ok_transaction] at htx
  obtain ⟨_, w2, hup, hinc⟩ := ok_bind.1 htx
  obtain ⟨⟨row', hrow', hst⟩, rfl⟩ := ok_updateStatus.1 hup
  rw [ok_incrementNodeNameCountTx] at hinc
  subst hinc
  rw [(ok_applyNodeNameCountDeltaToCache hcache).1]
  rw [hrow] at hrow'
  cases hrow'
  refine exact_enter (by intro _; rfl) hex rfl hrow (by rw [hst, hs]; rfl) rfl ?_
  show inc w.db.nodeNameCounts node.name = inc w.db.nodeNameCounts row.name
  rw [hname]

lemma setNodeStatusQuit_exact (h : Ok (setNodeStatusQuit env node slashed) w () w') :
    CountsExact w'.db := by
  obtain ⟨hst, ⟨counts, hc, hdb⟩, -⟩ := setNodeStatusQuit_ok h
  rw [hdb]
  exact exact_quitDb hex hname hst hc

lemma quitOnce_exact (h : Ok (quitOnce env node) w () w') : CountsExact w'.db := by
  unfold quitOnce at h
  split at h
  · exact setNodeStatusQuit_exact hname hex h
  · exact setNodeStatusQuit_exact hname hex h
  · next hs =>
    obtain ⟨⟨row, hrow, hst⟩, rfl⟩ := ok_updateStatus.1 h
    exact exact_same (by intro _; rfl) hex rfl rfl hrow (by rw [hst, hs]; rfl) rfl
  · rwa [(ok_pure.1 h).2]
  · rwa [(ok_pure.1 h).2]
  · exact absurd h ok_fail

/-! ## tasks and slashing -/

lemma nodeFinishTask_exact (h : Ok (nodeFinishTask env node) w () w') : CountsExact w'.db := by
  obtain ⟨hwork, hst, ⟨counts, hc, hdb⟩, -⟩ := nodeFinishTask_ok h
  rw [hdb]
  exact exact_finishDb hex hname hst hwork (finishedStatus_mem _ _) hc

lemma slashNode_exact (h : Ok (slashNode env node) w () w') : CountsExact w'.db := by
  rw [slashNode, ok_require_bind, ok_bind] at h
  obtain ⟨-, r, w1, htx, h⟩ := h
  obtain ⟨_, w2, hrun, hpost⟩ := ok_bind.1 h
  rw [ok_runCommitFunc] at hrun
  rw [(applyNodeQuitPostCommit_ok hpost).1, hrun, db_applyPostings]
  rw [ok_transaction, slashNodeTx] at htx
  obtain ⟨f, w3, habort, htx⟩ := ok_bind.1 htx
  obtain ⟨b, w4, hquit, htx⟩ := ok_bind.1 htx
  obtain ⟨-, rfl⟩ := ok_pure.1 htx
  obtain ⟨-, hst, -, counts, hc, rfl⟩ := ok_setNodeStatusQuitTx.1 hquit
  -- the abort of the current task leaves the nodes and their counts alone
  rcases abortNodeCurrentTaskForSlash_ok habort with ⟨-, rfl, -⟩ | ⟨_, _, -, -, -, -, -, -, rfl⟩
  · exact exact_quitDb hex hname hst hc
  · refine exact_quitDb ?_ ?_ hst hc
    · exact hex
    · exact hname

end

/-! ## every operation -/

/-- an `UpdateNodeVersion` of a counted node repeats the version that the node has. -/
def KeepsVersion (w : World) : NodeOp → Prop
  | .updateVersion address version => ∀ row v, w.db.nodes.get address = some row →
      parseNodeVersion version = some v → isNodeStatusActiveForNodeNameCount row.status = true →
      v = (row.majorVersion, row.minorVersion, row.patchVersion)
  | _ => True

lemma atomic_updateNodeVersion (address version : Text) :
    Tx.Atomic (updateNodeVersion address version) := by
  intro w e w' h
  rcases fails_orFail_bind.1 h with ⟨-, -, rfl⟩ | ⟨v, -, h⟩
  · rfl
  · obtain ⟨hnone, -, rfl⟩ := fails_require.1 h
    -- an update without a row changes nothing
    have hnone : w.db.nodes.get address = none := by simpa using hnone
    have hnodes : ∀ f hf, w.db.nodes.modify address f hf = w.db.nodes := by
      intro f hf
      refine Table.ext' rfl fun k => ?_
      rw [get_modify]
      split
      · next e => rw [e, hnone]; rfl
      · rfl
    simp only [hnodes]

lemma NodeOp.atomic (op : NodeOp) : Tx.Atomic op.tx := by
  cases op with
  | join env input =>
    dsimp only [NodeOp.tx, nodeJoin, adjustNodeQosForJoin, resetNodeQosScorePool]
    have (n : Node) (files : List NodeModelFileRow) : KeptOnFail SameDb (setNodeStatusJoin env n files) := by
      dsimp only [setNodeStatusJoin]
      split
      all_goals infer_instance
    exact Tx.atomic
  | updateVersion address version => exact atomic_updateNodeVersion address version
  | _ =>
    dsimp only [NodeOp.tx, syncNodeCapabilities, nodePause, nodeResume, nodeQuit, getStakingStatus, nodeStartTask,
      slashNode]
    exact Tx.atomic

/-- a successful operation that keeps the versions of counted nodes keeps the counts exact. -/
lemma NodeOp.exact_of_ok {op : NodeOp} (h : Ok op.tx w () w') (hkeep : KeepsVersion w op)
    (hex : CountsExact w.db) : CountsExact w'.db := by
  cases op with
  | join env input =>
    obtain ⟨joined, haddr, ⟨-, -, hst, -, hquit⟩, hnodes, hcounts⟩ := nodeJoin_ok h
    rw [CountsExact, hnodes, hcounts]
    exact exact_saveRow hex (haddr ▸ hquit) hst
  | updateVersion address version =>
    obtain ⟨v, hv, h⟩ := ok_orFail_bind.1 h
    obtain ⟨-, rfl⟩ := ok_require.1 h
    refine Tally.Exact.modify_same hex _ (by intro _; rfl) fun row hrow => ?_
    unfold countedName
    cases hact : isNodeStatusActiveForNodeNameCount row.status with
    | false => rfl
    | true => rw [hkeep row v hrow hv hact]
  | syncCapabilities env address c => exact syncNodeCapabilities_exact h hex
  | pause address =>
    obtain ⟨node, _, hn, h'⟩ := ok_bind.1 h
    obtain ⟨hn, rfl⟩ := ok_requestedNode.1 hn
    exact retryNode_exact (fun _ _ _ => pauseOnce_exact) h' (sameName_of_get hn) hex
  | resume address =>
    obtain ⟨node, _, hn, h'⟩ := ok_bind.1 h
    obtain ⟨hn, rfl⟩ := ok_requestedNode.1 hn
    exact retryNode_exact (fun _ _ _ => resumeOnce_exact) h' (sameName_of_get hn)
      hex
  | quit env address =>
    obtain ⟨node, _, hn, h'⟩ := ok_bind.1 h
    obtain ⟨hn, rfl⟩ := ok_requestedNode.1 hn
    rw [getStakingStatus, ok_orFail_bind] at h'
    obtain ⟨st, -, h'⟩ := h'
    rw [ok_require_bind] at h'
    exact retryNode_exact (fun _ _ _ => quitOnce_exact) h'.2
      (sameName_of_get hn) hex
  | start env address c =>
    obtain ⟨node, _, hn, h'⟩ := ok_bind.1 h
    obtain ⟨hn, rfl⟩ := ok_getNodeByAddress.1 hn
    rw [nodeStartTask, ok_require_bind, ok_require_bind, ok_transaction, ok_updateStatus] at h'
    obtain ⟨⟨hs, -⟩, -, ⟨row, hrow, hst⟩, rfl⟩ := h'
    exact exact_same (by intro _; rfl) hex rfl rfl hrow (by rw [hst, hs]; rfl) rfl
  | finish env address =>
    obtain ⟨node, _, hn, h'⟩ := ok_bind.1 h
    obtain ⟨hn, rfl⟩ := ok_getNodeByAddress.1 hn
    exact nodeFinishTask_exact (sameName_of_get hn) hex (ok_transaction.1 h')
  | slash env address =>
    obtain ⟨node, _, hn, h'⟩ := ok_bind.1 h
    obtain ⟨hn, rfl⟩ := ok_getNodeByAddress.1 hn
    exact slashNode_exact (sameName_of_get hn) hex h'

lemma exec_countsExact (w : World) (op : NodeOp) (hex : CountsExact w.db)
    (hkeep : KeepsVersion w op) : CountsExact (op.exec w).db := by
  rcases ok_or_fails op.tx w with ⟨u, h⟩ | ⟨e, h⟩
  · exact NodeOp.exact_of_ok h hkeep hex
  · rwa [NodeOp.exec, op.atomic w e _ h]

/-! ## quitting is never refused by the counts -/

lemma quit_not_refused {e : Err} (hex : CountsExact w.db) (hget : w.db.nodes.get a = some node)
    (h : Fails (setNodeStatusQuitTx env node slashed) w e w') :
    e ≠ .nodeNameCountEntryMissing ∧ e ≠ .nodeNameCountAlreadyZero := by
  rcases (setNodeStatusQuitTx_fails h).2 with ⟨-, rfl⟩ | hc | ⟨-, rfl⟩
  · exact ⟨by simp, by simp⟩
  · exfalso
    rw [leaveCounts] at hc
    split at hc
    · next hact =>
      obtain ⟨counts, hd⟩ := Tally.Exact.dec_isSome hex hget (c := node.name) (by
        rw [countedName, if_pos hact])
      rw [hd] at hc
      cases hc
    · cases hc
  · exact ⟨by simp, by simp⟩

/-- **Node-name counts.**  From a state without nodes and counts, in every run in which each `UpdateNodeVersion`
of a counted node repeats its version: the persisted count of every name is the number of counted nodes
of that name, and no node is refused by the counts when it quits or is slashed. -/
theorem run_countsExact (ops : List NodeOp) (w₀ : World) (hnodes : w₀.db.nodes = .empty)
    (hcounts : w₀.db.nodeNameCounts = fun _ => none) (hkeep : Along NodeOp.exec KeepsVersion ops w₀) :
    let w := run NodeOp.exec ops w₀
    (∀ name, (w.db.nodeNameCounts name).getD 0 = w.db.nodes.count fun n =>
        isNodeStatusActiveForNodeNameCount n.status && decide (n.name = name)) ∧
      ∀ env a node slashed e w', w.db.nodes.get a = some node → node.status ≠ .quit →
        Fails (setNodeStatusQuitTx env node slashed) w e w' →
        e ≠ .nodeNameCountEntryMissing ∧ e ≠ .nodeNameCountAlreadyZero := by
  have hstart : CountsExact w₀.db := by
    rw [CountsExact, hnodes, hcounts]
    exact exact_empty countedName
  have hex : CountsExact (run NodeOp.exec ops w₀).db :=
    run_invariant (fun w op (h : CountsExact w.db) hk => exec_countsExact w op h hk) ops _ hkeep hstart
  exact ⟨countsExact_iff.1 hex, fun env a node slashed e w' hget _ h => quit_not_refused hex hget h⟩

/-! ## a node that cannot quit -/

def joinRequest : NodeOp :=
  .join {} { gpuName := "NVIDIA".toList, gpuVram := 24, version := "2.5.0".toList, modelFiles := [],
             address := "0xd1".toList, network := "base".toList, staking := 400 }

def oneTaskWorld : World :=
  ⟨{ tasks := Table.empty.insert { taskIDCommitment := "0xc1".toList, creator := "0xa1".toList, taskFee := 3,
                                   selectedNode := "0xd1".toList } }, {}⟩

/-- a node joins, starts a task and is slashed. -/
def slashedRun : List NodeOp := [joinRequest, .start {} "0xd1".toList "0xc1".toList, .slash {} "0xd1".toList]

theorem run_countsExact_at_slashed :
    let w := run NodeOp.exec slashedRun oneTaskWorld
    (w.db.nodes.get "0xd1".toList).map (·.status) = some .quit ∧
    (∀ name, (w.db.nodeNameCounts name).getD 0 = w.db.nodes.count fun n =>
        isNodeStatusActiveForNodeNameCount n.status && decide (n.name = name)) ∧
      ∀ env a node slashed e w', w.db.nodes.get a = some node → node.status ≠ .quit →
        Fails (setNodeStatusQuitTx env node slashed) w e w' →
        e ≠ .nodeNameCountEntryMissing ∧ e ≠ .nodeNameCountAlreadyZero :=
  ⟨by decide +kernel, run_countsExact slashedRun oneTaskWorld rfl rfl ⟨trivial, trivial, trivial, trivial⟩⟩

/-- a node joins with version 2.5.0 and reports version 2.6.0: its new name has no count, the count
of the old one stays, and the node cannot be made to quit. -/
theorem quit_refused_after_version_update :
    let w := run NodeOp.exec [joinRequest, .updateVersion "0xd1".toList "2.6.0".toList] ⟨{}, {}⟩
    ∃ node, w.db.nodes.get "0xd1".toList = some node ∧ node.status = .available ∧
      w.db.nodeNameCounts ⟨"NVIDIA".toList, 24, (2, 5, 0)⟩ = some 1 ∧
      w.db.nodeNameCounts node.name = none ∧
      ∃ w', Fails (setNodeStatusQuitTx {} node true) w .nodeNameCountEntryMissing w' := by
  refine ⟨_, rfl, rfl, rfl, rfl, _, rfl⟩

end CrynuxRelay
