import CrynuxRelay.Tasks.Register

/-!
# Transitions that cannot fail

* `Steady` -- what happens before a node leaves its task does not change what the leaving depends on;
* `FinishReady` -- what the leaving depends on; `total_nodeFinishTask`, `total_slashNode`;
* `GroupReady` -- the invariants, exact node-name counts and a chain that answers;
* `total_*` -- one lemma for each transition of a member of a group: it succeeds.
-/

namespace CrynuxRelay

open Option Table Tx

variable {w w' : World} {f : InferenceTask → InferenceTask}
  {hf : ∀ t, (f t).taskIDCommitment = t.taskIDCommitment}

/-! ## what a node needs to leave its task -/

/-- the columns that a node is checked by when it leaves its task. -/
def Node.core (n : Node) : NodeStatus × Option Text × NodeName × Text :=
  (n.status, n.currentTaskIDCommitment, n.name, n.network)

structure Steady (w w' : World) : Prop where
  counts : w'.db.nodeNameCounts = w.db.nodeNameCounts
  keys : w'.db.nodes.keys = w.db.nodes.keys
  cores : ∀ a, (w'.db.nodes.get a).map Node.core = (w.db.nodes.get a).map Node.core
  tasks : ∀ c t, w.db.tasks.get c = some t → ∃ t', w'.db.tasks.get c = some t'

lemma Steady.refl (w : World) : Steady w w := ⟨rfl, rfl, fun _ => rfl, fun _ t h => ⟨t, h⟩⟩

lemma steady_modifyNode {k : Text} {f : Node → Node}
    {hf : ∀ n, (f n).address = n.address}
    (hw : w'.db = { w.db with nodes := w.db.nodes.modify k f hf })
    (h : ∀ n, (f n).core = n.core) : Steady w w' := by
  refine ⟨by rw [hw], by rw [hw]; rfl, fun a => ?_, fun c t ht => ⟨t, by rw [hw]; exact ht⟩⟩
  rw [hw]
  exact map_get_modify w.db.nodes hf h a

lemma steady_modifyTask {c : Text}
    (hw : w'.db = { w.db with tasks := w.db.tasks.modify c f hf }) : Steady w w' := by
  refine ⟨by rw [hw], by rw [hw], fun a => by rw [hw], fun j t ht => ?_⟩
  rw [hw]
  show ∃ t', (w.db.tasks.modify c f hf).get j = some t'
  rw [get_modify]
  split
  · next hj =>
    rw [← hj, ht]
    exact ⟨f t, rfl⟩
  · exact ⟨t, ht⟩

lemma Steady.countsExact (h : Steady w w') (hc : CountsExact w.db) : CountsExact w'.db := by
  -- the count that a row belongs to is read off its core
  have hclass : ∀ (o o' : Option Node) (name : NodeName), o'.map Node.core = o.map Node.core →
      o'.any (fun n => decide (countedName n = some name)) =
        o.any fun n => decide (countedName n = some name) := by
    intro o o' name hcore
    have hread : ∀ o : Option Node, (o.any fun n => decide (countedName n = some name)) =
        (o.map Node.core).any fun x => decide ((if isNodeStatusActiveForNodeNameCount x.1
          then some x.2.2.1 else none) = some name) := by
      intro o
      cases o with
      | none => rfl
      | some n => rfl
    rw [hread, hread, hcore]
  intro name
  rw [h.counts, hc name, Table.count, Table.count, h.keys]
  refine List.countP_congr fun a _ => ?_
  have := hclass (w.db.nodes.row a) (w'.db.nodes.row a) name (h.cores a)
  rw [this]

/-- what a node needs to leave its task: the row as it was read, the row of its task, a chain that answers,
and exact counts. -/
structure FinishReady (env : Env) (db : Db) (node : Node) : Prop where
  working : node.status.isWorking
  current : ∃ c t, node.currentTaskIDCommitment = some c ∧ db.tasks.get c = some t
  row : ∃ row, db.nodes.get node.address = some row ∧ row.core = node.core
  staking : (env.stakingStatus node.address node.network).isSome = true
  counts : CountsExact db

lemma total_applyNodeQuitPostCommit (node : Node) (b : Bool) (w : World) :
    Total (applyNodeQuitPostCommit node b) w fun _ _ => True := by
  rcases ok_or_fails (applyNodeQuitPostCommit node b) w with ⟨u, h⟩ | ⟨e, h⟩
  · exact ⟨u, _, h, trivial⟩
  · exact absurd h fails_applyNodeQuitPostCommit

section
variable {env : Env} {node : Node}

section
variable (h : FinishReady env w.db node)
include h

lemma FinishReady.steady (hs : Steady w w') :
    FinishReady env w'.db node where
  working := h.working
  current := by
    obtain ⟨c, t, hc, ht⟩ := h.current
    obtain ⟨t', ht'⟩ := hs.tasks c t ht
    exact ⟨c, t', hc, ht'⟩
  row := by
    obtain ⟨row, hrow, hcore⟩ := h.row
    have hrow' := hs.cores node.address
    rw [hrow] at hrow'
    obtain ⟨row', hget, hcore'⟩ := map_eq_some_iff.1 hrow'
    exact ⟨row', hget, hcore'.trans hcore⟩
  staking := h.staking
  counts := hs.countsExact h.counts

lemma FinishReady.statusCurrent : StatusCurrent node w.db := by
  obtain ⟨row, hrow, hcore⟩ := h.row
  exact ⟨row, hrow, congrArg Prod.fst hcore⟩

lemma FinishReady.sameName : SameName node w.db := by
  obtain ⟨row, hrow, hcore⟩ := h.row
  exact ⟨row, hrow, congrArg (fun x => x.2.2.1) hcore⟩

lemma FinishReady.leave : ∃ counts, Tally.dec w.db.nodeNameCounts node.name = some counts := by
  obtain ⟨row, hrow, hcore⟩ := h.row
  have hst : row.status = node.status := congrArg Prod.fst hcore
  have hname : row.name = node.name := congrArg (fun x => x.2.2.1) hcore
  refine Tally.Exact.dec_isSome h.counts hrow ?_
  rw [countedName, hst, h.working.active, hname]
  rfl

/-! ## leaving a task -/

lemma total_setNodeStatusQuitTx (slashed : Bool) :
    Total (setNodeStatusQuitTx env node slashed) w fun _ _ => True := by
  obtain ⟨counts, hc⟩ := h.leave
  refine ⟨_, _, ok_setNodeStatusQuitTx.2 ⟨rfl, h.statusCurrent, h.staking, counts, ?_, rfl⟩, trivial⟩
  rwa [h.working.active]

lemma total_setNodeStatusQuit (slashed : Bool) :
    Total (setNodeStatusQuit env node slashed) w fun _ _ => True :=
  total_bind ((total_transaction (total_setNodeStatusQuitTx h slashed)).mono
    fun b w' _ _ => total_applyNodeQuitPostCommit node b w')

theorem total_nodeFinishTask : Total (nodeFinishTask env node) w fun _ w' => CountsExact w'.db := by
  have hok : Total (nodeFinishTask env node) w fun _ _ => True := by
    obtain ⟨c, t, hc, ht⟩ := h.current
    refine total_require_bind h.working (total_orFail_bind hc ?_)
    refine total_getMem_bind ?_
    by_cases hk : shouldPermanentKickout env w.mem node = true
    · rw [if_pos hk]
      refine (ok_getTaskByIDCommitment.2 ⟨ht, rfl⟩).total_bind ?_
      exact total_setNodeStatusQuit h false
    · rw [if_neg hk]
      split
      · exact ⟨(), _, ok_updateStatus.2 ⟨h.statusCurrent, rfl⟩, trivial⟩
      · exact total_setNodeStatusQuit h false
      · obtain ⟨counts, hcounts⟩ := h.leave
        refine total_bind (total_transaction
          ((ok_updateStatus.2 ⟨h.statusCurrent, rfl⟩).total_then ?_))
        exact ⟨(), _, ok_decrementNodeNameCountTx.2 ⟨counts, hcounts, rfl⟩, (), _, rfl, trivial⟩
      · exact total_pure trivial
  exact hok.mono fun _ w' hx _ => nodeFinishTask_exact h.sameName h.counts hx

theorem total_slashNode
    (hend : ∀ c t, node.currentTaskIDCommitment = some c → w.db.tasks.get c = some t →
      t.selectedNode = node.address ∧ t.status.isTerminal = true) :
    Total (slashNode env node) w fun _ w' => CountsExact w'.db := by
  have hok : Total (slashNode env node) w fun _ _ => True := by
    obtain ⟨c, t, hc, ht⟩ := h.current
    have habort : Total (abortNodeCurrentTaskForSlash node) w fun _ w' => w' = w := by
      unfold abortNodeCurrentTaskForSlash
      rw [hc]
      refine (ok_getTaskByIDCommitment.2 ⟨ht, rfl⟩).total_bind ?_
      refine total_require_bind (hend c t hc ht).1 ?_
      rw [if_pos (hend c t hc ht).2]
      exact total_pure rfl
    refine total_require_bind (fun hq => ?_) (total_bind (total_transaction ?_))
    · have := h.working
      rw [hq] at this
      exact absurd this (by decide)
    · refine total_bind (habort.mono ?_)
      rintro f w' - rfl
      refine total_bind ((total_setNodeStatusQuitTx h true).mono fun b w1 _ _ => ?_)
      refine total_pure ((ok_runCommitFunc.2 rfl).total_then ?_)
      exact total_applyNodeQuitPostCommit node b _
  exact hok.mono fun _ w' hx _ => slashNode_exact h.sameName h.counts hx

end

/-! ## what comes before it -/

/-- `n` is the node with other scores, after steps that the leaving does not depend on. -/
def Prepares (node : Node) (w : World) (n : Node) (w' : World) : Prop :=
  Steady w w' ∧ n.core = node.core ∧ n.address = node.address

lemma FinishReady.prepared {n : Node} (h : FinishReady env w.db node)
    (hp : Prepares node w n w') : FinishReady env w'.db n := by
  obtain ⟨hsteady, hcore, haddr⟩ := hp
  obtain ⟨hworking, hcurrent, hrow, hstaking, hcounts⟩ := h.steady hsteady
  rw [Node.core, Node.core, Prod.mk.injEq, Prod.mk.injEq, Prod.mk.injEq] at hcore
  obtain ⟨hst, hcur, hname, hnet⟩ := hcore
  refine ⟨by rw [hst]; exact hworking, by rw [hcur]; exact hcurrent, ?_,
    by rw [haddr, hnet]; exact hstaking, hcounts⟩
  rwa [haddr, Node.core, hst, hcur, hname, hnet]

lemma total_updateNodeQosScore (env : Env) (node : Node) (qos : Nat) (w : World) :
    Total (updateNodeQosScore env node qos) w (Prepares node w) :=
  ⟨_, _, rfl, steady_modifyNode rfl fun _ => rfl, rfl, rfl⟩

lemma total_applyTaskQosScore (env : Env) (node : Node) (task : InferenceTask) (w : World) :
    Total (applyTaskQosScore env node task) w (Prepares node w) := by
  unfold applyTaskQosScore
  split
  · exact total_updateNodeQosScore env node _ w
  · exact total_pure ⟨Steady.refl w, rfl, rfl⟩

lemma total_applyHealthBoost (env : Env) (node : Node) (w : World) :
    Total (applyHealthBoost env node) w (Prepares node w) :=
  ⟨_, _, rfl, steady_modifyNode rfl fun _ => rfl, rfl, rfl⟩

lemma total_applyAbortQosScore (env : Env) (task : InferenceTask) (node : Node) (w : World) :
    Total (applyAbortQosScore env task node) w (Prepares node w) := by
  unfold applyAbortQosScore
  split
  · exact total_applyTaskQosScore env node task w
  · exact total_pure ⟨Steady.refl w, rfl, rfl⟩

lemma total_applyAbortHealthPenalty (env : Env) (task : InferenceTask) (node : Node)
    (w : World) : Total (applyAbortHealthPenalty env task node) w (Prepares node w) := by
  unfold applyAbortHealthPenalty
  split
  · exact ⟨_, _, rfl, steady_modifyNode rfl fun n => rfl, rfl, rfl⟩
  · exact total_pure ⟨Steady.refl w, rfl, rfl⟩

lemma total_releaseAbortedNode (h : FinishReady env w.db node) (task : InferenceTask) :
    Total (releaseAbortedNode env task node) w fun _ w' => CountsExact w'.db := by
  refine total_bind ((total_applyAbortQosScore env task node w).mono fun n1 w1 _ hp1 => ?_)
  refine total_bind ((total_applyAbortHealthPenalty env task n1 w1).mono fun n2 w2 _ hp2 => ?_)
  exact total_nodeFinishTask ((h.prepared hp1).prepared hp2)

lemma total_refund {task : InferenceTask} (h : ¬ Recorded w.db (refundReason task.taskIDCommitment)) :
    Total (refundTaskPaymentToRelayAccount task.taskIDCommitment task.creator task.taskFee) w
      fun _ w' => Steady w w' ∧ w'.db.tasks = w.db.tasks := by
  refine ⟨_, _, ok_refundTaskPayment.2 ⟨eq_false_of_ne_true h, rfl, rfl⟩, ?_, rfl⟩
  exact ⟨rfl, rfl, fun _ => rfl, fun c t ht => ⟨t, ht⟩⟩

end

/-! ## the transitions of a member -/

section
variable {env : Env} {task : InferenceTask} {node : Node}

lemma total_runCommitFunc {post : Unit → World → Prop} (f : CommitFunc)
    (h : ∀ w', w'.db = w.db → post () w') : Total (runCommitFunc f) w post :=
  ⟨(), _, ok_runCommitFunc.2 rfl, h _ (db_applyPostings _ _)⟩

lemma total_taskUpdateStatus (h : TaskCurrent task w.db) :
    Total (task.updateStatus f hf) w fun _ w' =>
      w'.db = { w.db with tasks := w.db.tasks.modify task.taskIDCommitment f hf } :=
  ⟨(), _, ok_taskUpdateStatus.2 ⟨h, rfl⟩, rfl⟩

lemma total_groupValidated (hc : CountsExact w.db) (hhold : HoldsTask w.db task node)
    (hcur : TaskCurrent task w.db) (hst : task.status = .scoreReady)
    (hstart : task.startTime.isSome = true) :
    Total (setTaskStatusGroupValidated env task) w fun _ w' => CountsExact w'.db := by
  obtain ⟨s, hs⟩ := isSome_iff_exists.1 hstart
  obtain ⟨p, hp⟩ : ∃ p, getTaskDeadline env (task.atTransition .groupValidated env.now) = some p := by
    cases hty : task.taskType with
    | _ => simp [getTaskDeadline, InferenceTask.atTransition, usesRelayOwnedTimeouts, hty, hs]
  have hd : Ok (getTaskTransitionDeadline env task .groupValidated) w p.1 w := by
    rw [getTaskTransitionDeadline, hp]
    exact ok_pure.2 ⟨rfl, rfl⟩
  refine total_require_bind hst ?_
  refine (ok_checkTaskSelectedNode.2 ⟨hhold, rfl⟩).total_bind (hd.total_bind ?_)
  refine total_transaction (total_bind ?_)
  refine (total_taskUpdateStatus hcur).mono fun _ w1 _ hw1 => ?_
  refine total_bind ((total_applyTaskQosScore env node task w1).mono fun n w2 _ hp => ?_)
  exact total_pure (hp.1.countsExact ((steady_modifyTask hw1).countsExact hc))

section
variable (h : FinishReady env w.db node) (hhold : HoldsTask w.db task node) (hcur : TaskCurrent task w.db)
include h hhold hcur

/-- **an invalidation** succeeds: the node leaves its task, or is slashed for a task that has just ended. -/
theorem total_invalidated (complete : Bool)
    (hst : task.status = .scoreReady ∨ task.status = .endAborted ∨ task.status = .errorReported)
    (hsel : ∀ row, w.db.tasks.get task.taskIDCommitment = some row →
      row.selectedNode = task.selectedNode) :
    Total (setTaskStatusEndInvalidatedWithEvidence env task complete) w
      fun _ w' => CountsExact w'.db := by
  refine total_require_bind hst ?_
  refine (ok_checkTaskSelectedNode.2 ⟨hhold, rfl⟩).total_bind (total_transaction ?_)
  refine total_bind ((total_taskUpdateStatus hcur).mono fun _ w1 _ hw1 => ?_)
  have hready : FinishReady env w1.db node := h.steady (steady_modifyTask hw1)
  by_cases hp : env.passiveSlashMode = true
  · rw [if_pos hp]
    refine Ok.total_then (ok_modifyDb.2 rfl) (total_nodeFinishTask ?_)
    exact hready.steady ⟨rfl, rfl, fun _ => rfl, fun c t ht => ⟨t, ht⟩⟩
  · rw [if_neg hp]
    refine total_slashNode hready fun c t hc ht => ?_
    obtain rfl := some.inj (hhold.2.symm.trans hc)
    rw [hw1, get_modify_self] at ht
    obtain ⟨row, hrow, rfl⟩ := map_eq_some_iff.1 ht
    exact ⟨(hsel row hrow).trans hhold.address.symm, rfl⟩

/-- **a group refund** succeeds when the task was not refunded before. -/
theorem total_groupRefund (hst : task.status = .scoreReady)
    (hopen : ¬ Recorded w.db (refundReason task.taskIDCommitment)) :
    Total (setTaskStatusEndGroupRefund env task) w fun _ w' => CountsExact w'.db := by
  refine total_require_bind hst ?_
  refine (ok_checkTaskSelectedNode.2 ⟨hhold, rfl⟩).total_bind (total_transaction ?_)
  refine total_bind ((total_refund hopen).mono fun f w1 _ hr => ?_)
  refine total_bind ((total_applyTaskQosScore env node task w1).mono fun n1 w2 hqos hp1 => ?_)
  have hcur2 : TaskCurrent task w2.db := by
    rw [TaskCurrent, (Tx.Kept.ok (r := NodeSide) hqos).1.tasks, hr.2]
    exact hcur
  refine total_bind ((total_taskUpdateStatus hcur2).mono fun _ w3 _ hw3 => ?_)
  refine total_bind ((total_applyHealthBoost env n1 w3).mono fun n2 w4 _ hp2 => ?_)
  have hready := (((h.steady hr.1).prepared hp1).steady (steady_modifyTask hw3)).prepared hp2
  refine total_bind ((total_nodeFinishTask hready).mono fun _ w5 _ hc => ?_)
  exact total_runCommitFunc f fun w' hdb => by rw [hdb]; exact hc

/-- **an abort** that refunds succeeds when the task was not refunded before. -/
theorem total_aborted (hsel : task.selectedNode ≠ []) (hst : task.status.isTerminal = false)
    (hreason : task.abortReason ≠ .creatorValidationTimeout)
    (hopen : ¬ Recorded w.db (refundReason task.taskIDCommitment)) :
    Total (setTaskStatusEndAborted env task) w fun _ w' => CountsExact w'.db := by
  have hnode : Ok (abortedTaskNode task) w (some node) w := by
    rw [abortedTaskNode, if_neg hsel, ok_bind]
    refine ⟨node, w, ok_getNodeByAddress.2 ⟨hhold.1, rfl⟩, ?_⟩
    rw [if_pos hhold.2]
    exact ok_pure.2 ⟨rfl, rfl⟩
  unfold setTaskStatusEndAborted
  rw [if_neg fun e => by rw [e] at hst; cases hst]
  refine total_require_bind hst (total_transaction (hnode.total_bind ?_))
  rw [settleAbortedTask, if_neg hreason]
  refine total_bind ((total_refund hopen).mono fun f w1 _ hr => ?_)
  have hcur1 : TaskCurrent task w1.db := by
    rw [TaskCurrent, hr.2]
    exact hcur
  refine total_bind ((total_taskUpdateStatus hcur1).mono fun _ w2 _ hw2 => ?_)
  have hready := (h.steady hr.1).steady (steady_modifyTask hw2)
  refine total_bind ((total_releaseAbortedNode hready task).mono fun _ w3 _ hc => ?_)
  exact total_runCommitFunc f fun w' hdb => by rw [hdb]; exact hc

end

lemma total_persistAborted (hc : CountsExact w.db)
    (hsel : task.selectedNode ≠ [] → ∃ n, w.db.nodes.get task.selectedNode = some n) :
    Total (persistValidationGroupAbortedTaskQos env task) w fun _ w' => CountsExact w'.db := by
  have hscore : Total (Tx.when (shouldPersistValidationGroupTimeoutQos task) (do
      let node ← getNodeByAddress task.selectedNode
      let _ ← updateNodeQosScore env node (task.qosScore.getD 0)
      pure ())) w fun _ w' => Steady w w' := by
    cases hb : shouldPersistValidationGroupTimeoutQos task with
    | false => exact total_pure (Steady.refl w)
    | true =>
      have hb' : task.selectedNode ≠ [] := (of_decide_eq_true hb).2.2.2
      obtain ⟨n, hn⟩ := hsel hb'
      refine (ok_getNodeByAddress.2 ⟨hn, rfl⟩).total_bind (total_bind ?_)
      exact (total_updateNodeQosScore env n _ w).mono fun _ w' _ hp => total_pure hp.1
  refine total_bind (hscore.mono fun _ w1 _ hs => ?_)
  exact ⟨(), _, rfl, (steady_modifyTask rfl).countsExact (hs.countsExact hc)⟩

end

end CrynuxRelay
