import Mathlib.Logic.Relation
import CrynuxRelay.Tasks.OnRows
import CrynuxRelay.Nodes.NameCount

/-!
# What can happen to a row

One chain of lemmas through all functions of the service, for what they do to the row of a node and to
the requirements of a task.

* `ServiceMove` -- the changes of a node row, the reports of a node about its hardware apart;
* `Rows` -- every row has come from an old one by such changes;
* `RowFrame` -- `Rows`, the requirements of the tasks, and no task newly started;
* `WorkersKept` -- the occupied nodes stay occupied, a few named ones apart;
* `MoveFrame` -- both, in one chain of lemmas; `rowFrame_relayOp` -- every operation of the relay, with
  the exceptions named there.
-/

namespace CrynuxRelay

open Option Table Tx Kept NodeOp Stable

variable {a : Text} {t t' task : InferenceTask} {st : TaskStatus} {n node : Node} {op : NodeOp}
  {w w' : World} {env : Env}

/-! ## moves of a node -/

inductive ServiceMove : Node → Node → Prop
  | score (n : Node) (q : Rat) : ServiceMove n { n with qosScore := q }
  | health (n : Node) (h : Rat) (t : Option Time) (x : Bool) :
    ServiceMove n { n with healthBase := h, healthUpdatedAt := t, healthExcluded := x }
  | version (n : Node) (v : Nat × Nat × Nat) :
    ServiceMove n { n with majorVersion := v.1, minorVersion := v.2.1, patchVersion := v.2.2 }
  | start (n : Node) (c : Text) (x : Bool) (h : n.status = .available) :
    ServiceMove n { n with
      status := .busy, currentTaskIDCommitment := some c, healthExcluded := x }
  | finish (n : Node) (h : n.status = .busy) :
    ServiceMove n { n with status := .available, currentTaskIDCommitment := none }
  | rest (n : Node) (h : n.status = .pendingPause) :
    ServiceMove n { n with status := .paused, currentTaskIDCommitment := none }
  | pause (n : Node) (h : n.status = .available) : ServiceMove n { n with status := .paused }
  | pauseLater (n : Node) (h : n.status = .busy) : ServiceMove n { n with status := .pendingPause }
  | resume (n : Node) (h : n.status = .paused) : ServiceMove n { n with status := .available }
  | quitLater (n : Node) (h : n.status = .busy) : ServiceMove n { n with status := .pendingQuit }
  | quit (n : Node) :
    ServiceMove n { n with status := .quit, currentTaskIDCommitment := none, stakeAmount := 0 }

/-- every row of `t'` has come from a row of `t` by moves, and no row is lost. -/
structure Rows (R : Node → Node → Prop) (t t' : Table Node.address) : Prop where
  back : ∀ a n', t'.get a = some n' → ∃ n, t.get a = some n ∧ Relation.ReflTransGen R n n'
  forth : ∀ a n, t.get a = some n → ∃ n', t'.get a = some n'

section
variable {R : Node → Node → Prop} {t t' t'' : Table Node.address}

lemma Rows.refl (t : Table Node.address) : Rows R t t :=
  ⟨fun _ n h => ⟨n, h, Relation.ReflTransGen.refl⟩, fun _ n h => ⟨n, h⟩⟩

lemma Rows.trans (h : Rows R t t') (h' : Rows R t' t'') : Rows R t t'' := by
  refine ⟨fun a n'' hn'' => ?_, fun a n hn => ?_⟩
  · obtain ⟨n', hn', hmoves'⟩ := h'.back a n'' hn''
    obtain ⟨n, hn, hmoves⟩ := h.back a n' hn'
    exact ⟨n, hn, hmoves.trans hmoves'⟩
  · obtain ⟨n', hn'⟩ := h.forth a n hn
    exact h'.forth a n' hn'

lemma rows_modify (t : Table Node.address) (k : Text) (f : Node → Node)
    (hf : ∀ n, (f n).address = n.address) (h : ∀ n, t.get k = some n → R n (f n)) :
    Rows R t (t.modify k f hf) := by
  refine ⟨fun a n' hn' => ?_, fun a n hn => ?_⟩
  · rw [get_modify] at hn'
    split at hn'
    · next ha =>
      obtain ⟨n, hn, rfl⟩ := map_eq_some_iff.1 hn'
      exact ⟨n, ha ▸ hn, Relation.ReflTransGen.single (h n hn)⟩
    · exact ⟨n', hn', Relation.ReflTransGen.refl⟩
  · rw [get_modify]
    split
    · next ha =>
      rw [← ha, hn]
      exact ⟨f n, rfl⟩
    · exact ⟨n, hn⟩

/-- what every move keeps holds of the rows after when it holds of the rows before. -/
lemma Rows.keep {p : Node → Prop} (h : Rows R t t') (hp : ∀ n n', R n n' → p n → p n')
    (hpre : ∀ n, t.get a = some n → p n) : ∀ n', t'.get a = some n' → p n' := by
  intro n' hn'
  obtain ⟨n, hn, hmoves⟩ := h.back a n' hn'
  have hn := hpre n hn
  clear hn'
  induction hmoves with
  | refl => exact hn
  | tail _ hmove ih => exact hp _ _ hmove ih

end

/-! ## the frame -/

/-- what no transition changes in a task, where only a `starting` one starts it: its requirements, and its
node once it has left the queue. -/
structure TaskKept (starting : Prop) (t t' : InferenceTask) : Prop where
  requirements : t'.requirementSignature = t.requirementSignature
  started : t'.status = .started → starting ∨ t.status = .started
  left : t.status ≠ .queued → t'.status ≠ .queued ∧ t'.selectedNode = t.selectedNode

variable {starting : Prop}

lemma TaskKept.refl (t : InferenceTask) : TaskKept starting t t := ⟨rfl, .inr, fun h => ⟨h, rfl⟩⟩

lemma TaskKept.trans {t'' : InferenceTask} (h : TaskKept starting t t')
    (h' : TaskKept starting t' t'') : TaskKept starting t t'' where
  requirements := h'.requirements.trans h.requirements
  started := fun hst => (h'.started hst).elim .inl h.started
  left := fun hq => by
    obtain ⟨hq', hsel⟩ := h.left hq
    obtain ⟨hq'', hsel'⟩ := h'.left hq'
    exact ⟨hq'', hsel'.trans hsel⟩

lemma taskKept_of_status (hst : t'.status = st) (hstarted : st ≠ .started) (hqueued : st ≠ .queued)
    (hreq : t'.requirementSignature = t.requirementSignature)
    (hsel : t'.selectedNode = t.selectedNode) : TaskKept starting t t' :=
  ⟨hreq, fun h => absurd (hst.symm.trans h) hstarted,
    fun _ => ⟨fun h => hqueued (hst.symm.trans h), hsel⟩⟩

/-- the rows of nodes go on by moves, the rows of tasks keep what no transition changes, and a task is newly
started only by a `starting` operation. -/
structure RowFrame (starting : Prop) (w w' : World) : Prop where
  nodes : Rows ServiceMove w.db.nodes w'.db.nodes
  kept : ∀ c t, w.db.tasks.get c = some t → ∃ t', w'.db.tasks.get c = some t' ∧ TaskKept starting t t'
  started : ∀ c t', w'.db.tasks.get c = some t' → t'.status = .started →
    starting ∨ ∃ t, w.db.tasks.get c = some t ∧ t.status = .started

def WorkersKept (free : Text → Prop) (w w' : World) : Prop :=
  ∀ a n, ¬ free a → w.db.nodes.get a = some n → n.status.isWorking →
    ∃ n', w'.db.nodes.get a = some n' ∧ n'.status.isWorking ∧
      n'.currentTaskIDCommitment = n.currentTaskIDCommitment

/-- a move that leaves an occupied node with its task, unless the node is `free`. -/
structure FreeMove (free : Text → Prop) (n n' : Node) : Prop where
  move : ServiceMove n n'
  kept : free n.address ∨ (n.status.isWorking →
    n'.status.isWorking ∧ n'.currentTaskIDCommitment = n.currentTaskIDCommitment)

/-- the rows of nodes go on by moves that take only `free` ones off their tasks, and the rows of tasks as
in `RowFrame`. -/
structure MoveFrame (free : Text → Prop) (starting : Prop) (w w' : World) : Prop where
  nodes : Rows (FreeMove free) w.db.nodes w'.db.nodes
  kept : ∀ c t, w.db.tasks.get c = some t → ∃ t', w'.db.tasks.get c = some t' ∧ TaskKept starting t t'
  started : ∀ c t', w'.db.tasks.get c = some t' → t'.status = .started →
    starting ∨ ∃ t, w.db.tasks.get c = some t ∧ t.status = .started

variable {free : Text → Prop}

lemma MoveFrame.rowFrame (h : MoveFrame free starting w w') : RowFrame starting w w' := by
  refine ⟨⟨fun a n' hn' => ?_, h.nodes.forth⟩, h.kept, h.started⟩
  obtain ⟨n, hn, hmoves⟩ := h.nodes.back a n' hn'
  exact ⟨n, hn, Relation.ReflTransGen.mono (fun _ _ hm => FreeMove.move hm) _ _ hmoves⟩

lemma ServiceMove.address {n' : Node} (h : ServiceMove n n') : n'.address = n.address := by
  cases h with
  | _ => rfl

lemma MoveFrame.workersKept (h : MoveFrame free starting w w') : WorkersKept free w w' := by
  intro a n hfree hn hw
  obtain ⟨n', hn'⟩ := h.nodes.forth a n hn
  obtain ⟨m, hm, hmoves⟩ := h.nodes.back a n' hn'
  obtain rfl : n = m := some.inj (hn.symm.trans hm)
  rw [← key_of_get hn] at hfree
  refine ⟨n', hn', ?_⟩
  -- along the moves: the address is that of `n`, and the task too
  have hall : n'.address = n.address ∧ n'.status.isWorking ∧
      n'.currentTaskIDCommitment = n.currentTaskIDCommitment := by
    clear hn' hm
    induction hmoves with
    | refl => exact ⟨rfl, hw, rfl⟩
    | tail _ hmove ih =>
      obtain ⟨haddr, hw', hcur⟩ := ih
      obtain ⟨hw'', hcur'⟩ := (hmove.kept.resolve_left (haddr ▸ hfree)) hw'
      exact ⟨hmove.move.address.trans haddr, hw'', hcur'.trans hcur⟩
  exact hall.2

lemma moveFrame_of_eq (hn : w'.db.nodes = w.db.nodes) (ht : w'.db.tasks = w.db.tasks) :
    MoveFrame free starting w w' := by
  refine ⟨?_, fun c t h => ⟨t, ?_, TaskKept.refl t⟩, fun c t h hst => .inr ⟨t, ?_, hst⟩⟩
  · rw [hn]
    exact Rows.refl _
  · rwa [ht]
  · rwa [ht] at h

instance : OnRows (MoveFrame free starting) where
  refl := fun w => moveFrame_of_eq rfl rfl
  trans := fun w w' w'' h h' => by
    refine ⟨h.nodes.trans h'.nodes, fun c t ht => ?_, fun c t'' ht'' hst => ?_⟩
    · obtain ⟨t', ht', hk⟩ := h.kept c t ht
      obtain ⟨t'', ht'', hk'⟩ := h'.kept c t' ht'
      exact ⟨t'', ht'', hk.trans hk'⟩
    · rcases h'.started c t'' ht'' hst with hstart | ⟨t', ht', hst'⟩
      · exact .inl hstart
      · exact h.started c t' ht' hst'
  rollback := fun w w' h => moveFrame_of_eq rfl rfl
  of_eq := fun w w' hn ht => moveFrame_of_eq hn ht

lemma rowFrame_of_eq (hn : w'.db.nodes = w.db.nodes) (ht : w'.db.tasks = w.db.tasks) :
    RowFrame starting w w' := by
  have h : MoveFrame (fun _ => True) starting w w' := moveFrame_of_eq hn ht
  exact h.rowFrame

/-! ## statements -/

lemma moves_nodes {nodes : Table Node.address} (h : Rows (FreeMove free) w.db.nodes nodes) :
    MoveFrame free starting w ⟨{ w.db with nodes := nodes }, w.mem⟩ :=
  ⟨h, fun _ t ht => ⟨t, ht, TaskKept.refl t⟩, fun _ t ht hst => .inr ⟨t, ht, hst⟩⟩

lemma moves_modifyNode (k : Text) (f : Node → Node) (hf : ∀ n, (f n).address = n.address)
    (h : ∀ n, ServiceMove n (f n)) (hkept : ∀ n, (f n).status = n.status ∧
      (f n).currentTaskIDCommitment = n.currentTaskIDCommitment) :
    Tx.Keeps (MoveFrame free starting)
      (Tx.modifyDb fun db : Db => { db with nodes := db.nodes.modify k f hf } : Relay Unit) :=
  fun w => moves_nodes (rows_modify w.db.nodes k f hf fun n _ =>
    ⟨h n, .inr fun hw => ⟨(hkept n).1 ▸ hw, (hkept n).2⟩⟩)

/-- a status update moves the row from the status that the caller has read. -/
lemma moves_nodeUpdateStatus (node : Node) (f : Node → Node) (hf : ∀ n, (f n).address = n.address)
    (h : ∀ n, n.status = node.status → ServiceMove n (f n))
    (hfree : free node.address ∨ ∀ n, n.status = node.status → n.status.isWorking →
      (f n).status.isWorking ∧ (f n).currentTaskIDCommitment = n.currentTaskIDCommitment) :
    Tx.Keeps (MoveFrame free starting) (node.updateStatus f hf) := by
  intro w
  refine after_orFail_bind fun row hrow => after_require_bind fun hst => ?_
  refine moves_nodes (rows_modify w.db.nodes node.address f hf fun n hn => ?_)
  have haddr : n.address = node.address := key_of_get hn
  rw [hrow] at hn
  cases hn
  exact ⟨h row hst, hfree.imp (haddr ▸ ·) fun hk hw => hk row hst hw⟩

lemma idle_kept {st : NodeStatus} {f : Node → Node} (hst : node.status = st)
    (hidle : ¬ st.isWorking) : free node.address ∨ ∀ n, n.status = node.status →
      n.status.isWorking → (f n).status.isWorking ∧
        (f n).currentTaskIDCommitment = n.currentTaskIDCommitment := by
  refine .inr fun n hn hw => absurd ?_ hidle
  rwa [hn, hst] at hw

lemma moves_tasks {c : Text} {f : InferenceTask → InferenceTask}
    {hf : ∀ t, (f t).taskIDCommitment = t.taskIDCommitment}
    (h : ∀ t, w.db.tasks.get c = some t → TaskKept starting t (f t)) :
    MoveFrame free starting w ⟨{ w.db with tasks := w.db.tasks.modify c f hf }, w.mem⟩ := by
  refine ⟨Rows.refl _, fun j t ht => ?_, fun j t' ht' hstarted => ?_⟩
  · show ∃ t', (w.db.tasks.modify c f hf).get j = some t' ∧ _
    rw [get_modify]
    split
    · next hj =>
      subst hj
      exact ⟨f t, by rw [ht]; rfl, h t ht⟩
    · exact ⟨t, ht, TaskKept.refl t⟩
  · change (w.db.tasks.modify c f hf).get j = some t' at ht'
    rw [get_modify] at ht'
    split at ht'
    · next hj =>
      subst hj
      obtain ⟨t, ht, rfl⟩ := map_eq_some_iff.1 ht'
      exact ((h t ht).started hstarted).imp_right fun hst => ⟨t, ht, hst⟩
    · exact .inr ⟨t', ht', hstarted⟩

/-- a status update of a task changes the row only when it has the status that the caller has read. -/
lemma moves_taskUpdateStatus (task : InferenceTask) (f : InferenceTask → InferenceTask)
    (hf : ∀ t, (f t).taskIDCommitment = t.taskIDCommitment) (h : ∀ t, t.status = task.status →
    TaskKept starting t (f t)) : Tx.Keeps (MoveFrame free starting) (task.updateStatus f hf) := by
  intro w
  refine after_orFail_bind fun row hrow => after_require_bind fun hst => ?_
  refine moves_tasks fun t ht => h t ?_
  rw [hrow] at ht
  cases ht
  exact hst

/-! ## nodes -/

instance {qos : Nat} : Kept (MoveFrame free starting) (updateNodeQosScore env node qos) := by
  unfold updateNodeQosScore getNodeTaskQosScore
  exact ⟨keeps_bind keeps fun score =>
    keeps_bind (moves_modifyNode node.address _ _ (fun n => .score n score) fun _ => ⟨rfl, rfl⟩) fun _ => keeps⟩

instance : Kept (MoveFrame free starting) (applyTaskQosScore env node task) := by
  unfold applyTaskQosScore
  split
  all_goals infer_instance

instance : Kept (MoveFrame free starting) (applyHealthPenalty env node) :=
  ⟨keeps_bind (moves_modifyNode node.address _ _ (fun n => .health n _ _ _) fun _ => ⟨rfl, rfl⟩) fun _ => keeps⟩

instance : Kept (MoveFrame free starting) (applyHealthBoost env node) :=
  ⟨keeps_bind (moves_modifyNode node.address _ _ (fun n => .health n _ _ n.healthExcluded) fun _ => ⟨rfl, rfl⟩)
    fun _ => keeps⟩

lemma moves_setNodeStatusQuitTx (env : Env) (node : Node) (slashed : Bool)
    (h : free node.address ∨ ¬ node.status.isWorking) :
    Tx.Keeps (MoveFrame free starting) (setNodeStatusQuitTx env node slashed) := by
  dsimp only [setNodeStatusQuitTx, clearNodeModelState, getStakingStatus, slashNodeVestingsTx]
  refine keeps_bind keeps fun _ =>
    keeps_bind (moves_nodeUpdateStatus node _ _ (fun n _ => .quit n) ?_) fun _ => keeps
  exact h.elim .inl (idle_kept rfl)

lemma moves_setNodeStatusQuit (env : Env) (node : Node) (slashed : Bool)
    (h : free node.address ∨ ¬ node.status.isWorking) :
    Tx.Keeps (MoveFrame free starting) (setNodeStatusQuit env node slashed) :=
  keeps_bind (keeps_transaction (moves_setNodeStatusQuitTx env node slashed h)) fun _ => keeps

lemma moves_nodeStartTask (env : Env) (node : Node) (c : Text) :
    Tx.Keeps (MoveFrame free starting) (nodeStartTask env node c) := by
  intro w
  refine after_require_bind fun hav => ?_
  refine after_require_bind fun _ => keeps_transaction ?_ w
  exact moves_nodeUpdateStatus node _ _ (fun n hn => .start n c _ (hn.trans hav.1))
    (idle_kept hav.1 (by decide))

lemma moves_nodeFinishTask (env : Env) (node : Node) (h : free node.address) :
    Tx.Keeps (MoveFrame free starting) (nodeFinishTask env node) := by
  refine keeps_require_bind <| keeps_bind keeps fun c => keeps_bind keeps fun m => ?_
  split
  · exact keeps_bind keeps fun _ => moves_setNodeStatusQuit env node false (.inl h)
  · split
    · next hst =>
      exact moves_nodeUpdateStatus _ _ _ (fun n hn => .finish n (hn.trans hst)) (.inl h)
    · exact moves_setNodeStatusQuit env node false (.inl h)
    · next hst =>
      refine keeps_bind (keeps_transaction ?_) fun _ => keeps
      exact keeps_bind (moves_nodeUpdateStatus _ _ _ (fun n hn => .rest n (hn.trans hst)) (.inl h))
        fun _ => keeps
    · exact keeps

/-! ## tasks -/

lemma moves_setTaskStatusStarted (env : Env) (task : InferenceTask) (address : Text) :
    Tx.Keeps (MoveFrame free True) (setTaskStatusStarted env task address) := by
  intro w
  refine after_require_bind fun hqueued => ?_
  refine keeps_bind keeps (fun node => keeps_require_bind <| keeps_require_bind <|
    keeps_bind keeps fun _ => keeps_bind keeps fun hashes => keeps_bind keeps fun timeout =>
      keeps_transaction (keeps_bind (moves_taskUpdateStatus task _ _ fun t ht => ?_)
        fun _ => moves_nodeStartTask env node _)) w
  exact ⟨rfl, fun _ => .inl trivial, fun hne => absurd (ht.trans hqueued) hne⟩

lemma moves_checkedUpdate {st0 : TaskStatus} {e : Err} {f : Time → InferenceTask → InferenceTask}
    {hf : ∀ d t, (f d t).taskIDCommitment = t.taskIDCommitment}
    (h : ∀ d t, TaskKept starting t (f d t)) : Tx.Keeps (MoveFrame free starting) (do
      Tx.require (task.status = st0) e
      let _ ← checkTaskSelectedNode task
      let deadline ← getTaskTransitionDeadline env task st
      transaction (task.updateStatus (f deadline) (hf deadline))) :=
  keeps_require_bind <| keeps_bind keeps fun _ => keeps_bind keeps fun d =>
    keeps_transaction (moves_taskUpdateStatus task _ _ fun t _ => h d t)

lemma moves_setTaskStatusScoreReady (env : Env) (task : InferenceTask) :
    Tx.Keeps (MoveFrame free starting) (setTaskStatusScoreReady env task) :=
  moves_checkedUpdate fun _ _ => taskKept_of_status rfl nofun nofun rfl rfl

lemma moves_setTaskStatusErrorReported (env : Env) (task : InferenceTask) :
    Tx.Keeps (MoveFrame free starting) (setTaskStatusErrorReported env task) :=
  moves_checkedUpdate fun _ _ => taskKept_of_status rfl nofun nofun rfl rfl

lemma moves_setTaskStatusValidated (env : Env) (task : InferenceTask) :
    Tx.Keeps (MoveFrame free starting) (setTaskStatusValidated env task) :=
  moves_checkedUpdate fun _ _ => taskKept_of_status rfl nofun nofun rfl rfl

lemma moves_setTaskStatusGroupValidated (env : Env) (task : InferenceTask) :
    Tx.Keeps (MoveFrame free starting) (setTaskStatusGroupValidated env task) :=
  keeps_require_bind <| keeps_bind keeps fun _ => keeps_bind keeps fun _ =>
    keeps_transaction (keeps_bind (moves_taskUpdateStatus task _ _ fun _ _ =>
      taskKept_of_status rfl nofun nofun rfl rfl) fun _ => keeps)

lemma moves_slashNode (env : Env) (node : Node) (h : free node.address) :
    Tx.Keeps (MoveFrame free starting) (slashNode env node) := by
  refine keeps_require_bind <| keeps_bind (keeps_transaction (keeps_bind ?_ fun _ =>
    keeps_bind (moves_setNodeStatusQuitTx env node true (.inl h)) fun _ => keeps)) fun r => keeps
  unfold abortNodeCurrentTaskForSlash refundTaskPaymentToRelayAccount
  split
  · exact keeps
  · refine keeps_bind keeps fun task => keeps_require_bind ?_
    split
    · exact keeps
    · exact keeps_bind keeps fun _ => keeps_bind (moves_taskUpdateStatus task _ _ fun _ _ =>
        taskKept_of_status rfl (by simp) (by simp) rfl rfl) fun _ => keeps

lemma free_of_checked (hfree : free task.selectedNode)
    (h : Ok (checkTaskSelectedNode task) w node w') : free node.address :=
  (ok_checkTaskSelectedNode.1 h).1.address ▸ hfree

lemma moves_setTaskStatusEndInvalidated (env : Env) (task : InferenceTask) (complete : Bool)
    (hfree : free task.selectedNode) :
    Tx.Keeps (MoveFrame free starting) (setTaskStatusEndInvalidatedWithEvidence env task complete) := by
  refine keeps_require_bind <|
    keeps_bind_of keeps fun w node w' hnode =>
      keeps_transaction (keeps_bind (moves_taskUpdateStatus task _ _ fun _ _ =>
            taskKept_of_status rfl nofun nofun rfl rfl) fun _ => ?_)
  split
  · unfold createPendingSlash
    exact keeps_bind keeps fun _ => moves_nodeFinishTask env node (free_of_checked hfree hnode)
  · exact moves_slashNode env node (free_of_checked hfree hnode)

lemma moves_setTaskStatusEndGroupRefund (env : Env) (task : InferenceTask)
    (hfree : free task.selectedNode) :
    Tx.Keeps (MoveFrame free starting) (setTaskStatusEndGroupRefund env task) := by
  unfold setTaskStatusEndGroupRefund refundTaskPaymentToRelayAccount
  refine keeps_require_bind <|
    keeps_bind_of keeps fun w node w' hnode =>
      keeps_transaction (keeps_bind keeps fun f =>
        keeps_bind_of keeps fun w1 node1 w1' hqos =>
          keeps_bind (moves_taskUpdateStatus task _ _ fun _ _ =>
            taskKept_of_status rfl nofun nofun rfl rfl) fun _ =>
              keeps_bind_of keeps fun w2 node2 w2' hboost =>
                keeps_bind (moves_nodeFinishTask env node2 ?_) fun _ => keeps)
  rw [applyHealthBoost_address hboost, applyTaskQosScore_address hqos]
  exact free_of_checked hfree hnode

lemma moves_releaseAbortedNode (env : Env) (task : InferenceTask) (node : Node)
    (h : free node.address) :
    Tx.Keeps (MoveFrame free starting) (releaseAbortedNode env task node) := by
  have hqos : Kept (MoveFrame free starting) (applyAbortQosScore env task node) := by
    unfold applyAbortQosScore
    infer_instance
  have hhealth (n : Node) : Kept (MoveFrame free starting) (applyAbortHealthPenalty env task n) := by
    unfold applyAbortHealthPenalty
    infer_instance
  refine keeps_bind_of hqos.keeps fun w1 node1 w1' h1 => keeps_bind_of (hhealth node1).keeps
    fun w2 node2 w2' h2 => moves_nodeFinishTask env node2 ?_
  rwa [(applyAbortHealthPenalty_ok h2).2, (applyAbortQosScore_ok h1).2]

lemma moves_setTaskStatusEndAborted (env : Env) (task : InferenceTask)
    (hfree : task.selectedNode ≠ [] → free task.selectedNode) :
    Tx.Keeps (MoveFrame free starting) (setTaskStatusEndAborted env task) := by
  unfold setTaskStatusEndAborted
  split
  · exact keeps
  refine keeps_require_bind <| keeps_transaction ?_
  refine keeps_bind_of keeps fun w o w' ho =>
    keeps_bind keeps fun f =>
      keeps_bind (moves_taskUpdateStatus task _ _ fun _ _ =>
        taskKept_of_status rfl (by simp) (by simp) rfl rfl) fun _ => ?_
  cases o with
  | none => exact keeps
  | some node =>
    refine keeps_bind (moves_releaseAbortedNode env task node ?_) fun _ => keeps
    obtain ⟨-, ⟨n, hn, hhold, hsel⟩ | ⟨hn, -⟩⟩ := abortedTaskNode_ok ho
    · cases hn
      exact hhold.address ▸ hfree hsel
    · cases hn

lemma settlementPayments_terminal (db : Db) (task : InferenceTask) (node : Node)
    (tasks : List InferenceTask) : (settlementPayments db task node tasks).2.isTerminal = true := by
  unfold settlementPayments
  split
  · rfl
  · rfl

lemma moves_setTaskStatusEndSuccess (env : Env) (task : InferenceTask)
    (hfree : free task.selectedNode) :
    Tx.Keeps (MoveFrame free starting) (setTaskStatusEndSuccess env task) := by
  refine keeps_bind_of keeps fun w node w' hnode =>
    keeps_bind (keeps_bind keeps fun _ => keeps) fun tasks =>
      keeps_bind keeps fun db => keeps_require_bind <|
        keeps_transaction (keeps_bind keeps fun f => ?_)
  refine keeps_bind (moves_taskUpdateStatus task _ _ fun t _ => ?_) fun _ => ?_
  · have hend := settlementPayments_terminal db task node tasks
    refine taskKept_of_status rfl (fun h => ?_) (fun h => ?_) rfl rfl
    all_goals
      rw [show (settlementPayments db task node tasks).2 = _ from h] at hend
      cases hend
  · refine keeps_bind_of keeps fun w2 node2 w2' hboost =>
      keeps_bind (moves_nodeFinishTask env node2 ?_) fun _ => keeps
    rw [applyHealthBoost_address hboost]
    exact free_of_checked hfree hnode

/-! ## validation -/

lemma moves_persistAbortedTaskQos (env : Env) (task : InferenceTask) :
    Tx.Keeps (MoveFrame free starting) (persistValidationGroupAbortedTaskQos env task) := by
  exact keeps_bind keeps fun _ => fun w => moves_tasks fun t _ => ⟨rfl, .inr, fun h => ⟨h, rfl⟩⟩

lemma moves_applyGroupStatus (env : Env) (next : Text → TaskStatus)
    (evidence : List (Text × Bool)) (finished : Nat) (task : InferenceTask) :
    Tx.Keeps (MoveFrame (fun _ => True) starting) (applyGroupStatus env next evidence finished task) := by
  unfold applyGroupStatus
  split
  · exact keeps_bind keeps fun complete =>
      moves_setTaskStatusEndInvalidated env task complete trivial
  · exact moves_setTaskStatusGroupValidated env task
  · exact moves_setTaskStatusEndGroupRefund env task trivial
  · split
    · exact moves_setTaskStatusEndAborted env _ fun _ => trivial
    · exact moves_persistAbortedTaskQos env task

/-! ## requests of nodes -/

instance : Kept (MoveFrame free starting) (pauseOnce node) := by
  refine ⟨?_⟩
  unfold pauseOnce
  split
  · next hst =>
    exact keeps_bind (keeps_transaction (keeps_bind (moves_nodeUpdateStatus _ _ _
      (fun n hn => .pause n (hn.trans hst)) (idle_kept hst (by decide))) fun _ => keeps)) fun _ => keeps
  · next hst =>
    exact moves_nodeUpdateStatus _ _ _ (fun n hn => .pauseLater n (hn.trans hst))
      (.inr fun n _ _ => ⟨.inr (.inl rfl), rfl⟩)
  · exact keeps

instance : Kept (MoveFrame free starting) (resumeOnce node) := by
  refine ⟨fun w => ?_⟩
  unfold resumeOnce incrementNodeNameCountTx
  refine after_require_bind fun hst => ?_
  refine keeps_bind (keeps_transaction ?_) (fun _ => keeps) w
  exact keeps_bind (moves_nodeUpdateStatus _ _ _ (fun n hn => .resume n (hn.trans hst))
    (idle_kept hst (by decide))) fun _ => keeps

instance : Kept (MoveFrame free starting) (quitOnce env node) := by
  refine ⟨?_⟩
  unfold quitOnce
  split
  · next hst => exact moves_setNodeStatusQuit env node false (.inr (by rw [hst]; decide))
  · next hst => exact moves_setNodeStatusQuit env node false (.inr (by rw [hst]; decide))
  · next hst =>
    exact moves_nodeUpdateStatus _ _ _ (fun n hn => .quitLater n (hn.trans hst))
      (.inr fun n _ _ => ⟨.inr (.inr rfl), rfl⟩)
  all_goals exact keeps

def NodeOp.isReport : NodeOp → Bool
  | .join .. | .syncCapabilities .. => true
  | _ => false

lemma moves_nodeOp (h : op.isReport = false) (hfree : op.isRequest = true ∨ ∀ a, free a) :
    Tx.Keeps (MoveFrame free starting) op.tx := by
  cases op with
  | updateVersion address version =>
    exact keeps_bind keeps fun v => keeps_bind keeps fun _ => keeps_bind
      (moves_modifyNode address _ _ (fun n => .version n v) fun _ => ⟨rfl, rfl⟩) fun _ => keeps
  | pause address | resume address | quit env address =>
    dsimp only [tx, nodePause, nodeResume, nodeQuit, getStakingStatus]
    exact keeps
  | start env address c => exact keeps_bind keeps fun node => moves_nodeStartTask env node c
  | finish env address =>
    exact keeps_bind keeps fun node =>
      keeps_transaction (moves_nodeFinishTask env node (hfree.resolve_left nofun _))
  | slash env address =>
    exact keeps_bind keeps fun node => moves_slashNode env node (hfree.resolve_left nofun _)
  | _ => cases h

/-! ## reports of nodes -/

/-- the row after a report, given the row before: a joining node has quit or is new, and it is available
with the hardware that it tells; a synchronised node keeps its status and its task. -/
def NodeOp.Reports (old : Option Node) (a : Text) (n' : Node) : NodeOp → Prop
  | .join _ input => a = input.address ∧ n'.gpuName = input.gpuName ∧ n'.gpuVram = input.gpuVram ∧
      n'.status = .available ∧ n'.currentTaskIDCommitment = old.bind (·.currentTaskIDCommitment) ∧
      ∀ n, old = some n → n.status = .quit
  | .syncCapabilities _ address c => a = address ∧ n'.gpuName = c.gpuName ∧
      n'.gpuVram = c.gpuVram ∧ ∃ n, old = some n ∧ n.status ≠ .quit ∧ n'.status = n.status ∧
      n'.currentTaskIDCommitment = n.currentTaskIDCommitment
  | _ => False

lemma get_saveRow (nodes : Table Node.address) (node : Node) (a : Text) :
    (saveRow nodes node).get a = if a = node.address then some node else nodes.get a := by
  unfold saveRow
  split
  · next hnone => exact get_insert nodes node a hnone
  · next row hrow =>
    rw [get_modify, hrow]
    split
    · rw [map_some, key_of_get hrow]
    · rfl

/-- **a report** changes the row of its node only, and no task. -/
theorem report_rows (h : op.isReport = true) (w : World) :
    (op.exec w).db.tasks = w.db.tasks ∧ ∀ a n', (op.exec w).db.nodes.get a = some n' →
      w.db.nodes.get a = some n' ∨ op.Reports (w.db.nodes.get a) a n' := by
  have hreq : op.isRequest = true := by
    cases op with
    | join env input => rfl
    | syncCapabilities env address c => rfl
    | _ => cases h
  refine ⟨(nodeSide_nodeOp hreq w).1.tasks, fun a n' hn' => ?_⟩
  rcases ok_or_fails op.tx w with ⟨u, hok⟩ | ⟨e, hfail⟩
  · cases op with
    | join env input =>
      obtain ⟨joined, haddr, hrep, hnodes, -⟩ := nodeJoin_ok hok
      rw [exec, hnodes, get_saveRow, haddr] at hn'
      split at hn'
      · next ha =>
        cases hn'
        rw [ha]
        exact .inr ⟨rfl, hrep⟩
      · exact .inl hn'
    | syncCapabilities env address c =>
      obtain ⟨row, v, hrow, hquit, hnodes, -⟩ := syncNodeCapabilities_ok hok
      rw [exec, hnodes, get_modify, hrow] at hn'
      split at hn'
      · next ha =>
        cases hn'
        rw [ha, hrow]
        exact .inr ⟨rfl, rfl, rfl, row, rfl, hquit, rfl, rfl⟩
      · exact .inl hn'
    | _ => cases h
  · rw [exec, op.atomic w e _ hfail] at hn'
    exact .inl hn'

lemma request_forth (op : NodeOp) (w : World)
    (hn : w.db.nodes.get a = some n) : ∃ n', (op.exec w).db.nodes.get a = some n' := by
  cases hrep : op.isReport with
  | false =>
    have hframe : MoveFrame (fun _ => True) True w (op.exec w) :=
      moves_nodeOp hrep (.inr fun _ => trivial) w
    exact hframe.nodes.forth a n hn
  | true =>
    rcases ok_or_fails op.tx w with ⟨u, hok⟩ | ⟨e, hfail⟩
    · cases op with
      | join env input =>
        obtain ⟨joined, -, -, hnodes, -⟩ := nodeJoin_ok hok
        rw [exec, hnodes, get_saveRow]
        split
        · exact ⟨joined, rfl⟩
        · exact ⟨n, hn⟩
      | syncCapabilities env address c =>
        obtain ⟨row, v, -, -, hnodes, -⟩ := syncNodeCapabilities_ok hok
        rw [exec, hnodes]
        have hrows : Rows (fun _ _ => True) w.db.nodes (w.db.nodes.modify address
            (fun n => n.withCapabilities c.gpuName c.gpuVram v) fun n =>
              n.address_withCapabilities c.gpuName c.gpuVram v) :=
          rows_modify _ _ _ _ fun _ _ => trivial
        exact hrows.forth a n hn
      | _ => cases hrep
    · rw [exec, op.atomic w e _ hfail]
      exact ⟨n, hn⟩

/-! ## the operations of the relay -/

lemma moves_createTask (env : Env) (t : NewTask) :
    Tx.Keeps (MoveFrame free starting) (createTask env t.task) := by
  refine keeps_iff.2 ⟨fun w u w' h => ?_, fun w e w' h => ?_⟩
  · obtain ⟨-, hnew, -, rfl⟩ := createTask_ok h
    refine ⟨Rows.refl _, fun c t' ht' => ⟨t', afterCreate_of_get hnew ht', TaskKept.refl t'⟩,
      fun c t' ht' hst => .inr ⟨t', ?_, hst⟩⟩
    rcases afterCreate_cases hnew ht' with ⟨-, rfl⟩ | ht'
    · have hqueued : t.task.status = .started := hst
      rw [t.queued] at hqueued
      cases hqueued
    · exact ht'
  · have hdb := (KeptOnFail.onFail (r := Undone) w e w' h).db
    exact moveFrame_of_eq (by rw [hdb]) (by rw [hdb])

lemma moves_taskCall (call : TaskCall) (env : Env) (flight : Flight)
    (h : starting ∨ ∀ address, call ≠ .start address) :
    Tx.Keeps (MoveFrame (fun _ => True) starting) (call.tx env flight) := by
  cases call with
  | start address =>
    rcases h with h | h
    · have hs : starting = True := eq_true h
      subst hs
      exact moves_setTaskStatusStarted env flight.task address
    · exact absurd rfl (h address)
  | submitScore score => exact moves_setTaskStatusScoreReady env _
  | reportError error => exact moves_setTaskStatusErrorReported env _
  | validate taskID vrfProof publicKey =>
    refine keeps_require_bind <| keeps_require_bind <|
      keeps_require_bind <| keeps_require_bind <| keeps_require_bind ?_
    split
    · exact moves_setTaskStatusValidated env _
    · exact moves_setTaskStatusEndAborted env _ fun _ => trivial
  | timeOut =>
    show Tx.Keeps (MoveFrame (fun _ => True) starting) (abortTimedOutTask env flight.task)
    unfold abortTimedOutTask
    split
    · exact keeps_when (moves_setTaskStatusEndAborted env _ fun _ => trivial)
    · exact keeps
  | upload => exact keeps_when (moves_setTaskStatusEndSuccess env flight.task trivial)
  | _ =>
    exact keeps_require_bind <| moves_setTaskStatusEndAborted env _ fun _ => trivial

lemma moves_relayOp {op : RelayOp} (flights : List Flight) (hreport : ∀ req, op = .request req →
    req.isReport = false) (hstart : starting ∨ op.startsTask = false) :
    Tx.Keeps (MoveFrame (fun _ => True) starting) (op.tx flights) := by
  cases hop : op.onFunds with
  | true => exact (fundsOnly_relayOp hop flights).mono fun _ _ hx => OnRows.of_eq _ _ hx.nodes hx.tasks
  | false =>
    cases op with
    | create env t => exact moves_createTask env t
    | attempt env i call =>
      rw [RelayOp.tx]
      split
      · refine moves_taskCall call env _ (hstart.imp_right fun h address e => ?_)
        subst e
        cases h
      · exact keeps
    | validateGroup env i j k taskID vrfProof publicKey =>
      rw [RelayOp.tx]
      split
      · refine keeps_require_bind <| keeps_require_bind <| keeps_bind keeps fun _ => keeps_require_bind <|
          keeps_transaction <| keeps_bind keeps fun _ => keeps_require_bind <| keeps_bind keeps fun next => ?_
        exact keeps_bind keeps fun evidence => keeps_each (moves_applyGroupStatus env next evidence _) _
      · exact keeps
    | slash env node => exact moves_slashNode env node trivial
    | request req => exact moves_nodeOp (hreport req rfl) (.inr fun _ => trivial)
    | _ => first | exact keeps_pure _ | cases hop

/-- **every operation of the relay** moves rows, the reports of nodes apart, and starts no task unless
it is a start. -/
theorem rowFrame_relayOp {op : RelayOp} (flights : List Flight)
    (hreport : ∀ req, op = .request req → req.isReport = false)
    (hstart : starting ∨ op.startsTask = false) : Tx.Keeps (RowFrame starting) (op.tx flights) :=
  fun w => (moves_relayOp flights hreport hstart w).rowFrame

end CrynuxRelay
