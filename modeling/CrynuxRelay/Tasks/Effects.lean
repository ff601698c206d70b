import CrynuxRelay.Nodes.Side
import CrynuxRelay.Tasks.Creation

/-!
# The effects of the task transitions

* `Drafted` -- events inserted and their accounts loaded, before the increments of the cache;
  `Drafted.commit` -- with the increments it is a completed writer;
* `Rewrites`, `Moves` -- what a transition of one task does to the database: the row, the events, and
  the nodes, which only lose tasks unless the task starts;
* one lemma for each `SetTaskStatus` function: its guards, the row it writes, the events it posts and
  the node it frees.
-/

namespace CrynuxRelay

open List Option Table Tx Both Kept

variable {ds : List EventDraft} {w w' w₁ : World} {d : EventDraft} {u : Unit} {env : Env} {c : Text}
    {f : CommitFunc} {db : Db} {task : InferenceTask} {node node' : Node} {payments : List TaskPayment}
  {hashes : List Hash32} {o : Option Node} {timeout : Nat} {amount : Int} {w'' : World}

/-! ## events before their increments -/

/-- the events are in the log and their accounts are loaded; no balance has changed. -/
structure Drafted (ds : List EventDraft) (w w' : World) : Prop where
  appends : Appends ds w.db w'.db
  db : w'.db = { w.db with relayAccountEvents := w'.db.relayAccountEvents }
  mem : w'.mem = { w.mem with relayAccountCache := w'.mem.relayAccountCache }
  cached : ∀ a, cachedBalance w' a = cachedBalance w a
  keeps_loaded : ∀ a, Loaded w a → Loaded w' a
  loads : ∀ d ∈ ds, Loaded w' d.address

lemma Drafted.nil (w : World) : Drafted [] w w :=
  ⟨Appends.nil rfl, rfl, rfl, fun _ => rfl, fun _ h => h, by simp⟩

lemma Drafted.trans {ds' : List EventDraft} (h : Drafted ds w w')
    (h' : Drafted ds' w' w'') : Drafted (ds ++ ds') w w'' where
  appends := h.appends.trans h'.appends
  db := by rw [h'.db, h.db]
  mem := by rw [h'.mem, h.mem]
  cached := fun a => (h'.cached a).trans (h.cached a)
  keeps_loaded := fun a ha => h'.keeps_loaded a (h.keeps_loaded a ha)
  loads := fun d hd => by
    rcases mem_append.1 hd with hd | hd
    · exact h'.keeps_loaded _ (h.loads d hd)
    · exact h'.loads d hd

lemma drafted_credit (hr : w.db.relayAccountEvents.reasonTaken d.reason = false) :
    Drafted [d] w (loadAccount d.address (appendEvent d w)) where
  appends := appends_appendEvent hr
  db := rfl
  mem := rfl
  cached := fun a => by rw [cachedBalance_loadAccount, cachedBalance_appendEvent]
  keeps_loaded := fun a ha => loaded_loadAccount.2 (.inr ha)
  loads := fun d' hd' => by
    rw [mem_singleton.1 hd']
    exact loaded_loadAccount.2 (.inl rfl)

/-- neither events nor balances differ. -/
structure Quiet (w w' : World) : Prop where
  events : w'.db.relayAccountEvents = w.db.relayAccountEvents
  accounts : w'.db.relayAccounts = w.db.relayAccounts
  cache : w'.mem.relayAccountCache = w.mem.relayAccountCache

lemma Quiet.trans (h : Quiet w w') (h' : Quiet w' w'') : Quiet w w'' :=
  ⟨h'.events.trans h.events, h'.accounts.trans h.accounts, h'.cache.trans h.cache⟩

lemma Quiet.cachedBalance (h : Quiet w w') (a : Text) :
    CrynuxRelay.cachedBalance w' a = CrynuxRelay.cachedBalance w a := by
  rw [CrynuxRelay.cachedBalance, h.cache, projectedBalance, h.accounts]
  rfl

lemma quiet_of_nodeSide (h : NodeSide w w') : Quiet w w' :=
  ⟨h.1.events, h.1.accounts, h.2⟩

lemma Quiet.posts (h : Quiet w w') : Posts [] w w' where
  appends := Appends.nil h.events
  accounts := h.accounts
  cached := fun a => by rw [h.cachedBalance, map_nil, total_nil, add_zero]
  keeps_loaded := fun a ha => by
    rw [Loaded, h.cache]
    exact ha
  loads := by simp

def EventDraft.increment (d : EventDraft) : Posting Text Int := ⟨d.address, d.amount⟩

/-- **drafted credits and their increments** are a completed writer, whatever the quiet steps
between them. -/
theorem Drafted.commit {w2 : World} (h : Drafted ds w w₁) (hq : Quiet w₁ w2)
    (hd : ∀ d ∈ ds, d.type.isDebit = false) :
    Posts ds w (applyPostings (ds.map (·.increment)) w2) := by
  have hp : ds.map (·.posting) = ds.map (·.increment) :=
    map_congr_left fun d hd' => by rw [EventDraft.posting, hd d hd']; rfl
  have hl : ∀ d ∈ ds, Loaded w2 d.address := by
    intro d hd'
    rw [Loaded, hq.cache]
    exact h.loads d hd'
  refine ⟨?_, ?_, ?_, ?_, ?_⟩
  · obtain ⟨es, hr, hds⟩ := h.appends
    refine ⟨es, ?_, hds⟩
    rw [db_applyPostings, hq.events, hr]
  · rw [db_applyPostings, hq.accounts, h.db]
  · intro a
    rw [cachedBalance_applyPostings, hq.cachedBalance, h.cached, hp]
    intro p hp'
    obtain ⟨d, hd', rfl⟩ := List.mem_map.1 hp'
    exact hl d hd'
  · intro a ha
    refine loaded_applyPostings ?_
    rw [Loaded, hq.cache]
    exact h.keeps_loaded a ha
  · intro d hd'
    exact loaded_applyPostings (hl d hd')

/-! ## task income -/

lemma createRelayAccountEvents_ok (h : Ok (createRelayAccountEvents ds) w u w') :
    Appends ds w.db w'.db ∧ w'.mem = w.mem ∧
      w'.db = { w.db with relayAccountEvents := w'.db.relayAccountEvents } := by
  induction ds generalizing w with
  | nil =>
    obtain rfl := ok_each_nil.1 h
    exact ⟨Appends.nil rfl, rfl, rfl⟩
  | cons d ds ih =>
    obtain ⟨w₁, h1, h2⟩ := ok_each_cons.1 h
    obtain ⟨hr, rfl⟩ := ok_createRelayAccountEvent.1 h1
    obtain ⟨happ, hmem, hdb⟩ := ih h2
    refine ⟨(appends_appendEvent hr).trans happ, hmem, ?_⟩
    rw [hdb]
    rfl

lemma loadAccounts_ok (h : Ok (loadAccounts ds) w u w') :
    w'.db = w.db ∧ w'.mem = { w.mem with relayAccountCache := w'.mem.relayAccountCache } ∧
      (∀ a, cachedBalance w' a = cachedBalance w a) ∧ (∀ a, Loaded w a → Loaded w' a) ∧
      ∀ d ∈ ds, Loaded w' d.address := by
  induction ds generalizing w with
  | nil =>
    obtain rfl := ok_each_nil.1 h
    exact ⟨rfl, rfl, fun _ => rfl, fun _ h => h, by simp⟩
  | cons d ds ih =>
    obtain ⟨w₁, h1, h2⟩ := ok_each_cons.1 h
    obtain ⟨b, w2, hload, hpure⟩ := ok_bind.1 h1
    obtain ⟨-, rfl⟩ := ok_pure.1 hpure
    obtain ⟨-, rfl⟩ := ok_getRelayAccountFromCache.1 hload
    obtain ⟨hdb, hmem, hcached, hkeep, hl⟩ := ih h2
    refine ⟨hdb, ?_, ?_, ?_, ?_⟩
    · rw [hmem]
      rfl
    · intro a
      rw [hcached, cachedBalance_loadAccount]
    · intro a ha
      exact hkeep a (loaded_loadAccount.2 (.inr ha))
    · intro d' hd'
      rcases mem_cons.1 hd' with rfl | hd'
      · exact hkeep _ (loaded_loadAccount.2 (.inl rfl))
      · exact hl d' hd'

lemma sendTaskIncome_ok {address network : Text}
    (h : Ok (sendTaskIncome env c address amount network) w f w') :
    f = (taskIncomeEvents env c address amount network).map (·.increment) ∧
      Drafted (taskIncomeEvents env c address amount network) w w' := by
  obtain ⟨u, w₁, h1, h⟩ := ok_bind.1 h
  rw [ok_transaction] at h1
  obtain ⟨happ, hmem, hdb⟩ := createRelayAccountEvents_ok h1
  obtain ⟨u', w2, h2, h⟩ := ok_bind.1 h
  obtain ⟨hdb2, hmem2, hcached, hkeep, hl⟩ := loadAccounts_ok h2
  obtain ⟨rfl, rfl⟩ := ok_pure.1 h
  have hq : ∀ a, cachedBalance w₁ a = cachedBalance w a := by
    intro a
    rw [cachedBalance, hmem, projectedBalance, hdb]
    rfl
  refine ⟨rfl, ?_, ?_, ?_, fun a => (hcached a).trans (hq a), ?_, hl⟩
  · rwa [hdb2]
  · rwa [hdb2]
  · rw [hmem2, hmem]
  · intro a ha
    refine hkeep a ?_
    rwa [Loaded, hmem]

def incomeDrafts (env : Env) (payments : List TaskPayment) : List EventDraft :=
  payments.flatMap fun p => taskIncomeEvents env p.taskIDCommitment p.address p.payment p.network

lemma sendTaskIncomes_ok (h : Ok (sendTaskIncomes env payments) w f w') :
    f = (incomeDrafts env payments).map (·.increment) ∧ Drafted (incomeDrafts env payments) w w' := by
  induction payments generalizing w w' f with
  | nil =>
    obtain ⟨rfl, rfl⟩ := ok_pure.1 h
    exact ⟨rfl, Drafted.nil w'⟩
  | cons p l ih =>
    obtain ⟨g, w₁, h1, h⟩ := ok_bind.1 h
    obtain ⟨rfl, hd⟩ := sendTaskIncome_ok h1
    obtain ⟨gs, w2, h2, h⟩ := ok_bind.1 h
    obtain ⟨rfl, hds⟩ := ih h2
    obtain ⟨rfl, rfl⟩ := ok_pure.1 h
    have hcons : incomeDrafts env (p :: l) =
        taskIncomeEvents env p.taskIDCommitment p.address p.payment p.network ++
          incomeDrafts env l := flatMap_cons
    rw [hcons, map_append]
    exact ⟨rfl, hd.trans hds⟩

lemma taskIncomeEvents_credit {address network : Text}
    (h : d ∈ taskIncomeEvents env c address amount network) : d.type.isDebit = false := by
  rcases mem_append.1 h with h | h
  · obtain ⟨p, -, rfl⟩ := List.mem_map.1 h
    rfl
  · simp only [mem_cons, not_mem_nil, or_false] at h
    rcases h with rfl | rfl
    · rfl
    · rfl

/-! ## moves -/

/-- `f` is applied to the row of task `c` and `ds` are posted, and the other tables keep their
rows. -/
structure Rewrites (c : Text) (f : InferenceTask → InferenceTask) (ds : List EventDraft)
    (w w' : World) : Prop where
  posts : Posts ds w w'
  tasks : ∀ j, w'.db.tasks.get j = if j = c then (w.db.tasks.get c).map f else w.db.tasks.get j
  keys : w'.db.tasks.keys = w.db.tasks.keys
  withdrawRecords : w'.db.withdrawRecords = w.db.withdrawRecords
  depositRecords : w'.db.depositRecords = w.db.depositRecords
  vestingRecords : SameVestings w.db.vestingRecords w'.db.vestingRecords

section
variable {t : InferenceTask} {f : InferenceTask → InferenceTask} {j : Text}
  (hm : Rewrites c f ds w w')
include hm

lemma Rewrites.row (ht : w.db.tasks.get c = some t) : w'.db.tasks.get c = some (f t) := by
  rw [hm.tasks, if_pos rfl, ht]
  rfl

lemma Rewrites.other (hj : j ≠ c) : w'.db.tasks.get j = w.db.tasks.get j := by
  rw [hm.tasks, if_neg hj]

lemma Rewrites.row_cases (ht : w.db.tasks.get c = some t) {u : InferenceTask}
    (hu : w'.db.tasks.get j = some u) : (j = c ∧ u = f t) ∨ (j ≠ c ∧ w.db.tasks.get j = some u) := by
  by_cases hj : j = c
  · rw [hj, hm.row ht] at hu
    exact .inl ⟨hj, (some.inj hu).symm⟩
  · rw [hm.other hj] at hu
    exact .inr ⟨hj, hu⟩

end

/-- a transition of task `c` in which nodes only lose tasks. -/
structure Moves (c : Text) (f : InferenceTask → InferenceTask) (ds : List EventDraft)
    (w w' : World) : Prop extends Rewrites c f ds w w' where
  current : ∀ a c', currentOf w'.db a = some c' → currentOf w.db a = some c'

/-- the parts of a transition: events, node updates, the row, node updates, increments. -/
lemma moves_of_parts {f : InferenceTask → InferenceTask}
    {hf : ∀ t, (f t).taskIDCommitment = t.taskIDCommitment} {w2 w3 : World} (hd : Drafted ds w w₁)
    (h1 : NodeSide w₁ w2)
    (h2 : NodeSide ⟨{ w2.db with tasks := w2.db.tasks.modify c f hf }, w2.mem⟩ w3)
    (hc : ∀ d ∈ ds, d.type.isDebit = false) :
    Moves c f ds w (applyPostings (ds.map (·.increment)) w3) := by
  have htasks : w3.db.tasks = w.db.tasks.modify c f hf := by
    rw [h2.1.tasks]
    show w2.db.tasks.modify c f hf = _
    rw [h1.1.tasks, hd.db]
  have hq : Quiet w₁ w3 :=
    (quiet_of_nodeSide h1).trans ⟨h2.1.events, h2.1.accounts, h2.2⟩
  refine ⟨⟨hd.commit hq hc, ?_, ?_, ?_, ?_, ?_⟩, ?_⟩
  · intro j
    rw [db_applyPostings, htasks, get_modify]
  · rw [db_applyPostings, htasks]
    rfl
  · rw [db_applyPostings, h2.1.withdrawRecords]
    show w2.db.withdrawRecords = _
    rw [h1.1.withdrawRecords, hd.db]
  · rw [db_applyPostings, h2.1.depositRecords]
    show w2.db.depositRecords = _
    rw [h1.1.depositRecords, hd.db]
  · intro id
    rw [db_applyPostings]
    refine (h2.1.vestingRecords id).trans ((h1.1.vestingRecords id).trans ?_)
    rw [hd.db]
  · intro a c' h
    rw [db_applyPostings] at h
    have := h1.1.current a c' (h2.1.current a c' h)
    rwa [currentOf, hd.db] at this

variable (t : InferenceTask) (taskID : Text)

/-! ## running transitions -/

def InferenceTask.validatedAs (now deadline : Time) : InferenceTask :=
  { t with
    status := .validated
    taskID := taskID
    validatedTime := some now
    deadlineAt := some deadline }

def InferenceTask.groupValidatedAs (qosScore : Option Nat) (now deadline : Time) : InferenceTask :=
  { t with
    status := .groupValidated
    taskID := taskID
    validatedTime := some now
    qosScore := qosScore
    deadlineAt := some deadline }

def HoldsTask (db : Db) (task : InferenceTask) (node : Node) : Prop :=
  db.nodes.get task.selectedNode = some node ∧
    node.currentTaskIDCommitment = some task.taskIDCommitment

lemma HoldsTask.address (h : HoldsTask db task node) :
    node.address = task.selectedNode := key_of_get h.1

lemma HoldsTask.currentOf (h : HoldsTask db task node) :
    CrynuxRelay.currentOf db task.selectedNode = some task.taskIDCommitment := by
  rw [CrynuxRelay.currentOf, h.1]
  exact h.2

lemma ok_checkTaskSelectedNode :
    Ok (checkTaskSelectedNode task) w node w' ↔ HoldsTask w.db task node ∧ w' = w := by
  rw [checkTaskSelectedNode, ok_bind]
  constructor
  · rintro ⟨n, w₁, h1, h⟩
    obtain ⟨hn, rfl⟩ := ok_getNodeByAddress.1 h1
    rw [ok_require_bind, ok_pure] at h
    obtain ⟨hc, rfl, rfl⟩ := h
    exact ⟨⟨hn, hc⟩, rfl⟩
  · rintro ⟨⟨hn, hc⟩, rfl⟩
    refine ⟨node, w', ok_getNodeByAddress.2 ⟨hn, rfl⟩, ?_⟩
    rw [ok_require_bind, ok_pure]
    exact ⟨hc, rfl, rfl⟩

def TransitionDeadline (env : Env) (t : InferenceTask) (st : TaskStatus) (d : Time) : Prop :=
  (getTaskDeadline env (t.atTransition st env.now)).map Prod.fst = some d

lemma ok_getTaskTransitionDeadline {t : InferenceTask} {st : TaskStatus} {d : Time}
    (h : Ok (getTaskTransitionDeadline env t st) w d w') :
    TransitionDeadline env t st d ∧ w' = w := by
  unfold getTaskTransitionDeadline at h
  split at h
  · next d' reason hd =>
    obtain ⟨rfl, rfl⟩ := ok_pure.1 h
    refine ⟨?_, rfl⟩
    rw [TransitionDeadline, hd, map_some]
  · exact absurd h ok_fail

/-- the shape of the transitions that only write the row: the status and the node are checked, and
the new deadline is computed. -/
lemma checkedUpdate_ok {st0 st : TaskStatus} {e : Err} {f : Time → InferenceTask → InferenceTask}
    {hf : ∀ d t, (f d t).taskIDCommitment = t.taskIDCommitment} (h : Ok (do
      Tx.require (task.status = st0) e
      let _ ← checkTaskSelectedNode task
      let deadline ← getTaskTransitionDeadline env task st
      transaction (task.updateStatus (f deadline) (hf deadline))) w u w') :
    task.status = st0 ∧ TaskCurrent task w.db ∧ ∃ deadline, TransitionDeadline env task st deadline ∧
      Moves task.taskIDCommitment (f deadline) [] w w' := by
  rw [ok_require_bind, ok_bind] at h
  obtain ⟨hst, node, w₁, hnode, h⟩ := h
  obtain ⟨-, rfl⟩ := ok_checkTaskSelectedNode.1 hnode
  rw [ok_bind] at h
  obtain ⟨deadline, w2, hdl, h⟩ := h
  obtain ⟨hd, rfl⟩ := ok_getTaskTransitionDeadline hdl
  obtain ⟨hcur, rfl⟩ := ok_taskUpdateStatus.1 (ok_transaction.1 h)
  exact ⟨hst, hcur, deadline, hd, moves_of_parts (Drafted.nil w2) (refl w2) (refl _) (by simp)⟩

/-! ## reads of transitions -/

section
variable {r : World → World → Prop} [Stable r]

instance : Kept r (checkTaskSelectedNode task) := by
  unfold checkTaskSelectedNode
  infer_instance

instance {st : TaskStatus} : Kept r (getTaskTransitionDeadline env task st) := by
  unfold getTaskTransitionDeadline
  split
  all_goals infer_instance

instance : Kept r (startTimeout env task node) := by
  unfold startTimeout
  split
  · split
    all_goals infer_instance
  · infer_instance

instance : Kept r (abortedTaskNode task) := by
  unfold abortedTaskNode
  infer_instance

end

/-! ## node updates inside transitions -/

instance : Kept NodeSide (applyTaskQosScore env node task) := by
  unfold applyTaskQosScore
  split
  all_goals infer_instance

lemma applyTaskQosScore_address (h : Ok (applyTaskQosScore env node task) w node' w') :
    node'.address = node.address := by
  unfold applyTaskQosScore at h
  split at h
  all_goals
    obtain ⟨rfl, -⟩ := ok_pure.1 h
    rfl

lemma applyHealthBoost_address (h : Ok (applyHealthBoost env node) w node' w') :
    node'.address = node.address := by
  obtain ⟨rfl, -⟩ := ok_pure.1 h
  rfl

lemma setTaskStatusGroupValidated_ok (h : Ok (setTaskStatusGroupValidated env task) w u w') :
    task.status = .scoreReady ∧ TaskCurrent task w.db ∧ ∃ deadline,
      TransitionDeadline env task .groupValidated deadline ∧ Moves task.taskIDCommitment
        (fun t => t.groupValidatedAs task.taskID task.qosScore env.now deadline) [] w w' := by
  rw [setTaskStatusGroupValidated, ok_require_bind, ok_bind] at h
  obtain ⟨hst, node, w₁, hnode, h⟩ := h
  obtain ⟨-, rfl⟩ := ok_checkTaskSelectedNode.1 hnode
  rw [ok_bind] at h
  obtain ⟨deadline, w2, hdl, h⟩ := h
  obtain ⟨hd, rfl⟩ := ok_getTaskTransitionDeadline hdl
  rw [ok_transaction] at h
  obtain ⟨_, w3, hup, h⟩ := ok_bind.1 h
  obtain ⟨hcur, rfl⟩ := ok_taskUpdateStatus.1 hup
  obtain ⟨node', w4, hq, h⟩ := ok_bind.1 h
  obtain ⟨-, rfl⟩ := ok_pure.1 h
  have hside : NodeSide _ w' := ok hq
  exact ⟨hst, hcur, deadline, hd, moves_of_parts (Drafted.nil w2) (refl w2) hside (by simp)⟩

/-! ## terminal transitions -/

lemma refundDraft_credit (task : InferenceTask) :
    ∀ d ∈ [refundDraft task], d.type.isDebit = false := by
  intro d hd
  rw [mem_singleton.1 hd]
  rfl

def InferenceTask.groupRefunded (qosScore : Option Nat) (now : Time) : InferenceTask :=
  { t with
    status := .endGroupRefund
    taskID := taskID
    validatedTime := some now
    qosScore := qosScore
    deadlineAt := none }

/-- **a group refund** posts the refund of the fee and frees the node. -/
theorem setTaskStatusEndGroupRefund_ok (h : Ok (setTaskStatusEndGroupRefund env task) w u w') :
    task.status = .scoreReady ∧ TaskCurrent task w.db ∧
      Moves task.taskIDCommitment (fun t => t.groupRefunded task.taskID task.qosScore env.now)
        [refundDraft task] w w' ∧ currentOf w'.db task.selectedNode = none := by
  rw [setTaskStatusEndGroupRefund, ok_require_bind, ok_bind] at h
  obtain ⟨hst, node, w₁, hnode, h⟩ := h
  obtain ⟨hhold, rfl⟩ := ok_checkTaskSelectedNode.1 hnode
  rw [ok_transaction] at h
  obtain ⟨f, w2, hrefund, h⟩ := ok_bind.1 h
  obtain ⟨hr, rfl, rfl⟩ := ok_refundTaskPayment.1 hrefund
  obtain ⟨node1, w3, hqos, h⟩ := ok_bind.1 h
  obtain ⟨_, w4, hup, h⟩ := ok_bind.1 h
  obtain ⟨hcur, rfl⟩ := ok_taskUpdateStatus.1 hup
  obtain ⟨node2, w5, hboost, h⟩ := ok_bind.1 h
  obtain ⟨_, w6, hfin, h⟩ := ok_bind.1 h
  obtain rfl := ok_runCommitFunc.1 h
  have hside : NodeSide _ w3 := ok hqos
  have hside' : NodeSide _ w6 := trans (ok hboost) (ok hfin)
  have hm := moves_of_parts (drafted_credit hr) hside hside' (refundDraft_credit task)
  have haddr : node2.address = task.selectedNode := by
    rw [applyHealthBoost_address hboost, applyTaskQosScore_address hqos, hhold.address]
  refine ⟨hst, ?_, hm, ?_⟩
  · rwa [TaskCurrent, hside.1.tasks] at hcur
  · rw [db_applyPostings, ← haddr]
    exact currentOf_nodeFinishTask hfin

def InferenceTask.abortedAs (task : InferenceTask) : InferenceTask :=
  { t with
    status := .endAborted
    taskID := task.taskID
    abortReason := task.abortReason
    validatedTime := task.validatedTime
    qosScore := task.qosScore
    deadlineAt := none }

/-- the node that an abort releases: the selected one if it still holds the task. -/
lemma abortedTaskNode_ok (h : Ok (abortedTaskNode task) w o w') :
    w' = w ∧ ((∃ node, o = some node ∧ HoldsTask w.db task node ∧ task.selectedNode ≠ []) ∨
      (o = none ∧ (task.selectedNode = [] ∨
        currentOf w.db task.selectedNode ≠ some task.taskIDCommitment))) := by
  unfold abortedTaskNode at h
  split at h
  · next hsel =>
    obtain ⟨rfl, rfl⟩ := ok_pure.1 h
    exact ⟨rfl, .inr ⟨rfl, .inl hsel⟩⟩
  next hsel =>
  rw [ok_bind] at h
  obtain ⟨node, w₁, hnode, h⟩ := h
  obtain ⟨hnode, rfl⟩ := ok_getNodeByAddress.1 hnode
  split at h
  · next hc =>
    obtain ⟨rfl, rfl⟩ := ok_pure.1 h
    exact ⟨rfl, .inl ⟨node, rfl, ⟨hnode, hc⟩, hsel⟩⟩
  · next hc =>
    split at h
    · exact absurd h ok_fail
    · obtain ⟨rfl, rfl⟩ := ok_pure.1 h
      refine ⟨rfl, .inr ⟨rfl, .inr ?_⟩⟩
      rwa [currentOf, hnode]

def AbortDrafts (env : Env) (db : Db) (task : InferenceTask) (ds : List EventDraft) : Prop :=
  (task.abortReason = .creatorValidationTimeout ∧ ∃ node, HoldsTask db task node ∧
      ds = taskIncomeEvents env task.taskIDCommitment node.address task.taskFee node.network) ∨
    (task.abortReason ≠ .creatorValidationTimeout ∧ ds = [refundDraft task])

lemma settleAbortedTask_ok (hnode : ∀ node, o = some node → HoldsTask w.db task node)
    (h : Ok (settleAbortedTask env task o) w f w') :
    ∃ ds, AbortDrafts env w.db task ds ∧ f = ds.map (·.increment) ∧ Drafted ds w w' ∧
      ∀ d ∈ ds, d.type.isDebit = false := by
  unfold settleAbortedTask at h
  split at h
  · next hreason =>
    cases o with
    | none => exact absurd h ok_fail
    | some node =>
      obtain ⟨hf, hd⟩ := sendTaskIncome_ok h
      exact ⟨_, .inl ⟨hreason, node, hnode node rfl, rfl⟩, hf, hd, fun d => taskIncomeEvents_credit⟩
  · next hreason =>
    obtain ⟨hr, rfl, rfl⟩ := ok_refundTaskPayment.1 h
    exact ⟨_, .inr ⟨hreason, rfl⟩, rfl, drafted_credit hr, refundDraft_credit task⟩

lemma applyAbortQosScore_ok (h : Ok (applyAbortQosScore env task node) w node' w') :
    NodeSide w w' ∧ node'.address = node.address := by
  unfold applyAbortQosScore at h
  split at h
  · exact ⟨ok h, applyTaskQosScore_address h⟩
  · obtain ⟨rfl, rfl⟩ := ok_pure.1 h
    exact ⟨refl w', rfl⟩

lemma applyAbortHealthPenalty_ok (h : Ok (applyAbortHealthPenalty env task node) w node' w') :
    NodeSide w w' ∧ node'.address = node.address := by
  unfold applyAbortHealthPenalty at h
  split at h
  · refine ⟨ok h, ?_⟩
    obtain ⟨rfl, -⟩ := ok_pure.1 h
    rfl
  · obtain ⟨rfl, rfl⟩ := ok_pure.1 h
    exact ⟨refl w', rfl⟩

lemma releaseAbortedNode_ok (h : Ok (releaseAbortedNode env task node) w u w') :
    NodeSide w w' ∧ currentOf w'.db node.address = none := by
  obtain ⟨node1, w₁, h1, h⟩ := ok_bind.1 h
  obtain ⟨node2, w2, h2, h⟩ := ok_bind.1 h
  obtain ⟨hq, haddr1⟩ := applyAbortQosScore_ok h1
  obtain ⟨hp, haddr2⟩ := applyAbortHealthPenalty_ok h2
  refine ⟨hq.trans (hp.trans (ok h)), ?_⟩
  rw [← haddr1, ← haddr2]
  exact currentOf_nodeFinishTask h

/-- **an abort** does nothing to an aborted task; else it settles the fee and frees the node. -/
theorem setTaskStatusEndAborted_ok (h : Ok (setTaskStatusEndAborted env task) w u w') :
    (task.status = .endAborted ∧ w' = w) ∨ (task.status.isTerminal = false ∧ TaskCurrent task w.db ∧
        ∃ ds, AbortDrafts env w.db task ds ∧
          Moves task.taskIDCommitment (fun t => t.abortedAs task) ds w w' ∧
          (task.selectedNode ≠ [] →
            currentOf w'.db task.selectedNode ≠ some task.taskIDCommitment)) := by
  unfold setTaskStatusEndAborted at h
  split at h
  · next hst => exact .inl ⟨hst, (ok_pure.1 h).2⟩
  rw [ok_require_bind, ok_transaction, ok_bind] at h
  obtain ⟨hterm, o, w₁, hnode, h⟩ := h
  obtain ⟨rfl, hcase⟩ := abortedTaskNode_ok hnode
  obtain ⟨f, w2, hsettle, h⟩ := ok_bind.1 h
  have hhold : ∀ node, o = some node → HoldsTask w₁.db task node := by
    intro node hnode
    rcases hcase with ⟨node', ho, hh, -⟩ | ⟨ho, -⟩
    · rw [ho] at hnode
      cases hnode
      exact hh
    · rw [ho] at hnode
      cases hnode
  obtain ⟨ds, habort, rfl, hd, hcredit⟩ := settleAbortedTask_ok hhold hsettle
  obtain ⟨_, w3, hup, h⟩ := ok_bind.1 h
  obtain ⟨hcur, rfl⟩ := ok_taskUpdateStatus.1 hup
  rw [TaskCurrent, hd.db] at hcur
  refine .inr ⟨hterm, hcur, ds, habort, ?_⟩
  rcases hcase with ⟨node, rfl, hh, -⟩ | ⟨rfl, hfree⟩
  · obtain ⟨_, w4, hrel, hrun⟩ := ok_bind.1 h
    obtain ⟨hside, hnone⟩ := releaseAbortedNode_ok hrel
    obtain rfl := ok_runCommitFunc.1 hrun
    refine ⟨moves_of_parts hd (refl w2) hside hcredit, ?_⟩
    intro _
    rw [db_applyPostings, ← hh.address, hnone]
    exact (some_ne_none _).symm
  · have hw := ok_runCommitFunc.1 h
    have hm : Moves task.taskIDCommitment (fun t => t.abortedAs task) ds w₁ w' := by
      rw [hw]
      exact moves_of_parts hd (refl w2) (refl _) hcredit
    refine ⟨hm, ?_⟩
    intro hsel hc
    rcases hfree with hfree | hfree
    · exact hsel hfree
    · exact hfree (hm.current _ _ hc)

/-! ## slashes -/

lemma Posts.quiet (h : Posts ds w w₁) (hq : Quiet w₁ w') : Posts ds w w' where
  appends := by
    obtain ⟨es, hr, hds⟩ := h.appends
    exact ⟨es, by rw [hq.events, hr], hds⟩
  accounts := hq.accounts.trans h.accounts
  cached := fun a => (hq.cachedBalance a).trans (h.cached a)
  keeps_loaded := fun a ha => by
    rw [Loaded, hq.cache]
    exact h.keeps_loaded a ha
  loads := fun d hd => by
    rw [Loaded, hq.cache]
    exact h.loads d hd

lemma Moves.side {f : InferenceTask → InferenceTask} (h : Moves c f ds w w₁) (hs : NodeSide w₁ w') :
    Moves c f ds w w' where
  posts := h.posts.quiet (quiet_of_nodeSide hs)
  tasks := fun j => by rw [hs.1.tasks, h.tasks]
  keys := by rw [hs.1.tasks, h.keys]
  withdrawRecords := hs.1.withdrawRecords.trans h.withdrawRecords
  depositRecords := hs.1.depositRecords.trans h.depositRecords
  vestingRecords := fun id => (hs.1.vestingRecords id).trans (h.vestingRecords id)
  current := fun a c' hc => h.current a c' (hs.1.current a c' hc)

/-- **a slash** frees the node, and aborts and refunds the task it finds in the caller's copy of the
node, unless that task has ended. -/
theorem slashNode_ok (h : Ok (slashNode env node) w u w') : currentOf w'.db node.address = none ∧
      ((NodeSide w w' ∧ ∀ c, node.currentTaskIDCommitment = some c →
          ∃ task, w.db.tasks.get c = some task ∧ task.status.isTerminal = true) ∨
        ∃ c task, node.currentTaskIDCommitment = some c ∧ w.db.tasks.get c = some task ∧
          task.selectedNode = node.address ∧ task.status.isTerminal = false ∧
          Moves c InferenceTask.slashed [refundDraft task] w w') := by
  rw [slashNode, ok_require_bind, ok_bind] at h
  obtain ⟨-, r, w₁, htx, h⟩ := h
  obtain ⟨_, w2, hrun, hpost⟩ := ok_bind.1 h
  obtain rfl := ok_runCommitFunc.1 hrun
  have hpost : NodeSide _ w' := ok hpost
  rw [ok_transaction, slashNodeTx] at htx
  obtain ⟨f, w3, habort, htx⟩ := ok_bind.1 htx
  obtain ⟨b, w4, hquit, htx⟩ := ok_bind.1 htx
  obtain ⟨rfl, rfl⟩ := ok_pure.1 htx
  have hside : NodeSide _ w₁ := ok hquit
  have hnone : currentOf w'.db node.address = none := by
    obtain ⟨-, -, -, counts, -, hw⟩ := ok_setNodeStatusQuitTx.1 hquit
    have hq : currentOf w₁.db node.address = none := by
      rw [hw]
      exact bind_current_modify w3.db.nodes node.address _ (by intro _; rfl) (by intro _; rfl)
    cases hc : currentOf w'.db node.address with
    | none => rfl
    | some c =>
      have := hpost.1.current _ _ hc
      rw [db_applyPostings, hq] at this
      cases this
  refine ⟨hnone, ?_⟩
  rcases abortNodeCurrentTaskForSlash_ok habort with
    ⟨rfl, rfl, hterm⟩ | ⟨c, task, hc, htask, hsel, hterm, hr, rfl, rfl⟩
  · refine .inl ⟨hside.trans hpost, ?_⟩
    intro c hc
    obtain ⟨task, htask, -, ht⟩ := hterm c hc
    exact ⟨task, htask, ht⟩
  · refine .inr ⟨c, task, hc, htask, hsel, hterm, ?_⟩
    have hm : Moves c InferenceTask.slashed [refundDraft task] w
        (applyPostings ([refundDraft task].map (·.increment)) w₁) :=
      moves_of_parts (drafted_credit hr) (refl _) hside (refundDraft_credit task)
    exact hm.side hpost

def InferenceTask.invalidatedAs (now : Time) : InferenceTask :=
  { t with
    status := .endInvalidated
    taskID := taskID
    validatedTime := some now
    qosScore := some 0
    deadlineAt := none }

/-- **an invalidation** posts nothing: the slash of the node finds the task ended. -/
theorem setTaskStatusEndInvalidated_ok {b : Bool}
    (h : Ok (setTaskStatusEndInvalidatedWithEvidence env task b) w u w') :
    currentOf w.db task.selectedNode = some task.taskIDCommitment ∧ TaskCurrent task w.db ∧
      Moves task.taskIDCommitment (fun t => t.invalidatedAs task.taskID env.now) [] w w' ∧
      currentOf w'.db task.selectedNode = none := by
  rw [setTaskStatusEndInvalidatedWithEvidence, ok_require_bind, ok_bind] at h
  obtain ⟨-, node, w₁, hnode, h⟩ := h
  obtain ⟨hhold, rfl⟩ := ok_checkTaskSelectedNode.1 hnode
  rw [ok_transaction] at h
  obtain ⟨_, w2, hup, h⟩ := ok_bind.1 h
  obtain ⟨hcur, hw2⟩ := ok_taskUpdateStatus.1 hup
  have hm : ∀ {w' : World}, NodeSide w2 w' →
      Moves task.taskIDCommitment (fun t => t.invalidatedAs task.taskID env.now) [] w₁ w' := by
    intro w' hs
    rw [hw2] at hs
    exact moves_of_parts (Drafted.nil w₁) (refl w₁) hs (by simp)
  refine ⟨hhold.currentOf, hcur, ?_⟩
  rw [← hhold.address]
  split at h
  · obtain ⟨_, w3, hpend, hfin⟩ := ok_bind.1 h
    have hside : NodeSide w2 w3 := by
      rw [createPendingSlash, ok_modifyDb] at hpend
      rw [hpend]
      exact ⟨nodeOnly_of_eq rfl rfl rfl rfl rfl rfl rfl, rfl⟩
    exact ⟨hm (hside.trans (ok hfin)), currentOf_nodeFinishTask hfin⟩
  · obtain ⟨hnone, hslash⟩ := slashNode_ok h
    rcases hslash with ⟨hside, -⟩ | ⟨c, t, hc, ht, -, hterm, -⟩
    · exact ⟨hm hside, hnone⟩
    · -- the row has just been written with a terminal status
      rw [hhold.2, some.injEq] at hc
      rw [hw2, ← hc, get_modify_self] at ht
      obtain ⟨row, -, rfl⟩ := map_eq_some_iff.1 ht
      cases hterm

/-! ## results -/

def InferenceTask.succeededAs (st : TaskStatus) (now : Time) : InferenceTask :=
  { t with
    status := st
    resultUploadedTime := some now
    deadlineAt := none }

def taskGroup (db : Db) (taskID : Text) : List InferenceTask :=
  db.tasks.rows.filter fun t => t.taskID = taskID

def settleWith (env : Env) (task : InferenceTask) (members : Db → List InferenceTask) :
    Relay Unit := do
  let node ← checkTaskSelectedNode task
  let db ← Tx.getDb
  Tx.require (1 < (members db).length → (members db).filter isPaidInGroup ≠ [] →
    totalScore ((members db).filter isPaidInGroup) ≠ 0) .taskGroupIllegal
  let r := settlementPayments db task node (members db)
  transaction do
    let commitFuncs ← sendTaskIncomes env r.1
    task.updateStatus (fun t => { t with
      status := r.2
      resultUploadedTime := some env.now
      deadlineAt := none }) fun _ => rfl
    let node ← applyHealthBoost env node
    nodeFinishTask env node
    runCommitFunc commitFuncs

lemma setTaskStatusEndSuccess_eq (env : Env) (task : InferenceTask) :
    setTaskStatusEndSuccess env task = settleWith env task fun db => taskGroup db task.taskID :=
  rfl

/-- **a settlement** posts the incomes and frees the node. -/
theorem settleWith_ok {members : Db → List InferenceTask}
    (h : Ok (settleWith env task members) w u w') :
    ∃ node, HoldsTask w.db task node ∧ TaskCurrent task w.db ∧
      Moves task.taskIDCommitment (fun t => t.succeededAs
          (settlementPayments w.db task node (members w.db)).2 env.now)
        (incomeDrafts env (settlementPayments w.db task node (members w.db)).1) w w' ∧
      currentOf w'.db task.selectedNode = none := by
  rw [settleWith, ok_bind] at h
  obtain ⟨node, w₁, hnode, h⟩ := h
  obtain ⟨hhold, rfl⟩ := ok_checkTaskSelectedNode.1 hnode
  obtain ⟨-, h⟩ := ok_require_bind.1 h
  obtain ⟨f, w3, hsend, h⟩ := ok_bind.1 (ok_transaction.1 h)
  obtain ⟨rfl, hd⟩ := sendTaskIncomes_ok hsend
  obtain ⟨_, w4, hup, h⟩ := ok_bind.1 h
  obtain ⟨hcur, rfl⟩ := ok_taskUpdateStatus.1 hup
  obtain ⟨node1, w5, hboost, h⟩ := ok_bind.1 h
  obtain ⟨_, w6, hfin, h⟩ := ok_bind.1 h
  obtain rfl := ok_runCommitFunc.1 h
  have hside : NodeSide _ w6 := trans (ok hboost) (ok hfin)
  refine ⟨node, hhold, ?_, ?_, ?_⟩
  · rwa [TaskCurrent, hd.db] at hcur
  · refine moves_of_parts hd (refl w3) hside fun d hmem => ?_
    obtain ⟨p, -, hp⟩ := mem_flatMap.1 hmem
    exact taskIncomeEvents_credit hp
  · rw [db_applyPostings, ← hhold.address, ← applyHealthBoost_address hboost]
    exact currentOf_nodeFinishTask hfin

/-- **a success** is the settlement with the tasks of its task id. -/
theorem setTaskStatusEndSuccess_ok (h : Ok (setTaskStatusEndSuccess env task) w u w') :
    ∃ node, HoldsTask w.db task node ∧ TaskCurrent task w.db ∧
      Moves task.taskIDCommitment (fun t => t.succeededAs
          (settlementPayments w.db task node (taskGroup w.db task.taskID)).2 env.now)
        (incomeDrafts env (settlementPayments w.db task node (taskGroup w.db task.taskID)).1) w w' ∧
      currentOf w'.db task.selectedNode = none := by
  rw [setTaskStatusEndSuccess_eq] at h
  exact settleWith_ok h

/-! ## starting -/

def InferenceTask.startedOn (address : Text) (now : Time) (timeout : Nat) (hashes : List Hash32) :
    InferenceTask :=
  { t with
    selectedNode := address
    startTime := some now
    timeout := timeout
    status := .started
    deadlineAt := some (now + seconds timeout)
    executionModelFileHashes := hashes }

def Node.starting (n : Node) (c : Text) (excluded : Bool) : Node :=
  { n with
    status := .busy
    currentTaskIDCommitment := some c
    healthExcluded := if excluded then false else n.healthExcluded }

def startDb (task : InferenceTask) (node : Node) (now : Time) (timeout : Nat)
    (hashes : List Hash32) (db : Db) : Db :=
  { db with
    tasks := db.tasks.modify task.taskIDCommitment
      (fun t => t.startedOn node.address now timeout hashes) fun _ => rfl
    nodes := db.nodes.modify node.address
      (fun n => n.starting task.taskIDCommitment node.healthExcluded) fun _ => rfl }

lemma ok_startTimeout {n : Nat} (h : Ok (startTimeout env task node) w n w') : w' = w := by
  unfold startTimeout at h
  split at h
  · split at h
    · exact (ok_pure.1 h).2
    · exact absurd h ok_fail
  · exact (ok_pure.1 h).2

/-- **a start** takes an available node without a task, of a fitting version, that holds the model
files of the task. -/
theorem setTaskStatusStarted_ok {address : Text}
    (h : Ok (setTaskStatusStarted env task address) w u w') :
    task.status = .queued ∧ TaskCurrent task w.db ∧ ∃ node hashes timeout,
      w.db.nodes.get address = some node ∧ isHealthExcluded env node = false ∧
        isNodeVersionValidForTask node task = true ∧
        resolveExecutionModelFileHashes task (w.db.nodeModels node.address)
          (currentModelFileHashes w.db node.address) = some hashes ∧
        node.status = .available ∧ node.currentTaskIDCommitment = none ∧
        w' = ⟨startDb task node env.now timeout hashes w.db, w.mem⟩ := by
  rw [setTaskStatusStarted, ok_require_bind, ok_bind] at h
  obtain ⟨hst, node, w₁, hnode, h⟩ := h
  obtain ⟨hnode, rfl⟩ := ok_getNodeByAddress.1 hnode
  rw [ok_require_bind, ok_require_bind, ok_getDb_bind, ok_orFail_bind] at h
  obtain ⟨hhealth, hversion, hashes, hfiles, h⟩ := h
  rw [ok_bind] at h
  obtain ⟨timeout, w2, htime, h⟩ := h
  obtain rfl := ok_startTimeout htime
  rw [ok_transaction] at h
  obtain ⟨_, w3, hup, h⟩ := ok_bind.1 h
  obtain ⟨hcur, rfl⟩ := ok_taskUpdateStatus.1 hup
  rw [nodeStartTask, ok_require_bind, ok_require_bind, ok_transaction, ok_updateStatus] at h
  obtain ⟨⟨hav, hfree⟩, -, -, hw⟩ := h
  exact ⟨hst, hcur, node, hashes, timeout, hnode, hhealth, hversion, hfiles, hav, hfree, hw⟩

lemma rewrites_startDb {now : Time} (hw : w' = ⟨startDb task node now timeout hashes w.db, w.mem⟩) :
    Rewrites task.taskIDCommitment (fun t => t.startedOn node.address now timeout hashes) [] w w' := by
  subst hw
  exact {
    posts := Quiet.posts ⟨rfl, rfl, rfl⟩
    tasks := fun j => get_modify w.db.tasks task.taskIDCommitment j
      (fun t => t.startedOn node.address now timeout hashes) fun _ => rfl
    keys := rfl
    withdrawRecords := rfl
    depositRecords := rfl
    vestingRecords := fun _ => rfl }

lemma currentOf_startDb {now : Time} {row : Node}
    (h : db.nodes.get node.address = some row) (a : Text) :
    currentOf (startDb task node now timeout hashes db) a =
      if a = node.address then some task.taskIDCommitment else currentOf db a := by
  have := currentOf_modify db node.address
    (fun n => n.starting task.taskIDCommitment node.healthExcluded) (fun _ => rfl) a
  rwa [h] at this

end CrynuxRelay
