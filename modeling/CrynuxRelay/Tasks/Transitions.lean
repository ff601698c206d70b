import CrynuxRelay.Tasks.Rows

/-!
# The transitions of tasks

What an operation can do to the rows of tasks, once for all invariants of these rows.

* `GoesOn`, `Ends` -- the rows that the running and the terminal transitions write;
* `Transition` -- one transition, made with the copy of a handler; one lemma for each function, and
  `transition_call`, `transition_slash` -- the attempts of handlers and the slashes;
* `validateTaskGroup_induct` -- a group validation is a list of transitions;
* `OpStep`, `opStep_exec` -- every operation of the relay.
-/

namespace CrynuxRelay

open List Tx

variable {env : Env} {task : InferenceTask} {w w' : World} {u : Unit}

/-! ## one transition -/

/-- what no transition changes once a task has left the queue. -/
structure SameWork (t t' : InferenceTask) : Prop where
  id : t'.id = t.id
  selectedNode : t'.selectedNode = t.selectedNode
  taskType : t'.taskType = t.taskType
  startTime : t'.startTime = t.startTime
  timeout : t'.timeout = t.timeout

/-- a running transition of the copy `task` to `st` writes its time and its deadline. -/
structure GoesOn (env : Env) (task : InferenceTask) (st : TaskStatus)
    (f : InferenceTask → InferenceTask) : Prop where
  same : ∀ t, SameWork t (f t)
  status : ∀ t, (f t).status = st
  deadline : ∃ d, TransitionDeadline env task st d ∧ ∀ t, (f t).deadlineAt = some d
  time : ∀ t, (st = .scoreReady ∨ st = .errorReported) ∧ (f t).scoreReadyTime = some env.now ∨
    (st = .validated ∨ st = .groupValidated) ∧ (f t).validatedTime = some env.now

structure Ends (f : InferenceTask → InferenceTask) : Prop where
  same : ∀ t, SameWork t (f t)
  status : ∀ t, (f t).status.isTerminal = true
  deadline : ∀ t, (f t).deadlineAt = none

inductive Transition (env : Env) (task : InferenceTask) (w w' : World) : Prop
  | nothing (h : w' = w)
  | started (address : Text) (h : Ok (setTaskStatusStarted env task address) w () w')
  | ran (st : TaskStatus) (f : InferenceTask → InferenceTask)
    (hfrom : task.status = .started ∨ task.status = .scoreReady) (hcur : TaskCurrent task w.db)
    (hframe : MoveFrame (fun _ => False) False w w') (hm : Moves task.taskIDCommitment f [] w w')
    (hf : GoesOn env task st f)
  | ended (f : InferenceTask → InferenceTask) (ds : List EventDraft)
    (hopen : task.status.isTerminal = false ∨
      currentOf w.db task.selectedNode = some task.taskIDCommitment) (hcur : TaskCurrent task w.db)
    (hframe : MoveFrame (task.selectedNode = ·) False w w')
    (hm : Moves task.taskIDCommitment f ds w w') (hf : Ends f)
    (hds : ∀ d ∈ ds, ∀ j, d.reason = refundReason j → j = task.taskIDCommitment)
    (hfree : task.selectedNode ≠ [] → currentOf w'.db task.selectedNode ≠ some task.taskIDCommitment)
  | rescored (row : InferenceTask) (hrow : w.db.tasks.get task.taskIDCommitment = some row)
    (h : Ok (persistValidationGroupAbortedTaskQos env task) w () w')

/-! ## terminal transitions -/

lemma refundDraft_own (task : InferenceTask) : ∀ d ∈ [refundDraft task], ∀ j,
    d.reason = refundReason j → j = task.taskIDCommitment := by
  intro d hd j hj
  rw [mem_singleton.1 hd] at hj
  exact (reason2_inj.1 hj).2.symm

lemma taskIncomeEvents_ne_refund {c address network : Text} {amount : Int} {d : EventDraft}
    (h : d ∈ taskIncomeEvents env c address amount network) (j : Text) :
    d.reason ≠ refundReason j := by
  rcases mem_append.1 h with h | h
  · obtain ⟨p, -, rfl⟩ := mem_map.1 h
    exact ne_refundReason .userDelegation (by decide) _ j
  · simp only [mem_cons, not_mem_nil, or_false] at h
    rcases h with rfl | rfl
    · exact ne_refundReason .taskIncome (by decide) _ j
    · exact ne_refundReason .daoTaskShare (by decide) _ j

lemma AbortDrafts.refund {db : Db} {ds : List EventDraft} (h : AbortDrafts env db task ds) :
    ∀ d ∈ ds, ∀ j, d.reason = refundReason j → j = task.taskIDCommitment := by
  rcases h with ⟨-, node, -, rfl⟩ | ⟨-, rfl⟩
  · exact fun d hd j hj => absurd hj (taskIncomeEvents_ne_refund hd j)
  · exact refundDraft_own task

lemma ne_current_of_none {a c : Text} (h : currentOf w'.db a = none) :
    a ≠ [] → currentOf w'.db a ≠ some c := by
  rw [h]
  exact fun _ => nofun

/-- the copy that is aborted differs from the one of the handler in what it writes only. -/
lemma transition_aborted {task' : InferenceTask} (hok : Ok (setTaskStatusEndAborted env task') w u w')
    (hc : task'.taskIDCommitment = task.taskIDCommitment) (hst : task'.status = task.status)
    (hsel : task'.selectedNode = task.selectedNode) : Transition env task w w' := by
  have hframe : MoveFrame (task'.selectedNode = ·) False w w' :=
    (moves_setTaskStatusEndAborted env task' fun _ => rfl).ok hok
  rcases setTaskStatusEndAborted_ok hok with ⟨-, rfl⟩ | ⟨hterm, ⟨row, hrow, hrst⟩, ds, hds, hm, hfree⟩
  · exact .nothing rfl
  · have hown := hds.refund
    rw [hc] at hrow hm hown
    rw [hc, hsel] at hfree
    rw [hsel] at hframe
    exact .ended _ ds (.inl (hst ▸ hterm)) ⟨row, hrow, hrst.trans hst⟩ hframe hm
      ⟨fun _ => ⟨rfl, rfl, rfl, rfl, rfl⟩, fun _ => rfl, fun _ => rfl⟩ hown hfree

/-- **a slash** ends the task that the given node has, if it still runs. -/
theorem transition_slash {node : Node} (hok : Ok (slashNode env node) w u w') :
    (NodeSide w w' ∧ ∀ c, node.currentTaskIDCommitment = some c →
        ∃ t, w.db.tasks.get c = some t ∧ t.status.isTerminal = true) ∨
      ∃ t, w.db.tasks.get t.taskIDCommitment = some t ∧ ∀ env', Transition env' t w w' := by
  have hframe : MoveFrame (node.address = ·) False w w' := (moves_slashNode env node rfl).ok hok
  obtain ⟨hnone, hs | ⟨c, t, hc, ht, hsel, hterm, hm⟩⟩ := slashNode_ok hok
  · exact .inl hs
  · obtain rfl : t.taskIDCommitment = c := Table.key_of_get ht
    rw [← hsel] at hframe hnone
    exact .inr ⟨t, ht, fun _ => .ended _ _ (.inl hterm) ⟨t, ht, rfl⟩ hframe hm
      ⟨fun _ => ⟨rfl, rfl, rfl, rfl, rfl⟩, fun _ => rfl, fun _ => rfl⟩ (refundDraft_own t) (ne_current_of_none hnone)⟩

lemma Transition.others (h : Transition env task w w') {j : Text} (hj : j ≠ task.taskIDCommitment) :
    w'.db.tasks.get j = w.db.tasks.get j := by
  cases h with
  | nothing he => rw [he]
  | started address hok =>
    obtain ⟨-, -, node, hashes, timeout, -, -, -, -, -, -, rfl⟩ := setTaskStatusStarted_ok hok
    exact (rewrites_startDb rfl).other hj
  | ran st f hfrom hcur hframe hm hf => exact (hm.tasks j).trans (if_neg hj)
  | ended f ds hopen hcur hframe hm hf hds hfree => exact (hm.tasks j).trans (if_neg hj)
  | rescored row hrow hok => exact ((persistAborted_ok hok).tasks j).trans (if_neg hj)

/-! ## groups and attempts -/

lemma transition_applyGroupStatus {next : Text → TaskStatus} {evidence : List (Text × Bool)}
    {finished : Nat} {row : InferenceTask} (hrow : w.db.tasks.get task.taskIDCommitment = some row)
    (hok : Ok (applyGroupStatus env next evidence finished task) w u w') :
    Transition env task w w' := by
  unfold applyGroupStatus at hok
  split at hok
  · obtain ⟨complete, -, hok⟩ := ok_orFail_bind.1 hok
    obtain ⟨hheld, hcur, hm, hnone⟩ := setTaskStatusEndInvalidated_ok hok
    exact .ended _ _ (.inr hheld) hcur ((moves_setTaskStatusEndInvalidated env task complete rfl).ok hok)
      hm ⟨fun _ => ⟨rfl, rfl, rfl, rfl, rfl⟩, fun _ => rfl, fun _ => rfl⟩ nofun (ne_current_of_none hnone)
  · obtain ⟨hst, hcur, d, hd, hm⟩ := setTaskStatusGroupValidated_ok hok
    exact .ran .groupValidated _ (.inr hst) hcur ((moves_setTaskStatusGroupValidated env task).ok hok)
      hm ⟨fun _ => ⟨rfl, rfl, rfl, rfl, rfl⟩, fun _ => rfl, ⟨d, hd, fun _ => rfl⟩, fun _ => .inr ⟨.inr rfl, rfl⟩⟩
  · obtain ⟨hst, hcur, hm, hnone⟩ := setTaskStatusEndGroupRefund_ok hok
    exact .ended _ _ (.inl (by rw [hst]; rfl)) hcur ((moves_setTaskStatusEndGroupRefund env task rfl).ok hok)
      hm ⟨fun _ => ⟨rfl, rfl, rfl, rfl, rfl⟩, fun _ => rfl, fun _ => rfl⟩ (refundDraft_own task)
      (ne_current_of_none hnone)
  · split at hok
    · exact transition_aborted hok rfl rfl rfl
    · exact .rescored row hrow hok

/-- **induction over a group validation**: what holds before, and the transitions of members keep, holds
after; the copies of the members that are still to come stay in order. -/
theorem validateTaskGroup_induct {p : Db → Prop} {c : Db → InferenceTask → Prop}
    {tasks : List InferenceTask} {taskID vrfProof publicKey : Text} (hp : p w.db)
    (hcopy : ∀ r taskID score, w.db.tasks.get r.taskIDCommitment = some r →
      c w.db { r with taskID := taskID, qosScore := score })
    (hstep : ∀ {w w' : World} {m}, p w.db → c w.db m → Transition env m w w' →
      MoveFrame (fun _ => True) False w w' → p w'.db ∧ ∀ m', c w.db m' → c w'.db m')
    (hok : Ok (validateTaskGroup env tasks taskID vrfProof publicKey) w u w') : p w'.db := by
  obtain ⟨refreshed, next, evidence, hv⟩ := validateTaskGroup_inv hok
  have hc : ∀ m ∈ settledMembers taskID refreshed,
      c w.db m ∧ ∃ row, w.db.tasks.get m.taskIDCommitment = some row := by
    intro m hm
    obtain ⟨r, hr, e⟩ := hv.row hm
    rw [e]
    exact ⟨hcopy r taskID m.qosScore (mem_lockedRows.1 hr).1, r, (mem_lockedRows.1 hr).1⟩
  have hloop := hv.loop
  clear hv hok hcopy
  generalize (executedMembers (settledMembers taskID refreshed)).length = finished at hloop
  generalize settledMembers taskID refreshed = ms at hc hloop
  induction ms generalizing w with
  | nil =>
    rw [ok_each_nil.1 hloop]
    exact hp
  | cons m l ih =>
    obtain ⟨w2, hm, hl⟩ := ok_each_cons.1 hloop
    have hframe : MoveFrame (fun _ => True) False w w2 := (moves_applyGroupStatus _ _ _ _ m).ok hm
    obtain ⟨hcm, row, hrow⟩ := hc m mem_cons_self
    obtain ⟨hp2, hkeep⟩ := hstep hp hcm (transition_applyGroupStatus hrow hm) hframe
    refine ih hp2 (fun m' hm' => ?_) hl
    obtain ⟨hcm', row', hrow'⟩ := hc m' (mem_cons_of_mem m hm')
    obtain ⟨row'', hrow'', -⟩ := hframe.kept _ row' hrow'
    exact ⟨hkeep m' hcm', row'', hrow''⟩

theorem transition_call {call : TaskCall} {flight : Flight} (h : CallStep env flight w w' call) :
    Transition env flight.task w w' := by
  cases h with
  | started address hok => exact .started address hok
  | scored score hok =>
    obtain ⟨hst, hcur, d, hd, hm⟩ := checkedUpdate_ok hok
    exact .ran .scoreReady _ (.inl hst) hcur ((moves_setTaskStatusScoreReady env _).ok hok) hm
      ⟨fun _ => ⟨rfl, rfl, rfl, rfl, rfl⟩, fun _ => rfl, ⟨d, hd, fun _ => rfl⟩, fun _ => .inl ⟨.inl rfl, rfl⟩⟩
  | errored error hok =>
    obtain ⟨hst, hcur, d, hd, hm⟩ := checkedUpdate_ok hok
    exact .ran .errorReported _ (.inl hst) hcur ((moves_setTaskStatusErrorReported env _).ok hok) hm
      ⟨fun _ => ⟨rfl, rfl, rfl, rfl, rfl⟩, fun _ => rfl, ⟨d, hd, fun _ => rfl⟩, fun _ => .inl ⟨.inr rfl, rfl⟩⟩
  | validated taskID vrfProof publicKey hid hok =>
    obtain ⟨hst, hcur, d, hd, hm⟩ := checkedUpdate_ok hok
    exact .ran .validated _ (.inr hst) hcur ((moves_setTaskStatusValidated env _).ok hok) hm
      ⟨fun _ => ⟨rfl, rfl, rfl, rfl, rfl⟩, fun _ => rfl, ⟨d, hd, fun _ => rfl⟩, fun _ => .inr ⟨.inl rfl, rfl⟩⟩
  | rejected taskID vrfProof publicKey hid hok => exact transition_aborted hok rfl rfl rfl
  | aborted call reason hok => exact transition_aborted hok rfl rfl rfl
  | uploaded hread hok =>
    obtain ⟨node, hhold, hcur, hm, hnone⟩ := setTaskStatusEndSuccess_ok hok
    refine .ended _ _ (.inr hhold.currentOf) hcur ((moves_setTaskStatusEndSuccess env _ rfl).ok hok)
      hm ⟨fun _ => ⟨rfl, rfl, rfl, rfl, rfl⟩, fun _ => settlementPayments_terminal _ _ _ _, fun _ => rfl⟩
      (fun d hd j hj => ?_) (ne_current_of_none hnone)
    obtain ⟨p, -, hdp⟩ := mem_flatMap.1 hd
    exact absurd hj (taskIncomeEvents_ne_refund hdp j)
  | nothing call he => exact .nothing he

/-! ## operations -/

inductive OpStep (s : RelayState) (w' : World) : RelayOp → Prop
  | aside (op : RelayOp) (h : FundsOnly s.world w') : OpStep s w' op
  | created (env : Env) (t : NewTask) (h : Ok (createTask env t.task) s.world () w') :
    OpStep s w' (.create env t)
  | called (env : Env) (i : Nat) (call : TaskCall) (flight : Flight) (hf : flight ∈ s.flights)
    (h : Transition env flight.task s.world w') : OpStep s w' (.attempt env i call)
  | group (env : Env) (i j k : Nat) (taskID vrfProof publicKey : Text) (tasks : List InferenceTask)
    (h : Ok (validateTaskGroup env tasks taskID vrfProof publicKey) s.world () w') :
    OpStep s w' (.validateGroup env i j k taskID vrfProof publicKey)
  | slashed (env : Env) (node : Node) (h : Ok (slashNode env node) s.world () w') :
    OpStep s w' (.slash env node)
  | request (req : NodeOp) (h : w' = req.exec s.world) : OpStep s w' (.request req)

lemma opStep_exec (op : RelayOp) (s : RelayState) : OpStep s (op.exec s).world op := by
  cases hfunds : op.onFunds with
  | true => exact .aside op (fundsOnly_relayOp hfunds s.flights s.world)
  | false =>
    have hwork : op.onTasks = true → OpStep s (op.exec s).world op := by
      intro hop
      generalize (op.exec s).world = w', taskWork_exec hop s = hw
      cases hw with
      | undone op hw => exact .aside op (fundsOnly_of_db hw.db)
      | created env t hok => exact .created env t hok
      | called env i call flight hf hcall =>
        exact .called env i call flight (mem_of_getElem? hf) (transition_call hcall)
      | group env i j k taskID vrfProof publicKey f1 f2 f3 h1 h2 h3 hok =>
        exact .group env i j k taskID vrfProof publicKey _ hok
      | groupFailed env i j k taskID vrfProof publicKey e hf hdb => exact .aside _ (fundsOnly_of_db hdb)
      | slashed env node hok => exact .slashed env node hok
    cases op with
    | request req => exact .request req rfl
    | _ => first | exact hwork rfl | cases hfunds

end CrynuxRelay
