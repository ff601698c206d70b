import CrynuxRelay.Tasks.Contract
import CrynuxRelay.Tasks.Occupancy

/-!
# The coupling of nodes and tasks

* `Occupancy.transition`, `occupancy_slash` -- transitions and slashes;
* `RelayOp.Atomic` -- operations that work on the row of the node, and nodes with an address;
* `CoupledState`, `step_coupledState` -- the invariant with the copies of the handlers in flight;
* `NodeTaskCoupling` -- the coupling as it is stated for the outside; `run_coupling` -- **it holds in every
  reachable state.**
-/

namespace CrynuxRelay

variable {op : NodeOp} {db : Db} {s : RelayState}

section
variable {env : Env} {task : InferenceTask} {w w' : World} {u : Unit}

/-! ## starts -/

/-- **a start** takes an idle node and a task that waits. -/
theorem occupancy_started {address : Text} (h : Occupancy w.db)
    (hok : Tx.Ok (setTaskStatusStarted env task address) w u w') : Occupancy w'.db := by
  have hfr : MoveFrame (fun _ => True) True w w' := (moves_setTaskStatusStarted env task address).ok hok
  have hr := hfr.rowFrame
  obtain ⟨hst, ⟨row, hrow, hrst⟩, node, hashes, timeout, hnode, -, -, -, -, hnone, hw⟩ :=
    setTaskStatusStarted_ok hok
  have hna : node.address = address := Table.key_of_get hnode
  have hidle : currentOf w.db node.address = none := by
    rw [currentOf, hna, hnode]
    exact hnone
  have hm := rewrites_startDb hw
  have hcurrent : ∀ a, currentOf w'.db a =
      if a = node.address then some task.taskIDCommitment else currentOf w.db a := by
    intro a
    rw [hw]
    exact currentOf_startDb (hna.symm ▸ hnode) a
  have hself := hm.row hrow
  have hother : ∀ j, j ≠ task.taskIDCommitment → w'.db.tasks.get j = w.db.tasks.get j :=
    fun _ => hm.other
  refine ⟨h.rowFits hr, fun a c hc => ?_, fun c t ht hocc => ?_, fun c t ht hq => ?_,
    fun c t ht => ?_, h.unnamed hr⟩
  · rw [hcurrent] at hc
    split at hc
    · next ha =>
      cases hc
      exact ⟨_, hself, ha.symm, rfl⟩
    · obtain ⟨t, ht, hsel, hocc⟩ := h.held a c hc
      refine ⟨t, ?_, hsel, hocc⟩
      rw [hother]
      · exact ht
      · rintro rfl
        rw [hrow] at ht
        cases ht
        rw [hrst, hst] at hocc
        cases hocc
  · rw [hcurrent]
    by_cases hc : c = task.taskIDCommitment
    · subst hc
      rw [hself] at ht
      cases ht
      exact if_pos rfl
    · rw [hother c hc] at ht
      have hheld := h.holds c t ht hocc
      rw [if_neg]
      · exact hheld
      · intro ha
        rw [ha, hidle] at hheld
        cases hheld
  · by_cases hc : c = task.taskIDCommitment
    · subst hc
      rw [hself] at ht
      cases ht
      cases hq
    · rw [hother c hc] at ht
      exact h.waiting c t ht hq
  · by_cases hc : c = task.taskIDCommitment
    · subst hc
      rw [hself] at ht
      cases ht
      intro he
      cases he
    · rw [hother c hc] at ht
      exact h.parameters c t ht

/-- **a transition**, whatever the handler has read before. -/
theorem Occupancy.transition (h : Occupancy w.db) (hc : CopyFits w.db task)
    (ht : Transition env task w w') : Occupancy w'.db := by
  cases ht with
  | nothing he => exact he ▸ h
  | started address hok => exact occupancy_started h hok
  | ran st f hfrom hcur hfr hm hf => exact h.ran hfrom hcur hfr hm hf
  | ended f ds hopen hcur hfr hm hf hds hfree => exact h.ended hc hopen hcur hfr hm hf hfree
  | rescored row hrow hok => exact h.rescored hrow hok

theorem occupancy_slash {node : Node} (h : Occupancy w.db)
    (hnode : w.db.nodes.get node.address = some node)
    (hok : Tx.Ok (slashNode env node) w u w') : Occupancy w'.db := by
  rcases transition_slash hok with ⟨hs, hterm⟩ | ⟨t, ht, htr⟩
  · -- the node has no task: one that it has would not have ended
    have hfr : MoveFrame (node.address = ·) False w w' := (moves_slashNode env node rfl).ok hok
    have hr := hfr.rowFrame
    refine h.side (h.rowFits hr) (fun c => by rw [hs.1.tasks]) hs.1.current (h.unnamed hr)
      hfr.workersKept ?_
    rintro a rfl
    have hcur : currentOf w.db node.address = node.currentTaskIDCommitment := by
      rw [currentOf, hnode]
      rfl
    rw [hcur]
    cases hc : node.currentTaskIDCommitment with
    | none => rfl
    | some c =>
      obtain ⟨t, ht, hend⟩ := hterm c hc
      obtain ⟨t', ht', -, hocc⟩ := h.held _ c (hcur.trans hc)
      rw [ht] at ht'
      cases ht'
      rw [TaskStatus.not_terminal_of_occupying hocc] at hend
      cases hend
  · exact h.transition (h.copyFits ht) (htr env)

lemma occupancy_create {t : NewTask} (h : Occupancy w.db)
    (hok : Tx.Ok (createTask env t.task) w u w') : Occupancy w'.db := by
  obtain ⟨-, hnew, -, rfl⟩ := createTask_ok hok
  have hcases : ∀ c v, (afterCreate env t.task w).db.tasks.get c = some v →
      (v.status = .queued ∧ v.selectedNode = []) ∨ w.db.tasks.get c = some v := by
    intro c v hv
    refine (afterCreate_cases hnew hv).imp_left ?_
    rintro ⟨-, rfl⟩
    exact ⟨t.queued, t.unselected⟩
  refine ⟨h.nodes, fun a c hc => ?_, fun c v hv hocc => ?_, fun c v hv hq => ?_,
    fun c v hv => ?_, h.named⟩
  · obtain ⟨v, hv, hrest⟩ := h.held a c hc
    exact ⟨v, afterCreate_of_get hnew hv, hrest⟩
  · rcases hcases c v hv with ⟨hq, -⟩ | hv
    · rw [hq] at hocc
      cases hocc
    · exact h.holds c v hv hocc
  · rcases hcases c v hv with ⟨-, hsel⟩ | hv
    · exact hsel
    · exact h.waiting c v hv hq
  · rcases hcases c v hv with ⟨hq, -⟩ | hv
    · rw [hq]
      exact nofun
    · exact h.parameters c v hv

end

/-! ## the system -/

/-- the operations that read the row of the node they slash, and the joins of nodes with an address (the
handler compares it with the one of the signature). -/
def RelayOp.Atomic (s : RelayState) : RelayOp → Prop
  | .slash _ node => s.world.db.nodes.get node.address = some node
  | .request (.join _ input) => input.address ≠ []
  | .request op => op.isRequest = true
  | _ => True

/-- a report leaves a row in order: a join takes over the row of a node that has quit. -/
lemma rowFits_report {old : Option Node} {a : Text} {n' : Node}
    (hold : ∀ n, old = some n → n.RowFits) (h : op.Reports old a n') : n'.RowFits := by
  cases op with
  | join env input =>
    obtain ⟨-, -, -, hst, hcur, hquit⟩ := h
    refine rowFits_idle .available hst (by decide) ?_
    rw [hcur]
    cases old with
    | none => rfl
    | some n => exact (hold n rfl).idle (hquit n rfl) (by decide)
  | syncCapabilities env address c =>
    obtain ⟨-, -, -, n, rfl, -, hst, hcur⟩ := h
    rw [Node.RowFits, hst, hcur]
    exact hold n rfl
  | _ => exact h.elim

lemma occupancy_request {w : World} (h : Occupancy w.db) (hreq : op.isRequest = true)
    (haddr : ∀ env input, op = .join env input → input.address ≠ []) : Occupancy (op.exec w).db := by
  have hside := nodeSide_nodeOp hreq w
  have hkept : WorkersKept (fun _ => False) w (op.exec w) := workersKept_request hreq w
  have htasks : (op.exec w).db.tasks = w.db.tasks := hside.1.tasks
  have hrows : (∀ a n, (op.exec w).db.nodes.get a = some n → n.RowFits) ∧
      (op.exec w).db.nodes.get [] = none := by
    cases hrep : op.isReport with
    | false =>
      have hr : MoveFrame (fun _ => False) False w (op.exec w) := moves_nodeOp hrep (.inl hreq) w
      exact ⟨h.rowFits hr.rowFrame, h.unnamed hr.rowFrame⟩
    | true =>
      obtain ⟨-, hreport⟩ := report_rows hrep w
      refine ⟨fun a n hn => ?_, ?_⟩
      · rcases hreport a n hn with hn | hrow
        · exact h.nodes a n hn
        · exact rowFits_report (h.nodes a) hrow
      · cases hn : (op.exec w).db.nodes.get [] with
        | none => rfl
        | some n =>
          have hno := hreport [] n hn
          rw [h.named] at hno
          rcases hno with hno | hno
          · cases hno
          · cases op with
            | join env input => exact absurd hno.1.symm (haddr env input rfl)
            | syncCapabilities env address c =>
              obtain ⟨-, -, -, m, hm, -⟩ := hno
              cases hm
            | _ => exact hno.elim
  exact h.side hrows.1 (fun c => by rw [htasks]) hside.1.current hrows.2 hkept
    fun _ hf => hf.elim

lemma Occupancy.congr {db' : Db} (h : Occupancy db) (hn : db'.nodes = db.nodes)
    (ht : db'.tasks = db.tasks) : Occupancy db' := by
  refine ⟨?_, ?_, ?_, ?_, ?_, ?_⟩
  · rw [hn]
    exact h.nodes
  · unfold currentOf
    rw [hn, ht]
    exact h.held
  · unfold currentOf
    rw [hn, ht]
    exact h.holds
  · rw [ht]
    exact h.waiting
  · rw [ht]
    exact h.parameters
  · rw [hn]
    exact h.named

theorem exec_occupancy {op : RelayOp} (h : Occupancy s.world.db)
    (hc : ∀ flight ∈ s.flights, CopyFits s.world.db flight.task) (hatomic : op.Atomic s) :
    Occupancy (op.exec s).world.db := by
  generalize (op.exec s).world = w', opStep_exec op s = hstep
  cases hstep with
  | aside op hf => exact h.congr hf.nodes hf.tasks
  | created env t hok => exact occupancy_create h hok
  | called env i call flight hmem ht => exact h.transition (hc flight hmem) ht
  | group env i j k taskID vrfProof publicKey tasks hok =>
    exact validateTaskGroup_induct h (fun _ _ _ hr => (h.copyFits hr).write rfl rfl rfl)
      (fun h hc ht hfr => ⟨h.transition hc ht, fun _ hc' => hc'.frame hfr.rowFrame⟩) hok
  | slashed env node hok => exact occupancy_slash h hatomic hok
  | request req he =>
    rw [he]
    cases req with
    | join env input =>
      refine occupancy_request h rfl fun env' input' e => ?_
      cases e
      exact hatomic
    | _ => exact occupancy_request h hatomic fun env' input' e => nomatch e

lemma copyFits_exec (op : RelayOp) {task : InferenceTask}
    (h : CopyFits s.world.db task) : CopyFits (op.exec s).world.db task := by
  by_cases hreport : ∀ req, op = .request req → req.isReport = false
  · have hr : RowFrame True s.world (op.exec s).world :=
      rowFrame_relayOp s.flights hreport (.inl trivial) s.world
    exact h.frame hr
  · obtain ⟨req, hreq⟩ := not_forall.1 hreport
    obtain ⟨rfl, hrep⟩ := Classical.not_imp.1 hreq
    have htasks : ((RelayOp.request req).exec s).world.db.tasks = s.world.db.tasks :=
      (report_rows (eq_true_of_ne_false hrep) s.world).1
    obtain ⟨hwaiting, row, hrow, hleft⟩ := h
    exact ⟨hwaiting, row, by rw [htasks]; exact hrow, hleft⟩

/-- the copies after an operation: new ones are rows, and one whose task has left the queue is dropped. -/
lemma copyFits_flights (h : Occupancy s.world.db)
    (hc : ∀ flight ∈ s.flights, CopyFits s.world.db flight.task) (op : RelayOp) :
    ∀ flight ∈ op.flights s.world.db s.flights, CopyFits s.world.db flight.task := by
  intro flight hm
  cases flightFrom_of_mem hm with
  | old flight hold => exact hc flight hold
  | read c t ht => exact h.copyFits ht
  | synced fl row hfl hrow hq =>
    obtain ⟨hwaiting, row', hrow', hleft⟩ := hc fl hfl
    rw [hrow] at hrow'
    cases hrow'
    refine ⟨fun hrq => ?_, row, hrow, fun hrq => ?_⟩
    · refine hwaiting ?_
      by_contra hne
      exact (hleft hne).1 hrq
    · exact hleft fun htq => hq ⟨htq, hrq⟩

structure CoupledState (s : RelayState) : Prop where
  occupancy : Occupancy s.world.db
  copies : ∀ flight ∈ s.flights, CopyFits s.world.db flight.task

lemma step_coupledState (s : RelayState) (op : RelayOp) (h : CoupledState s)
    (hatomic : op.Atomic s) : CoupledState (op.exec s) :=
  ⟨exec_occupancy h.occupancy h.copies hatomic, fun flight hm =>
    copyFits_exec op (copyFits_flights h.occupancy h.copies op flight hm)⟩

/-! ## the coupling -/

/-- **the coupling of nodes and tasks**: a node has a current task exactly when it is occupied and the task
is one that runs on it, no two nodes share one, and no idle node has one. -/
structure NodeTaskCoupling (db : Db) : Prop where
  current_iff : ∀ a c, currentOf db a = some c ↔
    (∃ n, db.nodes.get a = some n ∧ (n.status = .busy ∨ n.status = .pendingPause ∨
      n.status = .pendingQuit)) ∧
    ∃ t, db.tasks.get c = some t ∧ t.selectedNode = a ∧
      (t.status = .started ∨ t.status = .errorReported ∨ t.status = .scoreReady ∨
        t.status = .validated ∨ t.status = .groupValidated)
  distinct : ∀ a a' c, currentOf db a = some c → currentOf db a' = some c → a = a'
  idle : ∀ a n, db.nodes.get a = some n → (n.status = .available ∨ n.status = .paused ∨
    n.status = .quit) → n.currentTaskIDCommitment = none

lemma TaskStatus.isOccupying_iff {st : TaskStatus} : st.isOccupying = true ↔
    st = .started ∨ st = .errorReported ∨ st = .scoreReady ∨ st = .validated ∨
      st = .groupValidated := by
  cases st with
  | _ => decide

lemma Occupancy.coupling (h : Occupancy db) : NodeTaskCoupling db := by
  refine ⟨fun a c => ⟨fun hc => ?_, ?_⟩, fun a a' c ha ha' => ?_, fun a n hn hst => ?_⟩
  · obtain ⟨t, ht, hsel, hocc⟩ := h.held a c hc
    obtain ⟨n, hn, hcur⟩ := Option.bind_eq_some_iff.1 hc
    exact ⟨⟨n, hn, (h.nodes a n hn).2 (by rw [hcur]; rfl)⟩, t, ht, hsel,
      TaskStatus.isOccupying_iff.1 hocc⟩
  · rintro ⟨-, t, ht, rfl, hocc⟩
    exact h.holds c t ht (TaskStatus.isOccupying_iff.2 hocc)
  · obtain ⟨t, ht, hsel, -⟩ := h.held a c ha
    obtain ⟨t', ht', hsel', -⟩ := h.held a' c ha'
    rw [ht] at ht'
    cases ht'
    exact hsel.symm.trans hsel'
  · rcases hst with hst | hst | hst
    all_goals exact (h.nodes a n hn).idle hst (by decide)

structure Unoccupied (s : RelayState) : Prop where
  tasks : ∀ c, s.world.db.tasks.get c = none
  nodes : ∀ a, s.world.db.nodes.get a = none
  flights : s.flights = []

lemma Unoccupied.occupancy (h : Unoccupied s) : Occupancy s.world.db := by
  refine ⟨fun a n hn => ?_, fun a c hc => ?_, fun c t ht => ?_, fun c t ht => ?_,
    fun c t ht => ?_, h.nodes []⟩
  · rw [h.nodes] at hn
    cases hn
  · rw [currentOf, h.nodes] at hc
    cases hc
  all_goals
    rw [h.tasks] at ht
    cases ht

lemma run_occupancy (ops : List RelayOp) (s : RelayState) (hs : Unoccupied s)
    (hops : Along RelayOp.exec RelayOp.Atomic ops s) :
    Occupancy (run RelayOp.exec ops s).world.db := by
  have hinv : CoupledState s := by
    refine ⟨hs.occupancy, fun flight hm => ?_⟩
    rw [hs.flights] at hm
    cases hm
  exact (run_invariant step_coupledState ops s hops hinv).occupancy

/-- **the coupling holds in every reachable state.** -/
theorem run_coupling (ops : List RelayOp) (s : RelayState) (hs : Unoccupied s)
    (hops : Along RelayOp.exec RelayOp.Atomic ops s) :
    NodeTaskCoupling (run RelayOp.exec ops s).world.db := (run_occupancy ops s hs hops).coupling

def idleNode : JoinInput :=
  { gpuName := "gpu".toList, gpuVram := 24, version := "0.0.0".toList, modelFiles := [],
    address := "node".toList, network := "net".toList, staking := 1 }

def pausingRun : List RelayOp :=
  [.request (.join {} idleNode), .create {} feeThreeTask, .read "0xc1".toList,
    .attempt {} 0 (.start "node".toList), .request (.pause "node".toList), .read "0xc1".toList,
    .attempt {} 1 (.submitScore "s".toList)]

theorem run_coupling_at_pausing :
    NodeTaskCoupling (run RelayOp.exec pausingRun freshRelay).world.db ∧
      currentOf (run RelayOp.exec pausingRun freshRelay).world.db "node".toList =
        some "0xc1".toList := by
  have hfresh : Unoccupied freshRelay := ⟨fun _ => rfl, fun _ => rfl, rfl⟩
  have hatomic : Along RelayOp.exec RelayOp.Atomic pausingRun freshRelay :=
    ⟨List.cons_ne_nil _ _, trivial, trivial, trivial, rfl, trivial, trivial, trivial⟩
  exact ⟨run_coupling pausingRun freshRelay hfresh hatomic, by decide +kernel⟩

end CrynuxRelay
