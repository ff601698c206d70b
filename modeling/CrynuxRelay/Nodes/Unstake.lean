import CrynuxRelay.Model.Unstake
import CrynuxRelay.Tasks.Rows

/-!
# Unstaking ends scheduling

* `LeavingFrom` -- a node that waits for its task to end, or has quit; no move of the relay leads out;
* `Unscheduled` -- what is asked of a step: a node whose unstake event has been processed gets no task,
  and it has quit when its task is gone;
* `run_unscheduled` -- every run is so, when every call that returns without a change leaves a node
  that has quit or will quit; `unstaked_node_scheduled` -- a pausing node, and how it gets its next task.
-/

namespace CrynuxRelay

open Function Option Tx UnstakeOp

variable {c : Option Text} {db : Db} {a : Text} {starting : Prop} {w : World} {op : UnstakeOp}
  {n n' : Node} {env : Env} {s : UnstakeState} {i : Nat}

/-! ## leaving -/

def NodeStatus.isLeaving (st : NodeStatus) : Prop := st = .quit ∨ st = .pendingQuit

instance (st : NodeStatus) : Decidable st.isLeaving :=
  inferInstanceAs (Decidable (st = .quit ∨ st = .pendingQuit))

/-- a leaving node with the current task `c`, or one that has quit since. -/
def LeavingFrom (c : Option Text) (n : Node) : Prop :=
  (n.status = .pendingQuit ∧ n.currentTaskIDCommitment = c) ∨
    (n.status = .quit ∧ (n.currentTaskIDCommitment = c ∨ n.currentTaskIDCommitment = none))

lemma LeavingFrom.isLeaving (h : LeavingFrom c n) : n.status.isLeaving := by
  rcases h with ⟨h, -⟩ | ⟨h, -⟩
  · exact .inr h
  · exact .inl h

lemma leavingFrom_self (h : n.status.isLeaving) : LeavingFrom n.currentTaskIDCommitment n := by
  rcases h with h | h
  · exact .inr ⟨h, .inl rfl⟩
  · exact .inl ⟨h, rfl⟩

/-- **no move leads out**: none of the moves that need another status applies. -/
theorem ServiceMove.leavingFrom (hm : ServiceMove n n') (h : LeavingFrom c n) : LeavingFrom c n' := by
  have hstatus : ∀ st, n.status = st → st = .quit ∨ st = .pendingQuit := by
    rintro st rfl
    exact h.isLeaving
  cases hm with
  | score q => exact h
  | health x t e => exact h
  | version v => exact h
  | quit => exact .inr ⟨rfl, .inr rfl⟩
  | start c' x hst => rcases hstatus _ hst with h' | h' <;> cases h'
  | finish hst => rcases hstatus _ hst with h' | h' <;> cases h'
  | rest hst => rcases hstatus _ hst with h' | h' <;> cases h'
  | pause hst => rcases hstatus _ hst with h' | h' <;> cases h'
  | pauseLater hst => rcases hstatus _ hst with h' | h' <;> cases h'
  | resume hst => rcases hstatus _ hst with h' | h' <;> cases h'
  | quitLater hst => rcases hstatus _ hst with h' | h' <;> cases h'

/-- the row of a leaving node after a step, given its row before. -/
def StaysLeaving (db db' : Db) (a : Text) : Prop :=
  ∀ n', db'.nodes.get a = some n' → LeavingFrom (currentOf db a) n'

lemma currentOf_eq (h : db.nodes.get a = some n) : currentOf db a = n.currentTaskIDCommitment := by
  rw [currentOf, h]
  rfl

section
variable {w' : World}

lemma leavingFrom_row (h : ∀ n, w.db.nodes.get a = some n → n.status.isLeaving) :
    ∀ n, w.db.nodes.get a = some n → LeavingFrom (currentOf w.db a) n := by
  intro n hn
  rw [currentOf_eq hn]
  exact leavingFrom_self (h n hn)

lemma RowFrame.staysLeaving (hf : RowFrame starting w w')
    (h : ∀ n, w.db.nodes.get a = some n → n.status.isLeaving) : StaysLeaving w.db w'.db a :=
  hf.nodes.keep (fun _ _ hm hn => hm.leavingFrom hn) (leavingFrom_row h)

end

/-! ## attempts -/

lemma moves_unstakeOnce (env : Env) (node : Node) :
    Tx.Keeps (MoveFrame (fun _ => True) starting) (unstakeOnce env node) := by
  unfold unstakeOnce
  split
  · exact moves_setNodeStatusQuit env node false (.inl trivial)
  · exact moves_setNodeStatusQuit env node false (.inl trivial)
  · next hst =>
    exact moves_nodeUpdateStatus _ _ _ (fun n hn => .quitLater n (hn.trans hst)) (.inl trivial)
  all_goals exact keeps_pure ()

def NodeStatus.canUnstake (st : NodeStatus) : Bool :=
  st = .available ∨ st = .paused ∨ st = .busy

lemma isLeaving_modify {nodes : Table Node.address} {f : Node → Node}
    (hf : ∀ n, (f n).address = n.address) (h : ∀ n, (f n).status.isLeaving)
    (hn' : (nodes.modify a f hf).get a = some n') : n'.status.isLeaving := by
  rw [Table.get_modify_self] at hn'
  obtain ⟨n, -, rfl⟩ := map_eq_some_iff.1 hn'
  exact h n

/-- **an attempt that succeeds** on a status it acts on leaves a leaving node; on every other status it does
nothing. -/
theorem unstakeOnce_ok {node : Node} {w' : World} {u : Unit}
    (h : Ok (unstakeOnce env node) w u w') : (node.status.canUnstake = true ∧
      ∀ n', w'.db.nodes.get node.address = some n' → n'.status.isLeaving) ∨
    (node.status.canUnstake = false ∧ w' = w) := by
  have hquit : Ok (setNodeStatusQuit env node false) w u w' →
      ∀ n', w'.db.nodes.get node.address = some n' → n'.status.isLeaving := by
    intro h n' hn'
    obtain ⟨-, ⟨counts, -, hdb⟩, -⟩ := setNodeStatusQuit_ok h
    rw [hdb] at hn'
    exact isLeaving_modify (by intro _; rfl) (fun n => .inl rfl) hn'
  unfold unstakeOnce at h
  cases hst : node.status with
  | available =>
    rw [hst] at h
    exact .inl ⟨rfl, hquit h⟩
  | paused =>
    rw [hst] at h
    exact .inl ⟨rfl, hquit h⟩
  | busy =>
    rw [hst] at h
    obtain ⟨-, rfl⟩ := ok_updateStatus.1 h
    exact .inl ⟨rfl, fun n' hn' => isLeaving_modify (by intro _; rfl) (fun n => .inr rfl) hn'⟩
  | _ =>
    rw [hst] at h
    exact .inr ⟨rfl, (ok_pure.1 h).2⟩

/-! ## steps -/

def UnstakeInv (s : UnstakeState) : Prop :=
  ∀ a, s.unstaked a = true → ∀ n, s.relay.world.db.nodes.get a = some n → n.status.isLeaving

structure Unscheduled (s : UnstakeState) (op : UnstakeOp) : Prop where
  noNewTask : ∀ a, s.unstaked a = true → ∀ c,
    currentOf (op.exec s).relay.world.db a = some c → currentOf s.relay.world.db a = some c
  quits : ∀ a, s.unstaked a = true → (currentOf s.relay.world.db a).isSome = true →
    ∀ n', (op.exec s).relay.world.db.nodes.get a = some n' →
      n'.currentTaskIDCommitment = none → n'.status = .quit
  leaving : ∀ a, (op.exec s).unstaked a = true →
    ∀ n', (op.exec s).relay.world.db.nodes.get a = some n' → n'.status.isLeaving

/-- the assumption on a step: a call that is about to return without an error and without a change finds a
node that has quit or will quit. -/
def UnstakeOp.Settling (s : UnstakeState) : UnstakeOp → Prop
  | .attempt _ i => ∀ call, s.calls[i]? = some call → call.conflict = false →
      call.node.status.canUnstake = false →
        ∀ n, s.relay.world.db.nodes.get call.node.address = some n → n.status.isLeaving
  | .sync i => ∀ call, s.calls[i]? = some call → call.conflict = true → call.attempts = 0 →
      ∀ n, s.relay.world.db.nodes.get call.node.address = some n → n.status.isLeaving
  | _ => True

/-- the row of a node after an operation of the relay: still leaving, or joined again with the task of
the old row. -/
lemma relay_staysLeaving (op : RelayOp)
    (h : ∀ n, s.relay.world.db.nodes.get a = some n → n.status.isLeaving) :
    ∀ n', (op.exec s.relay).world.db.nodes.get a = some n' →
      LeavingFrom (currentOf s.relay.world.db a) n' ∨ (joinedBy op s.relay.world = some a ∧
          n'.currentTaskIDCommitment = currentOf s.relay.world.db a) := by
  intro n' hn'
  by_cases hreport : ∃ req, op = .request req ∧ req.isReport = true
  · obtain ⟨req, rfl, hreq⟩ := hreport
    rcases (report_rows hreq s.relay.world).2 a n' hn' with hn | hrep
    · exact .inl (leavingFrom_row h n' hn)
    · cases req with
      | join env input =>
        obtain ⟨rfl, -, -, hst, hcur, -⟩ := hrep
        refine .inr ⟨?_, hcur⟩
        rw [joinedBy]
        cases hr : (nodeJoin env input s.relay.world).1 with
        | ok u => rfl
        | error e =>
          have hfail : Fails (NodeOp.join env input).tx s.relay.world e (nodeJoin env input _).2 := Prod.ext hr rfl
          change ((NodeOp.join env input).exec s.relay.world).db.nodes.get _ = _ at hn'
          rw [NodeOp.exec, hfail.after_eq, (NodeOp.join env input).atomic _ e _ hfail] at hn'
          have hleave := h n' hn'
          rw [hst] at hleave
          rcases hleave with h' | h' <;> cases h'
      | syncCapabilities env address c =>
        obtain ⟨rfl, -, -, n, hn, -, hst, hcur⟩ := hrep
        refine .inl ?_
        rw [currentOf_eq hn, ← hcur]
        refine leavingFrom_self ?_
        rw [hst]
        exact h n hn
      | _ => cases hreq
  · have hframe : RowFrame True s.relay.world (op.exec s.relay).world := by
      refine rowFrame_relayOp s.relay.flights (fun req hreq => ?_) (.inl trivial) s.relay.world
      rw [← Bool.not_eq_true]
      exact fun ht => hreport ⟨req, hreq, ht⟩
    exact .inl (hframe.staysLeaving h n' hn')

/-- the two clauses about a node whose event has been processed, from what became of its row. -/
lemma unscheduled_row {db' : Db}
    (h : ∀ n', db'.nodes.get a = some n' → LeavingFrom (currentOf db a) n' ∨
      n'.currentTaskIDCommitment = currentOf db a) :
    (∀ c, currentOf db' a = some c → currentOf db a = some c) ∧
      ((currentOf db a).isSome = true → ∀ n', db'.nodes.get a = some n' →
        n'.currentTaskIDCommitment = none → n'.status = .quit) := by
  refine ⟨fun c hc => ?_, fun hsome n' hn' hnone => ?_⟩
  · obtain ⟨n', hn', hcur⟩ := bind_eq_some_iff.1 hc
    rcases h n' hn' with (⟨-, he⟩ | ⟨-, he | he⟩) | he
    · exact he.symm.trans hcur
    · exact he.symm.trans hcur
    · rw [hcur] at he
      cases he
    · exact he.symm.trans hcur
  · have hne : currentOf db a ≠ none := by
      intro e
      rw [e] at hsome
      cases hsome
    rcases h n' hn' with (⟨-, he⟩ | ⟨hst, -⟩) | he
    · exact absurd (he.symm.trans hnone) hne
    · exact hst
    · exact absurd (he.symm.trans hnone) hne

lemma unscheduled_of_leaving (hold : ∀ a, s.unstaked a = true →
      StaysLeaving s.relay.world.db (op.exec s).relay.world.db a)
    (hnew : ∀ a, (op.exec s).unstaked a = true → s.unstaked a = true ∨
      ∀ n', (op.exec s).relay.world.db.nodes.get a = some n' → n'.status.isLeaving) :
    Unscheduled s op where
  noNewTask := fun a ha => (unscheduled_row fun n' hn' => .inl (hold a ha n' hn')).1
  quits := fun a ha => (unscheduled_row fun n' hn' => .inl (hold a ha n' hn')).2
  leaving := fun a ha n' hn' => by
    rcases hnew a ha with hold' | hleave
    · exact (hold a hold' n' hn').isLeaving
    · exact hleave n' hn'

lemma relay_unscheduled (op : RelayOp) (h : UnstakeInv s) : Unscheduled s (.relay op) := by
  have hrow := fun a (ha : s.unstaked a = true) => relay_staysLeaving op (h a ha)
  refine ⟨fun a ha => ?_, fun a ha => ?_, fun a ha n' hn' => ?_⟩
  · exact (unscheduled_row fun n' hn' => (hrow a ha n' hn').imp_right And.right).1
  · exact (unscheduled_row fun n' hn' => (hrow a ha n' hn').imp_right And.right).2
  · simp only [exec] at ha
    cases hj : joinedBy op s.relay.world with
    | none =>
      rw [hj] at ha
      rcases hrow a ha n' hn' with hleave | ⟨hjoin, -⟩
      · exact hleave.isLeaving
      · rw [hj] at hjoin
        cases hjoin
    | some b =>
      rw [hj] at ha
      -- the flag of the joined node has been cleared
      have hab : a ≠ b := by
        rintro rfl
        simp only [update_self] at ha
        cases ha
      simp only [update_of_ne hab] at ha
      rcases hrow a ha n' hn' with hleave | ⟨hjoin, -⟩
      · exact hleave.isLeaving
      · rw [hj] at hjoin
        exact absurd (some.inj hjoin).symm hab

lemma unscheduled_of_db_eq (h : UnstakeInv s) (hdb : (op.exec s).relay.world.db = s.relay.world.db)
    (hnew : ∀ a, (op.exec s).unstaked a = true → s.unstaked a = true ∨
      ∀ n, s.relay.world.db.nodes.get a = some n → n.status.isLeaving) : Unscheduled s op := by
  refine unscheduled_of_leaving (fun a ha => ?_) fun a ha => ?_
  · rw [hdb]
    exact leavingFrom_row (h a ha)
  · rw [hdb]
    exact hnew a ha

lemma unscheduled_of_same (h : UnstakeInv s) (hexec : op.exec s = s) : Unscheduled s op :=
  unscheduled_of_db_eq h (by rw [hexec]) fun a ha => .inl (by rwa [hexec] at ha)

lemma unstaked_done_ne {call : UnstakeCall} (h : a ≠ call.node.address) :
    (s.done i call).unstaked a = s.unstaked a := by
  exact update_of_ne h true s.unstaked

lemma attempt_unscheduled (h : UnstakeInv s) (hset : (attempt env i).Settling s) :
    Unscheduled s (.attempt env i) := by
  cases hcall : s.calls[i]? with
  | none =>
    have hexec : (attempt env i).exec s = s := by rw [exec, hcall]
    exact unscheduled_of_same h hexec
  | some call =>
    cases hconf : call.conflict with
    | true =>
      have hexec : (attempt env i).exec s = s := by
        rw [exec, hcall]
        simp only [hconf, if_pos]
      exact unscheduled_of_same h hexec
    | false =>
      have hexec : (attempt env i).exec s = s.attempt env i call := by
        rw [exec, hcall]
        simp only [hconf, Bool.false_eq_true, if_false]
      have hworld : (s.attempt env i call).relay.world =
          after (unstakeOnce env call.node) s.relay.world := by
        unfold UnstakeState.attempt UnstakeState.attempted
        split <;> simp [after, UnstakeState.done, *]
      have hframe : RowFrame True s.relay.world (s.attempt env i call).relay.world := by
        rw [hworld]
        exact (moves_unstakeOnce env call.node s.relay.world).rowFrame
      refine unscheduled_of_leaving (fun a ha => ?_) fun a ha => ?_
      · rw [hexec]
        exact hframe.staysLeaving (h a ha)
      · rw [hexec] at ha ⊢
        rw [hworld]
        rcases ok_or_fails (unstakeOnce env call.node) s.relay.world with ⟨u, hok⟩ | ⟨e, hfail⟩
        · by_cases hab : a = call.node.address
          · subst hab
            refine .inr ?_
            rcases unstakeOnce_ok hok with ⟨-, hleave⟩ | ⟨hcan, hsame⟩
            · exact hleave
            · rw [hsame]
              exact hset call hcall hconf hcan
          · rw [UnstakeState.attempt, hok, UnstakeState.attempted, unstaked_done_ne hab] at ha
            exact .inl ha
        · rw [UnstakeState.attempt, hfail] at ha
          unfold UnstakeState.attempted at ha
          split at ha
          · next hr => cases hr
          all_goals exact .inl ha

lemma sync_unscheduled (h : UnstakeInv s) (hset : (sync i).Settling s) : Unscheduled s (.sync i) := by
  have hsame : ∀ call, (s.sync i call).relay.world.db = s.relay.world.db := by
    intro call
    unfold UnstakeState.sync
    split
    · rfl
    · split <;> rfl
  cases hcall : s.calls[i]? with
  | none =>
    have hexec : (sync i).exec s = s := by rw [exec, hcall]
    exact unscheduled_of_same h hexec
  | some call =>
    cases hconf : call.conflict with
    | false =>
      have hexec : (sync i).exec s = s := by
        rw [exec, hcall]
        simp only [hconf, Bool.false_eq_true, if_false]
      exact unscheduled_of_same h hexec
    | true =>
      have hexec : (sync i).exec s = s.sync i call := by
        rw [exec, hcall]
        simp only [hconf, if_pos]
      refine unscheduled_of_db_eq h (by rw [hexec, hsame call]) fun a ha => ?_
      rw [hexec, UnstakeState.sync] at ha
      split at ha
      · exact .inl ha
      · split at ha
        · next hzero =>
          by_cases hab : a = call.node.address
          · subst hab
            exact .inr (hset call hcall hconf hzero)
          · rw [unstaked_done_ne hab] at ha
            exact .inl ha
        · exact .inl ha

lemma step_unscheduled (s : UnstakeState) (op : UnstakeOp) (h : UnstakeInv s)
    (hset : op.Settling s) : Unscheduled s op := by
  cases op with
  | relay op => exact relay_unscheduled op h
  | observe address network blockTime =>
    have hexec : ((observe address network blockTime).exec s).relay = s.relay ∧
        ((observe address network blockTime).exec s).unstaked = s.unstaked := by
      rw [exec]
      split <;> exact ⟨rfl, rfl⟩
    exact unscheduled_of_db_eq h (by rw [hexec.1]) fun a ha => .inl (by rwa [hexec.2] at ha)
  | attempt env i => exact attempt_unscheduled h hset
  | sync i => exact sync_unscheduled h hset
  | fail i => exact unscheduled_of_db_eq h rfl fun a ha => .inl ha

/-- **unstaking ends scheduling.**  In every run of the relay and of calls of the handler in which every call
that returns without a change finds a node that has quit or will quit: after its event has been processed
and until it joins again, a node is given no task, it is leaving, and it has quit when its task is gone. -/
theorem run_unscheduled (ops : List UnstakeOp) (s : UnstakeState) (hnew : ∀ a, s.unstaked a = false)
    (h : Along UnstakeOp.exec (fun s op => op.Settling s) ops s) :
    Along UnstakeOp.exec Unscheduled ops s :=
  Along.of_invariant (fun s op h hset => (step_unscheduled s op h hset).leaving) step_unscheduled ops s h fun a ha => by
    rw [hnew a] at ha
    cases ha

/-! ## runs -/

def runningTask : InferenceTask :=
  { id := 1, taskIDCommitment := "c1".toList, creator := "u".toList, taskFee := 3,
    status := .started, startTime := some 0, deadlineAt := some 0,
    selectedNode := "node".toList }

def waitingTask : InferenceTask :=
  { id := 2, taskIDCommitment := "c2".toList, creator := "u".toList, taskFee := 3 }

def runningNode (st : NodeStatus) : Node :=
  { address := "node".toList, status := st, currentTaskIDCommitment := some "c1".toList }

def unstakeStart (st : NodeStatus) : UnstakeState where
  relay :=
    { world :=
        ⟨{ tasks := (Table.empty.insert runningTask).insert waitingTask
           nodes := Table.empty.insert (runningNode st)
           nodeNameCounts := Tally.inc (fun _ => none) (runningNode st).name }, {}⟩
      flights := [] }

/-- the unstake event is processed, the running task times out, the node asks to resume and is matched with
the waiting task. -/
def unstakeRun : List UnstakeOp :=
  [.observe "node".toList [] 0, .attempt {} 0, .relay (.read "c1".toList),
    .relay (.attempt {} 0 .timeOut), .relay (.request (.resume "node".toList)),
    .relay (.read "c2".toList), .relay (.attempt {} 1 (.start "node".toList))]

lemma unstakeRun_settling :
    Along exec (fun s op => op.Settling s) unstakeRun (unstakeStart .busy) := by
  refine ⟨trivial, fun call hcall hconf hcan => ?_, trivial, trivial, trivial, trivial, trivial,
    trivial⟩
  cases hcall
  cases hcan

theorem run_unscheduled_at_busy : Along UnstakeOp.exec Unscheduled unstakeRun (unstakeStart .busy) ∧
      ((run UnstakeOp.exec unstakeRun (unstakeStart .busy)).relay.world.db.nodes.get
        "node".toList).map (·.status) = some .quit :=
  ⟨run_unscheduled unstakeRun (unstakeStart .busy) (fun _ => rfl) unstakeRun_settling,
    by decide +kernel⟩

/-- **an unstaked node gets a task**: it was about to pause, so the event was processed without any effect;
it is paused when its task is gone, resumes, and starts the next task. -/
theorem unstaked_node_scheduled :
    (run UnstakeOp.exec (unstakeRun.take 2) (unstakeStart .pendingPause)).unstaked
      "node".toList = true ∧
    ¬ Along UnstakeOp.exec Unscheduled unstakeRun (unstakeStart .pendingPause) := by
  refine ⟨by decide +kernel, ?_⟩
  rintro ⟨-, -, -, -, -, -, h, -⟩
  have hnew := h.noNewTask "node".toList (by decide +kernel) "c2".toList (by decide +kernel)
  revert hnew
  decide +kernel

end CrynuxRelay
