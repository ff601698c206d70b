import CrynuxRelay.Tasks.GroupFailure

/-!
# The settlement of a validation unit

A task that was validated alone, or three that were validated together, settle among themselves.  The code finds
the group of a task by its task id, and any other row may carry the same one.

* `unitRows`, `settleUnit` -- the members of a unit, and the settlement among them alone;
* `OwnSettlement` -- what such a settlement pays and where it leads;
* `settlement_isolated_iff` -- **the settlement of the code is the one of the unit** exactly when no row outside
  the unit counts as a member.
-/

namespace CrynuxRelay

open List Option Tx RelayOp

variable {X : Text} {db : Db} {task : InferenceTask} {node : Node} {tasks : List InferenceTask}
  {members members' : Db → List InferenceTask}

/-! ## units -/

/-- the rows of a unit: those with its task id among the given commitments. -/
def unitRows (unit : List Text) (taskID : Text) (db : Db) : List InferenceTask :=
  (taskGroup db taskID).filter fun t => t.taskIDCommitment ∈ unit

/-- the settlement of `task` among the members of its unit. -/
def settleUnit (env : Env) (unit : List Text) (task : InferenceTask) : Relay Unit :=
  settleWith env task (unitRows unit task.taskID)

lemma mem_unitRows {unit : List Text} {t : InferenceTask} :
    t ∈ unitRows unit X db ↔ t ∈ taskGroup db X ∧ t.taskIDCommitment ∈ unit := by
  rw [unitRows, mem_filter, decide_eq_true_iff]

/-! ## payments -/

/-- the tasks that have an income among the events are the tasks of the payments. -/
lemma exists_incomeOf_iff {env : Env} {payments : List TaskPayment} {c : Text} :
    (∃ d ∈ incomeDrafts env payments, d.isIncomeOf c = true) ↔
      c ∈ payments.map (·.taskIDCommitment) := by
  rw [List.mem_map]
  refine ⟨fun ⟨d, hd, hc⟩ => ?_, fun ⟨p, hp, hc⟩ => ?_⟩
  · obtain ⟨p, hp, hdp⟩ := mem_flatMap.1 hd
    exact ⟨p, hp, isIncomeOf_unique (taskIncomeEvents_isIncomeOf hdp) hc⟩
  · have hincome : ∃ d, d ∈ taskIncomeEvents env p.taskIDCommitment p.address p.payment p.network :=
      ⟨_, mem_append_right _ mem_cons_self⟩
    obtain ⟨d, hd⟩ := hincome
    refine ⟨d, mem_flatMap.2 ⟨p, hp, hd⟩, ?_⟩
    rw [← hc]
    exact taskIncomeEvents_isIncomeOf hd

lemma settlementPayments_group (h : 1 < tasks.length) :
    (settlementPayments db task node tasks).2 = .endGroupSuccess ∧
      (settlementPayments db task node tasks).1.map (·.taskIDCommitment) =
        (tasks.filter isPaidInGroup).map (·.taskIDCommitment) := by
  rw [settlementPayments, if_pos h]
  exact ⟨rfl, groupPayments_commitments _ _ _ _⟩

/-! ## settlements -/

section
variable {env : Env} {unit : List Text} {w w' : World}

/-- a settlement depends on the members that the query finds, and for a group on the paid ones only. -/
lemma settleWith_congr (h : members w.db = members' w.db ∨
      (1 < (members w.db).length ∧ 1 < (members' w.db).length ∧
        (members w.db).filter isPaidInGroup = (members' w.db).filter isPaidInGroup))
    (hok : Ok (settleWith env task members) w () w') :
    Ok (settleWith env task members') w () w' := by
  rw [settleWith, ok_bind] at hok ⊢
  obtain ⟨node, w1, hnode, hok⟩ := hok
  obtain ⟨hhold, rfl⟩ := ok_checkTaskSelectedNode.1 hnode
  refine ⟨node, w1, hnode, ?_⟩
  rw [ok_getDb_bind, ok_require_bind] at hok ⊢
  rcases h with h | ⟨hlen, hlen', hpaid⟩
  · rwa [← h]
  · have hsame : settlementPayments w1.db task node (members w1.db) =
        settlementPayments w1.db task node (members' w1.db) := by
      rw [settlementPayments, settlementPayments, if_pos hlen, if_pos hlen', hpaid]
    rw [← hsame, ← hpaid]
    exact ⟨fun _ => hok.1 hlen, hok.2⟩

lemma settleWith_unique (hok : Ok (settleWith env task members) w () w')
    (hok' : Ok (settleWith env task members') w () w') :
    ∃ node, (settlementPayments w.db task node (members w.db)).2 =
        (settlementPayments w.db task node (members' w.db)).2 ∧
      incomeDrafts env (settlementPayments w.db task node (members w.db)).1 =
        incomeDrafts env (settlementPayments w.db task node (members' w.db)).1 := by
  obtain ⟨node, hhold, ⟨row, hrow, -⟩, hm, -⟩ := settleWith_ok hok
  obtain ⟨node', hhold', -, hm', -⟩ := settleWith_ok hok'
  obtain rfl : node = node' := some.inj (hhold.1.symm.trans hhold'.1)
  refine ⟨node, ?_, ?_⟩
  · have hst := (hm.tasks task.taskIDCommitment).symm.trans (hm'.tasks task.taskIDCommitment)
    rw [if_pos rfl, if_pos rfl, hrow] at hst
    exact congrArg InferenceTask.status (some.inj hst)
  · obtain ⟨es, hes, hds, -⟩ := hm.posts.appends
    obtain ⟨es', hes', hds', -⟩ := hm'.posts.appends
    rw [← hds, ← hds', append_cancel_left (hes.symm.trans hes')]

/-! ## isolation -/

/-- the settlement of a unit: a task of its own succeeds and its node is paid its fee, a group succeeds and pays
members of the unit only. -/
def OwnSettlement (env : Env) (unit : List Text) (task : InferenceTask) (w w' : World) : Prop :=
  ((unitRows unit task.taskID w.db).length ≤ 1 → ∃ node, HoldsTask w.db task node ∧
    Moves task.taskIDCommitment (fun t => t.succeededAs .endSuccess env.now)
      (taskIncomeEvents env task.taskIDCommitment task.selectedNode task.taskFee node.network)
      w w') ∧
  (1 < (unitRows unit task.taskID w.db).length → ∃ payments : List TaskPayment,
    (∀ p ∈ payments, p.taskIDCommitment ∈ unit) ∧
    Moves task.taskIDCommitment (fun t => t.succeededAs .endGroupSuccess env.now)
      (incomeDrafts env payments) w w')

lemma settleUnit_own (hok : Ok (settleUnit env unit task) w () w') :
    OwnSettlement env unit task w w' := by
  obtain ⟨node, hhold, -, hm, -⟩ := settleWith_ok hok
  refine ⟨fun hlen => ⟨node, hhold, ?_⟩, fun hlen =>
    ⟨(settlementPayments w.db task node (unitRows unit task.taskID w.db)).1, fun p hp => ?_, ?_⟩⟩
  · rw [settlementPayments, if_neg (Nat.not_lt.2 hlen)] at hm
    have hdrafts : incomeDrafts env
        [⟨task.taskIDCommitment, task.selectedNode, task.taskFee, node.network⟩] =
          taskIncomeEvents env task.taskIDCommitment task.selectedNode task.taskFee node.network :=
      flatMap_singleton _ _
    rwa [hdrafts] at hm
  · have hc := List.mem_map_of_mem (f := (·.taskIDCommitment)) hp
    rw [(settlementPayments_group hlen).2] at hc
    obtain ⟨t, ht, hct⟩ := List.mem_map.1 hc
    rw [← hct]
    exact (mem_unitRows.1 (mem_filter.1 ht).1).2
  · rwa [(settlementPayments_group hlen).1] at hm

/-- a row outside the unit counts as a member: any row next to a task of its own, and a paid one next to a
group. -/
def Intrudes (unit : List Text) (X : Text) (db : Db) (r : InferenceTask) : Prop :=
  r ∈ taskGroup db X ∧ r.taskIDCommitment ∉ unit ∧
    ((unitRows unit X db).length ≤ 1 ∨ isPaidInGroup r = true)

/-- without an intruder the query of the code finds the unit, or at least its paid members. -/
lemma taskGroup_of_no_intruder (h : ∀ r, ¬ Intrudes unit X db r) :
    unitRows unit X db = taskGroup db X ∨ (1 < (unitRows unit X db).length ∧
      1 < (taskGroup db X).length ∧
      (unitRows unit X db).filter isPaidInGroup = (taskGroup db X).filter isPaidInGroup) := by
  rcases Nat.lt_or_ge 1 (unitRows unit X db).length with hlen | hlen
  · refine .inr ⟨hlen, lt_of_lt_of_le hlen (length_filter_le _ _), ?_⟩
    rw [unitRows, List.filter_filter]
    refine filter_congr fun r hr => ?_
    cases hp : isPaidInGroup r with
    | false => rfl
    | true =>
      rw [Bool.true_and, decide_eq_true_iff]
      by_contra hnot
      exact h r ⟨hr, hnot, .inr hp⟩
  · refine .inl (filter_eq_self.2 fun r hr => decide_eq_true ?_)
    by_contra hnot
    exact h r ⟨hr, hnot, .inl hlen⟩

lemma outcome_of_intruder {r : InferenceTask} (hrow : ∃ row ∈ unitRows unit task.taskID w.db,
    row.taskIDCommitment = task.taskIDCommitment) (hown : Ok (settleUnit env unit task) w () w')
    (hr : Intrudes unit task.taskID w.db r) : ¬ Ok (setTaskStatusEndSuccess env task) w () w' := by
  intro hcode
  rw [setTaskStatusEndSuccess_eq] at hcode
  obtain ⟨node, hst, hds⟩ := settleWith_unique hown hcode
  obtain ⟨row, hrow, -⟩ := hrow
  obtain ⟨hmem, hnot, hcase⟩ := hr
  obtain ⟨hrow, hin⟩ := mem_unitRows.1 hrow
  -- the intruder and the task of the unit are two members for the code
  have hlen : 1 < (taskGroup w.db task.taskID).length := by
    by_contra hle
    have hone : row = r := by
      cases hl : taskGroup w.db task.taskID with
      | nil =>
        rw [hl] at hrow
        cases hrow
      | cons a l =>
        cases l with
        | nil =>
          rw [hl, mem_singleton] at hrow hmem
          exact hrow.trans hmem.symm
        | cons b l =>
          rw [hl] at hle
          exact absurd (by simp) hle
    rw [hone] at hin
    exact hnot hin
  rcases Nat.lt_or_ge 1 (unitRows unit task.taskID w.db).length with hunit | hunit
  · have hpaid : isPaidInGroup r = true := hcase.resolve_left (Nat.not_le.2 hunit)
    have hcode : r.taskIDCommitment ∈ (settlementPayments w.db task node
        (taskGroup w.db task.taskID)).1.map (·.taskIDCommitment) := by
      rw [(settlementPayments_group hlen).2]
      exact List.mem_map_of_mem (mem_filter.2 ⟨hmem, hpaid⟩)
    have hincome : ∃ d ∈ incomeDrafts env (settlementPayments w.db task node
        (taskGroup w.db task.taskID)).1, d.isIncomeOf r.taskIDCommitment = true :=
      exists_incomeOf_iff.2 hcode
    rw [← hds, exists_incomeOf_iff, (settlementPayments_group hunit).2] at hincome
    obtain ⟨t, ht, hct⟩ := List.mem_map.1 hincome
    rw [← hct] at hnot
    exact hnot (mem_unitRows.1 (mem_filter.1 ht).1).2
  · rw [(settlementPayments_group hlen).1, settlementPayments, if_neg (Nat.not_lt.2 hunit)] at hst
    cases hst

/-- **the settlement is isolated to its unit exactly when there is no intruder.**  Where the unit alone would
settle, with the outcome `w'`, the code does the same if and only if no row outside the unit that carries its
task id counts as a member. -/
theorem settlement_isolated_iff (env : Env) (unit : List Text) (task : InferenceTask) (w w' : World)
    (hrow : ∃ row ∈ unitRows unit task.taskID w.db, row.taskIDCommitment = task.taskIDCommitment)
    (hown : Ok (settleUnit env unit task) w () w') :
    OwnSettlement env unit task w w' ∧ (Ok (setTaskStatusEndSuccess env task) w () w' ↔
      ∀ r, ¬ Intrudes unit task.taskID w.db r) := by
  refine ⟨settleUnit_own hown, fun hcode r hr => outcome_of_intruder hrow hown hr hcode, fun hno => ?_⟩
  rw [setTaskStatusEndSuccess_eq]
  exact settleWith_congr (taskGroup_of_no_intruder hno) hown

end

/-! ## two tasks with one task id -/

/-- two tasks of one creator run on two nodes, and are validated one after the other with the same task id. -/
def sharedIDRun : List RelayOp :=
  [.request (.join {} (groupNode "n1".toList)), .request (.join {} (groupNode "n2".toList)),
    .create {} (groupTask "0xc1".toList), .create {} (groupTask "0xc2".toList),
    .read "0xc1".toList, .read "0xc2".toList,
    .attempt {} 0 (.start "n1".toList), .attempt {} 1 (.start "n2".toList),
    .read "0xc1".toList, .read "0xc2".toList,
    .attempt {} 2 (.submitScore "s".toList), .attempt {} 3 (.submitScore "s".toList),
    .read "0xc1".toList, .read "0xc2".toList,
    .attempt {} 4 (.validate "0x1".toList [] []), .attempt {} 5 (.validate "0x1".toList [] []),
    .read "0xc1".toList]

def lastCopy (s : RelayState) : InferenceTask :=
  match s.flights.getLast? with
  | some flight => flight.task
  | none => (groupTask []).task

/-- the same run without the second validation: the first task settles as a unit of its own. -/
theorem settlement_isolated_iff_at_single : ∃ w', OwnSettlement {} ["0xc1".toList]
        (lastCopy (run RelayOp.exec (sharedIDRun.eraseIdx 15) freshRelay))
        (run RelayOp.exec (sharedIDRun.eraseIdx 15) freshRelay).world w' ∧
      Ok (setTaskStatusEndSuccess {}
          (lastCopy (run RelayOp.exec (sharedIDRun.eraseIdx 15) freshRelay)))
        (run RelayOp.exec (sharedIDRun.eraseIdx 15) freshRelay).world () w' := by
  have hok : ((settleUnit {} ["0xc1".toList]
      (lastCopy (run exec (sharedIDRun.eraseIdx 15) freshRelay)))
      (run exec (sharedIDRun.eraseIdx 15) freshRelay).world).1.toBool = true := by
    decide +kernel
  have hrow : ∃ row ∈ unitRows ["0xc1".toList]
      (lastCopy (run exec (sharedIDRun.eraseIdx 15) freshRelay)).taskID
      (run exec (sharedIDRun.eraseIdx 15) freshRelay).world.db, row.taskIDCommitment =
        (lastCopy (run exec (sharedIDRun.eraseIdx 15) freshRelay)).taskIDCommitment := by
    decide +kernel
  have halone : ∀ r ∈ taskGroup (run exec (sharedIDRun.eraseIdx 15) freshRelay).world.db
      (lastCopy (run exec (sharedIDRun.eraseIdx 15) freshRelay)).taskID,
      r.taskIDCommitment ∈ ["0xc1".toList] := by
    decide +kernel
  rcases ok_or_fails (settleUnit {} ["0xc1".toList]
      (lastCopy (run exec (sharedIDRun.eraseIdx 15) freshRelay)))
      (run exec (sharedIDRun.eraseIdx 15) freshRelay).world with ⟨u, h⟩ | ⟨e, h⟩
  · obtain ⟨hown, hiff⟩ := settlement_isolated_iff {} ["0xc1".toList] _ _ _ hrow h
    exact ⟨_, hown, hiff.2 fun r hr => hr.2.1 (halone r hr.1)⟩
  · rw [h] at hok
    cases hok

/-- **a single task ends as a group that pays nobody.** -/
theorem shared_task_id_unpaid :
    ((run RelayOp.exec sharedIDRun freshRelay).world.db.tasks.get "0xc1".toList).map (·.status) =
        some .validated ∧
      ((run RelayOp.exec (sharedIDRun ++ [.attempt {} 6 .upload]) freshRelay).world.db.tasks.get
        "0xc1".toList).map (·.status) = some .endGroupSuccess ∧
      (run RelayOp.exec (sharedIDRun ++ [.attempt {} 6 .upload])
        freshRelay).world.db.relayAccountEvents.rows.map (·.type) = [.taskPayment, .taskPayment] := by
  decide +kernel

end CrynuxRelay
