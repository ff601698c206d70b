import CrynuxRelay.Tasks.Steps

/-!
# The ledger contract of a task

What the log says about every task, in every state that the relay reaches, whatever the order of the
handlers and whatever they have read before.

* `LedgerContract` -- the payment, the refund and the incomes that the status of a task stands for;
* `Books.contract` -- books that agree with the rows keep it;
* `run_terminalContract` -- every task keeps its contract, and it ends at most once;
* `run_course` -- between any two states of a run, rows keep to their course and the log its events.
-/

namespace CrynuxRelay

open List Option Table EventDraft

variable {db : Db} {c : Text} {t : InferenceTask} {s : RelayState}
  {unit : Text → Set Text} {op : RelayOp}

/-! ## the contract -/

def paymentEvents (db : Db) (c : Text) : List RelayAccountEvent :=
  db.relayAccountEvents.rows.filter fun e =>
    e.type = .taskPayment ∧ e.reason = reason2 .taskPayment c

def refundEvents (db : Db) (c : Text) : List RelayAccountEvent :=
  db.relayAccountEvents.rows.filter fun e =>
    e.type = .taskRefund ∧ e.reason = reason2 .taskRefund c

def incomeEvents (db : Db) (c : Text) : List RelayAccountEvent :=
  db.relayAccountEvents.rows.filter fun e => e.draft.isIncomeOf c

def RepresentativeSucceeded (db : Db) (taskID : Text) : Prop :=
  ∃ c r, db.tasks.get c = some r ∧ r.taskID = taskID ∧ r.status = .endGroupSuccess

structure LedgerContract (db : Db) (t : InferenceTask) : Prop where
  payment : ∃ e, paymentEvents db t.taskIDCommitment = [e] ∧ e.address = t.creator ∧
    e.amount = t.taskFee
  refund : refundEvents db t.taskIDCommitment ≠ [] ↔ t.status = .endGroupRefund ∨
      (t.status = .endAborted ∧ t.abortReason ≠ .creatorValidationTimeout)
  refund_amount : ∀ e ∈ refundEvents db t.taskIDCommitment,
    e.address = t.creator ∧ e.amount = t.taskFee
  income : incomeEvents db t.taskIDCommitment ≠ [] →
    t.status = .endSuccess ∨ t.status = .endGroupSuccess ∨
      (t.status = .endGroupRefund ∧ RepresentativeSucceeded db t.taskID) ∨
      (t.status = .endAborted ∧ t.abortReason = .creatorValidationTimeout)
  timeout : t.status = .endAborted → t.abortReason = .creatorValidationTimeout →
    ((incomeEvents db t.taskIDCommitment).map (·.amount)).sum = t.taskFee

lemma filter_eq_singleton {α : Type} {l : List α} (hnd : l.Nodup) {p : α → Bool} {a : α}
    (ha : a ∈ l) (hp : p a = true) (hall : ∀ b ∈ l, p b = true → b = a) : l.filter p = [a] := by
  have hmem : a ∈ l.filter p := mem_filter.2 ⟨ha, hp⟩
  have heq : ∀ b ∈ l.filter p, b = a := fun b hb =>
    hall b (mem_filter.1 hb).1 (mem_filter.1 hb).2
  have hrep := eq_replicate_of_mem heq
  have hle : (l.filter p).length ≤ 1 := by
    have hnd' := hnd.filter p
    rw [hrep] at hnd'
    exact nodup_replicate.1 hnd'
  have hpos := length_pos_of_mem hmem
  have hone : (l.filter p).length = 1 := by omega
  rw [hrep, hone]
  rfl

lemma sum_incomeEvents (db : Db) (c : Text) :
    ((incomeEvents db c).map (·.amount)).sum = incomeSum c (logOf db) := by
  rw [incomeSum, logOf, List.filter_map, List.map_map]
  rfl

section
variable (h : Books db) (ht : db.tasks.get c = some t)
include h ht

lemma Books.payment_unique :
    ∃ e, paymentEvents db t.taskIDCommitment = [e] ∧ e.address = t.creator ∧
      e.amount = t.taskFee := by
  obtain ⟨e, he, hd⟩ := List.mem_map.1 (h.rows c t ht).payment
  have hty : e.type = .taskPayment := congrArg type hd
  have hr : e.reason = reason2 .taskPayment t.taskIDCommitment := congrArg reason hd
  refine ⟨e, ?_, congrArg address hd, congrArg amount hd⟩
  refine filter_eq_singleton (List.Nodup.of_map _ db.relayAccountEvents.reasons_nodup) he
    (decide_eq_true ⟨hty, hr⟩) fun e' he' hp => ?_
  have hp := of_decide_eq_true hp
  exact inj_on_of_nodup_map db.relayAccountEvents.reasons_nodup he' he (hp.2.trans hr.symm)

lemma Books.refund_accounted {e : RelayAccountEvent} (he : e ∈ refundEvents db t.taskIDCommitment) :
    e.draft = refundDraft t ∧ taskRefundAllowed t = true := by
  obtain ⟨hm, hp⟩ := mem_filter.1 he
  obtain ⟨hty, hr⟩ := of_decide_eq_true hp
  have hacc := h.accounted e.draft (List.mem_map_of_mem hm)
  have hty' : e.draft.type = .taskRefund := hty
  rw [Accounted, hty'] at hacc
  obtain ⟨c', t', ht', hd, hallow⟩ := hacc
  have hreason : reason2 .taskRefund t'.taskIDCommitment = reason2 .taskRefund t.taskIDCommitment :=
    (congrArg reason hd).symm.trans hr
  have hc : c' = c := by
    rw [← key_of_get ht', ← key_of_get ht]
    exact (reason2_inj.1 hreason).2
  rw [hc, ht] at ht'
  cases ht'
  exact ⟨hd, hallow⟩

/-- **books that agree with the rows keep the contract.** -/
theorem Books.contract : LedgerContract db t where
  payment := h.payment_unique ht
  refund := by
    rw [← taskRefundAllowed_iff]
    constructor
    · intro hne
      obtain ⟨e, he⟩ := exists_mem_of_ne_nil _ hne
      exact (h.refund_accounted ht he).2
    · intro hallow
      obtain ⟨e, he, hd⟩ := List.mem_map.1 ((h.rows c t ht).refund hallow)
      have hp : e.type = .taskRefund ∧ e.reason = reason2 .taskRefund t.taskIDCommitment :=
        ⟨congrArg type hd, congrArg reason hd⟩
      exact ne_nil_of_mem (mem_filter.2 ⟨he, decide_eq_true hp⟩)
  refund_amount := fun e he => by
    have hd := (h.refund_accounted ht he).1
    exact ⟨congrArg address hd, congrArg amount hd⟩
  income := fun hne => by
    obtain ⟨e, he⟩ := exists_mem_of_ne_nil _ hne
    obtain ⟨hm, hinc⟩ := mem_filter.1 he
    obtain ⟨t', ht', hset⟩ := (h.accounted e.draft (List.mem_map_of_mem hm)).income hinc
    rw [key_of_get ht, ht] at ht'
    cases ht'
    exact hset
  timeout := fun hst hreason => by
    rw [sum_incomeEvents]
    exact (h.rows c t ht).timeout ⟨hst, hreason⟩

end

/-! ## runs -/

structure Fresh (s : RelayState) : Prop where
  tasks : ∀ c, s.world.db.tasks.get c = none
  events : ∀ e ∈ s.world.db.relayAccountEvents.rows, e.type.ofTask = false
  nodes : ∀ a, currentOf s.world.db a = none
  flights : s.flights = []

lemma Fresh.relayInv (h : Fresh s) : RelayInv unit s := by
  have hno : ∀ {c : Text} {t : InferenceTask}, s.world.db.tasks.get c ≠ some t := by
    intro c t ht
    rw [h.tasks] at ht
    cases ht
  refine ⟨⟨⟨⟨?_, ?_⟩, ?_, ?_⟩, ?_⟩, ⟨?_, ?_⟩, ?_⟩
  · exact fun c c' t t' ht => absurd ht hno
  · exact fun c t ht => absurd ht hno
  · exact fun c t ht => absurd ht hno
  · intro a c hc
    rw [h.nodes] at hc
    cases hc
  · exact fun X c t ht => absurd ht hno
  · intro d hd
    obtain ⟨e, he, rfl⟩ := List.mem_map.1 hd
    exact accounted_of_not_task (h.events e he) _
  · exact fun c t ht => absurd ht hno
  · intro flight hm
    rw [h.flights] at hm
    cases hm

def taskStatusOf (db : Db) (c : Text) : Option TaskStatus := (db.tasks.get c).map (·.status)

def RelayOp.ends (c : Text) (s : RelayState) (op : RelayOp) : Bool :=
  match taskStatusOf (op.exec s).world.db c with
  | some st => st.isTerminal && decide (taskStatusOf s.world.db c ≠ some st)
  | none => false

def TaskEnded (c : Text) (s : RelayState) : Prop :=
  ∃ st, taskStatusOf s.world.db c = some st ∧ st.isTerminal = true

lemma taskEnded_keeps (h : RelayInv unit s) (hadm : op.Admissible unit s)
    (hend : TaskEnded c s) : TaskEnded c (op.exec s) ∧ op.ends c s = false := by
  obtain ⟨st, hst, hterm⟩ := hend
  obtain ⟨t, ht, rfl⟩ := map_eq_some_iff.1 hst
  obtain ⟨t', ht', he⟩ := (exec_taskStep h hadm).evolution c t ht
  have hst' : taskStatusOf (op.exec s).world.db c = some t.status := by
    rw [taskStatusOf, ht', ← (he.ended hterm).1]
    rfl
  refine ⟨⟨t.status, hst', hterm⟩, ?_⟩
  rw [RelayOp.ends, hst', hst]
  simp

lemma taskEnded_of_ends (h : op.ends c s = true) : TaskEnded c (op.exec s) := by
  rw [RelayOp.ends] at h
  split at h
  · next st hst => exact ⟨st, hst, (Bool.and_eq_true_iff.1 h).1⟩
  · cases h

/-- **the ledger contract**: after every run, a task has ended at most once, and the log holds its
payment, its refund and its incomes as its status says. -/
theorem run_terminalContract (unit : Text → Set Text) (ops : List RelayOp) (s : RelayState)
    (hs : Fresh s) (hops : Along RelayOp.exec (RelayOp.Admissible unit) ops s) (c : Text) :
    countAlong RelayOp.exec (RelayOp.ends c) ops s ≤ 1 ∧
      ∀ t, (run RelayOp.exec ops s).world.db.tasks.get c = some t →
        LedgerContract (run RelayOp.exec ops s).world.db t := by
  have hinv : RelayInv unit s := hs.relayInv
  refine ⟨?_, fun t ht => ?_⟩
  · exact countAlong_le_one (fun s op h hadm => step_relayInv h hadm)
      (fun s op h hadm hend => taskEnded_keeps h hadm hend)
      (fun s op h hadm hends => taskEnded_of_ends hends) ops s hops hinv
  · exact (run_invariant (fun s op h hadm => step_relayInv h hadm) ops s hops hinv).books.contract ht

def freshRelay : RelayState where
  world := ⟨{ relayAccounts := fun a => if a = "0xa1".toList then some 10 else none }, {}⟩
  flights := []

def feeThreeTask : NewTask where
  task := { taskIDCommitment := "0xc1".toList, creator := "0xa1".toList, taskFee := 3 }
  queued := rfl
  unselected := rfl
  unrevealed := rfl

def cancelledRun : List RelayOp :=
  [.create {} feeThreeTask, .read "0xc1".toList, .attempt {} 0 .cancel]

theorem run_terminalContract_at_cancelled :
    countAlong RelayOp.exec (RelayOp.ends "0xc1".toList) cancelledRun freshRelay ≤ 1 ∧
      ∃ t, (run RelayOp.exec cancelledRun freshRelay).world.db.tasks.get "0xc1".toList = some t ∧
        t.status = .endAborted ∧
        LedgerContract (run RelayOp.exec cancelledRun freshRelay).world.db t := by
  have hadm : Along RelayOp.exec (RelayOp.Admissible fun _ => ∅) cancelledRun freshRelay :=
    ⟨trivial, trivial, fun _ _ => trivial, trivial⟩
  have hfresh : Fresh freshRelay := ⟨fun _ => rfl, by decide, fun _ => rfl, rfl⟩
  have h := run_terminalContract (fun _ => ∅) cancelledRun freshRelay hfresh hadm "0xc1".toList
  have hst : taskStatusOf (run RelayOp.exec cancelledRun freshRelay).world.db "0xc1".toList =
      some .endAborted := by decide +kernel
  obtain ⟨t, ht, hend⟩ := map_eq_some_iff.1 hst
  exact ⟨h.1, t, ht, hend, h.2 t ht⟩

/-- **rows keep to their course and the log keeps its events**, from every state that the relay reaches
to every later one. -/
theorem run_course (unit : Text → Set Text) (ops ops' : List RelayOp) (s : RelayState) (hs : Fresh s)
    (hops : Along RelayOp.exec (RelayOp.Admissible unit) (ops ++ ops') s) :
    Evolution (run RelayOp.exec ops s).world.db (run RelayOp.exec (ops ++ ops') s).world.db ∧
      logOf (run RelayOp.exec ops s).world.db <+:
        logOf (run RelayOp.exec (ops ++ ops') s).world.db := by
  obtain ⟨hfirst, hrest⟩ := hops.of_append
  have hinv : RelayInv unit (run RelayOp.exec ops s) :=
    run_invariant (fun s op h hadm => step_relayInv h hadm) ops s hfirst hs.relayInv
  obtain ⟨-, -, hev, ds, hds⟩ := run_taskStep hinv hrest
  rw [run_append]
  exact ⟨hev, ds, hds.symm⟩

theorem run_course_at_cancelled :
    taskStatusOf (run RelayOp.exec (cancelledRun.take 1) freshRelay).world.db "0xc1".toList =
        some .queued ∧
      Evolution (run RelayOp.exec (cancelledRun.take 1) freshRelay).world.db
        (run RelayOp.exec cancelledRun freshRelay).world.db := by
  refine ⟨by decide +kernel, ?_⟩
  exact (run_course (fun _ => ∅) (cancelledRun.take 1) (cancelledRun.drop 1) freshRelay
    ⟨fun _ => rfl, by decide, fun _ => rfl, rfl⟩ ⟨trivial, trivial, fun _ _ => trivial, trivial⟩).1

end CrynuxRelay
