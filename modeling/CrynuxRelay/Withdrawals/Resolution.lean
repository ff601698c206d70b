import CrynuxRelay.Accounts.Reasons
import CrynuxRelay.Base.Run
import CrynuxRelay.Model.Withdraw

/-!
# Concurrent resolutions of a withdrawal

A resolution reads the record without a lock and then writes from what it has read, so the calls of
one record can interleave between the read and the write.

* `fulfillWithdrawRecord_ok`, `rejectWithdrawRecord_ok` -- the effects of the two writes;
* `ResolutionState`, `ResolutionStep` -- the calls in flight, with the record each one has read;
* `exec_read_write` -- a read directly followed by its write is one call of the service;
* `run_exclusive` -- in every run in which no call that read a pending record writes after a call
  of the other kind has committed, each record is resolved one way only.
-/

namespace CrynuxRelay

open List Option Table Tx

variable {id : Nat} {r : WithdrawRecord} {w w' : World} {s : ResolutionState}
    {st st₀ : WithdrawStatus} {db db' : Db} {call : WithdrawCall}

/-! ## the writes -/

def feeIncomeDraft (env : Env) (r : WithdrawRecord) : EventDraft :=
  ⟨.withdrawFeeIncome, reason2 .withdrawFeeIncome (Text.decimal r.id), env.withdrawalFeeAddress,
    r.withdrawalFee⟩

def withdrawRefundDraft (r : WithdrawRecord) : EventDraft :=
  ⟨.withdrawRefund, reason2 .withdrawRefund (Text.decimal r.id), r.address,
    r.amount + r.withdrawalFee⟩

lemma fulfilled_id (txHash : Text) (r : WithdrawRecord) :
    ({ r with status := .success, txHash := some txHash } : WithdrawRecord).id = r.id := rfl

lemma rejected_id (r : WithdrawRecord) : ({ r with status := .failed } : WithdrawRecord).id = r.id :=
  rfl

def markFulfilled (id : Nat) (txHash : Text) (w : World) : World :=
  ⟨{ w.db with
      withdrawRecords := w.db.withdrawRecords.modify id
        (fun r => { r with status := .success, txHash := some txHash }) (fulfilled_id txHash) }, w.mem⟩

def markRejected (id : Nat) (w : World) : World :=
  ⟨{ w.db with
      withdrawRecords := w.db.withdrawRecords.modify id
        (fun r => { r with status := .failed }) rejected_id }, w.mem⟩

lemma ok_getWithdrawRecord :
    Ok (getWithdrawRecord id) w r w' ↔ w.db.withdrawRecords.get id = some r ∧ w' = w := by
  rw [getWithdrawRecord, ok_getDb_bind, ok_orFail]

/-- **a fulfilment** does nothing to a fulfilled record; else it marks the row and pays the fee. -/
theorem fulfillWithdrawRecord_ok {env : Env} {txHash : Text} {u : Unit}
    (h : Ok (fulfillWithdrawRecord env r txHash) w u w') : (r.status = .success ∧ w' = w) ∨
      (r.status = .pending ∧ r.localStatus = .processed ∧
        ((0 < r.withdrawalFee ∧ ¬ Recorded w.db (feeIncomeDraft env r).reason ∧
            w' = credit (feeIncomeDraft env r) (markFulfilled r.id txHash w)) ∨
          (r.withdrawalFee ≤ 0 ∧ w' = markFulfilled r.id txHash w))) := by
  rcases ok_when.1 h with ⟨-, h⟩ | ⟨hst, rfl⟩
  · rw [ok_require_bind, ok_require_bind, updateWithdrawRecord, ok_modifyDb_bind, ok_when] at h
    obtain ⟨hlocal, hpending, h⟩ := h
    refine .inr ⟨hpending, hlocal, ?_⟩
    rcases h with ⟨hfee, h⟩ | ⟨hfee, h⟩
    · obtain ⟨hr, hw⟩ := (ok_credit (d := feeIncomeDraft env r)).1 h
      exact .inl ⟨of_decide_eq_true hfee, not_recorded_iff.1 hr, hw⟩
    · exact .inr ⟨Int.not_lt.1 (of_decide_eq_false hfee), h⟩
  · exact .inl ⟨Decidable.not_not.1 (of_decide_eq_false hst), rfl⟩

/-- **a rejection** does nothing to a rejected record; else it marks the row and refunds. -/
theorem rejectWithdrawRecord_ok {u : Unit} (h : Ok (rejectWithdrawRecord r) w u w') :
    (r.status = .failed ∧ w' = w) ∨ (r.status = .pending ∧ r.localStatus = .processed ∧
        ¬ Recorded w.db (withdrawRefundDraft r).reason ∧
        w' = credit (withdrawRefundDraft r) (markRejected r.id w)) := by
  rcases ok_when.1 h with ⟨-, h⟩ | ⟨hst, rfl⟩
  · rw [ok_require_bind, ok_require_bind, updateWithdrawRecord, ok_modifyDb_bind] at h
    obtain ⟨hlocal, hpending, h⟩ := h
    obtain ⟨hr, hw⟩ := (ok_credit (d := withdrawRefundDraft r)).1 h
    exact .inr ⟨hpending, hlocal, not_recorded_iff.1 hr, hw⟩
  · exact .inl ⟨Decidable.not_not.1 (of_decide_eq_false hst), rfl⟩

/-! ## calls in flight -/

inductive WithdrawCall
  | fulfill (withdrawID : Nat) (txHash : Text)
  | reject (withdrawID : Nat)

namespace WithdrawCall

def withdrawID : WithdrawCall → Nat
  | fulfill id _ => id
  | reject id => id

def outcome : WithdrawCall → WithdrawStatus
  | fulfill _ _ => .success
  | reject _ => .failed

def otherOutcome : WithdrawCall → WithdrawStatus
  | fulfill _ _ => .failed
  | reject _ => .success

def tx (env : Env) : WithdrawCall → Relay Unit
  | fulfill id txHash => fulfillWithdraw env id txHash
  | reject id => rejectWithdraw id

def write (env : Env) (record : WithdrawRecord) : WithdrawCall → Relay Unit
  | fulfill _ txHash => transaction (fulfillWithdrawRecord env record txHash)
  | reject _ => transaction (rejectWithdrawRecord record)

end WithdrawCall

/-- the service with its open resolutions; `fulfilled` lists the ids that `FulfillWithdraw` has
reported without an error. -/
structure ResolutionState where
  world : World
  inFlight : List (WithdrawCall × WithdrawRecord) := []
  fulfilled : List Nat := []

inductive ResolutionStep
  | read (call : WithdrawCall)
  | write (i : Nat)

namespace ResolutionStep

/-- a read that finds no record ends its call; a write ends its call with or without an error. -/
def exec (env : Env) : ResolutionStep → ResolutionState → ResolutionState
  | read call, s =>
    match s.world.db.withdrawRecords.get call.withdrawID with
    | some record => { s with inFlight := s.inFlight ++ [(call, record)] }
    | none => s
  | write i, s =>
    match s.inFlight[i]? with
    | some (call, record) =>
      { world := after (call.write env record) s.world
        inFlight := s.inFlight.eraseIdx i
        fulfilled :=
          if call.outcome = .success ∧ (call.write env record s.world).1.isOk then
            call.withdrawID :: s.fulfilled
          else s.fulfilled }
    | none => s

end ResolutionStep

/-- **the split is the call**: a read directly followed by its write is one call of the service. -/
theorem exec_read_write (env : Env) (call : WithdrawCall) (w : World) (ids : List Nat) :
    (run (ResolutionStep.exec env) [.read call, .write 0] ⟨w, [], ids⟩).world =
      after (call.tx env) w := by
  have hread : getWithdrawRecord call.withdrawID w =
      Tx.orFail (w.db.withdrawRecords.get call.withdrawID) .recordNotFound w := rfl
  have hbind : ∀ k : WithdrawRecord → Relay Unit,
      after (transaction (getWithdrawRecord call.withdrawID >>= k)) w =
        match w.db.withdrawRecords.get call.withdrawID with
        | some r => after (transaction (k r)) w
        | none => w := by
    intro k
    show (transaction (Tx.andThen (getWithdrawRecord call.withdrawID) k) w).2 = _
    rw [transaction, Tx.andThen, hread]
    cases w.db.withdrawRecords.get call.withdrawID with
    | none => rfl
    | some r => rfl
  have htx : after (call.tx env) w = match w.db.withdrawRecords.get call.withdrawID with
      | some r => after (call.write env r) w
      | none => w := by
    cases call with
    | fulfill id txHash => exact hbind fun r => fulfillWithdrawRecord env r txHash
    | reject id => exact hbind rejectWithdrawRecord
  rw [htx, run_cons, run_cons, run_nil, ResolutionStep.exec]
  cases w.db.withdrawRecords.get call.withdrawID with
  | none => rfl
  | some r => rfl

/-! ## one resolution for each record -/

def FeeIncomeRecorded (db : Db) (id : Nat) : Prop :=
  Recorded db (reason2 .withdrawFeeIncome (Text.decimal id))

def RefundRecorded (db : Db) (id : Nat) : Prop :=
  Recorded db (reason2 .withdrawRefund (Text.decimal id))

def withdrawStatusOf (db : Db) (id : Nat) : Option WithdrawStatus :=
  (db.withdrawRecords.get id).map (·.status)

/-- withdrawal `id` is resolved one way only. -/
structure Exclusive (s : ResolutionState) (id : Nat) : Prop where
  one_event : ¬ (FeeIncomeRecorded s.world.db id ∧ RefundRecorded s.world.db id)
  refunded : RefundRecorded s.world.db id → withdrawStatusOf s.world.db id ≠ some .success
  fulfilled : id ∈ s.fulfilled → withdrawStatusOf s.world.db id ≠ some .failed

/-- the events of the resolutions agree with the statuses of the records. -/
structure Resolved (db : Db) : Prop where
  income : ∀ id, FeeIncomeRecorded db id → withdrawStatusOf db id = some .success
  refund : ∀ id, RefundRecorded db id → withdrawStatusOf db id = some .failed

/-- no call of the other kind has committed since the call read its record as pending. -/
def NotOvertaken (s : ResolutionState) : ResolutionStep → Prop
  | .read _ => True
  | .write i => ∀ call r, s.inFlight[i]? = some (call, r) → r.status = .pending →
      withdrawStatusOf s.world.db r.id ≠ some call.otherOutcome

/-- the invariant: the events and the reports agree with the rows, and a record that was read as
resolved has kept its status. -/
structure ResolutionInv (s : ResolutionState) : Prop where
  resolved : Resolved s.world.db
  fulfilled : ∀ id ∈ s.fulfilled, withdrawStatusOf s.world.db id = some .success
  snapshot_id : ∀ c ∈ s.inFlight, c.2.id = c.1.withdrawID
  snapshot_status : ∀ c ∈ s.inFlight, ∃ st, withdrawStatusOf s.world.db c.2.id = some st ∧
    (c.2.status ≠ .pending → st = c.2.status)

lemma ResolutionInv.exclusive (h : ResolutionInv s) (id : Nat) : Exclusive s id where
  one_event := by
    rintro ⟨hi, hr⟩
    have := h.resolved.income id hi
    rw [h.resolved.refund id hr] at this
    cases this
  refunded := fun hr => by
    rw [h.resolved.refund id hr]
    decide
  fulfilled := fun hf => by
    rw [h.fulfilled id hf]
    decide

/-! ## the step -/

/-- the record gets the status `st`, and no event is new but the one of that status. -/
structure ResolvesTo (id : Nat) (st : WithdrawStatus) (db db' : Db) : Prop where
  status : ∀ j, withdrawStatusOf db' j =
    if j = id then (withdrawStatusOf db id).map fun _ => st else withdrawStatusOf db j
  income : ∀ j, FeeIncomeRecorded db' j → FeeIncomeRecorded db j ∨ (j = id ∧ st = .success)
  refund : ∀ j, RefundRecorded db' j → RefundRecorded db j ∨ (j = id ∧ st = .failed)

lemma withdrawStatusOf_modify (db : Db) (id : Nat) (f : WithdrawRecord → WithdrawRecord)
    (hf : ∀ r, (f r).id = r.id) (hst : ∀ r, (f r).status = st) (j : Nat) :
    ((db.withdrawRecords.modify id f hf).get j).map (·.status) =
      if j = id then (withdrawStatusOf db id).map fun _ => st else withdrawStatusOf db j := by
  rw [get_modify, withdrawStatusOf]
  split
  · rw [Option.map_map, Option.map_map]
    exact congrArg (fun g => Option.map g _) (funext hst)
  · rfl

lemma resolvesTo_markFulfilled (id : Nat) (txHash : Text) (w : World) :
    ResolvesTo id .success w.db (markFulfilled id txHash w).db :=
  ⟨withdrawStatusOf_modify w.db id _ (by intro r; rfl) (by intro r; rfl), fun _ => .inl,
    fun _ => .inl⟩

lemma resolvesTo_markRejected (id : Nat) (w : World) :
    ResolvesTo id .failed w.db (markRejected id w).db :=
  ⟨withdrawStatusOf_modify w.db id _ (by intro r; rfl) (by intro r; rfl), fun _ => .inl,
    fun _ => .inl⟩

def WithdrawStatus.eventType : WithdrawStatus → RelayAccountEventType
  | .pending => .withdraw
  | .success => .withdrawFeeIncome
  | .failed => .withdrawRefund

lemma ResolvesTo.credit {d : EventDraft} (h : ResolvesTo id st db w.db)
    (hd : d.reason = reason2 st.eventType (Text.decimal id)) (hr : ¬ Recorded w.db d.reason) :
    ResolvesTo id st db (CrynuxRelay.credit d w).db := by
  have hnew : ∀ {t : RelayAccountEventType} {j : Nat},
      Recorded (CrynuxRelay.credit d w).db (reason2 t (Text.decimal j)) →
        Recorded w.db (reason2 t (Text.decimal j)) ∨ (st.eventType = t ∧ id = j) := by
    intro t j hj
    have happ := appends_appendEvent (not_recorded_iff.2 hr)
    rcases (happ.recorded_iff _).1 hj with hj | ⟨d', hd', hj⟩
    · exact .inl hj
    · rw [mem_singleton.1 hd', hd] at hj
      exact .inr (reason2_decimal_inj.1 hj)
  refine ⟨h.status, ?_, ?_⟩
  · intro j hj
    rcases hnew hj with hj | ⟨ht, rfl⟩
    · exact h.income j hj
    · refine .inr ⟨rfl, ?_⟩
      cases st <;> first | rfl | cases ht
  · intro j hj
    rcases hnew hj with hj | ⟨ht, rfl⟩
    · exact h.refund j hj
    · refine .inr ⟨rfl, ?_⟩
      cases st <;> first | rfl | cases ht

/-- what a write does: nothing, or the resolution of a record it has read as pending. -/
lemma WithdrawCall.write_cases (env : Env) (call : WithdrawCall) (r : WithdrawRecord) (w : World) :
    ((after (call.write env r) w).db = w.db ∧
        ((call.write env r w).1.isOk = true → r.status = call.outcome)) ∨
      (r.status = .pending ∧ ResolvesTo r.id call.outcome w.db
        (after (call.write env r) w).db) := by
  rcases ok_or_fails (call.write env r) w with ⟨u, h⟩ | ⟨e, h⟩
  · cases call with
    | fulfill id txHash =>
      rcases fulfillWithdrawRecord_ok (ok_transaction.1 h) with ⟨hst, hw⟩ | ⟨hst, -, hw⟩
      · exact .inl ⟨congrArg Sys.db hw, fun _ => hst⟩
      · rcases hw with ⟨-, hr, hw⟩ | ⟨-, hw⟩
        · rw [hw]
          exact .inr ⟨hst, (resolvesTo_markFulfilled r.id txHash w).credit rfl hr⟩
        · rw [hw]
          exact .inr ⟨hst, resolvesTo_markFulfilled r.id txHash w⟩
    | reject id =>
      rcases rejectWithdrawRecord_ok (ok_transaction.1 h) with ⟨hst, hw⟩ | ⟨hst, -, hr, hw⟩
      · exact .inl ⟨congrArg Sys.db hw, fun _ => hst⟩
      · rw [hw]
        exact .inr ⟨hst, (resolvesTo_markRejected r.id w).credit rfl hr⟩
  · refine .inl ⟨?_, ?_⟩
    · cases call with
      | _ => exact atomic_transaction _ _ _ _ h
    · intro hok
      rw [h] at hok
      cases hok

lemma ResolvesTo.status_self (h : ResolvesTo id st db db')
    (h0 : withdrawStatusOf db id = some st₀) : withdrawStatusOf db' id = some st := by
  rw [h.status, if_pos rfl, h0]
  rfl

/-- a status that is not pending is kept. -/
lemma ResolvesTo.keeps {j : Nat} {st₁ : WithdrawStatus} (h : ResolvesTo id st db db')
    (h0 : withdrawStatusOf db id = some st₀) (hst : st₀ ≠ .pending → st₀ = st)
    (h1 : withdrawStatusOf db j = some st₁) (hne : st₁ ≠ .pending) :
    withdrawStatusOf db' j = some st₁ := by
  by_cases hj : j = id
  · subst hj
    rw [h1, some.injEq] at h0
    subst h0
    rw [hst hne]
    exact h.status_self h1
  · rw [h.status, if_neg hj, h1]

lemma ResolvesTo.resolved (h : ResolvesTo id st db db') (hdb : Resolved db)
    (h0 : withdrawStatusOf db id = some st₀) (hst : st₀ ≠ .pending → st₀ = st) : Resolved db' := by
  refine ⟨?_, ?_⟩
  · intro j hj
    rcases h.income j hj with hj | ⟨rfl, rfl⟩
    · exact h.keeps h0 hst (hdb.income j hj) nofun
    · exact h.status_self h0
  · intro j hj
    rcases h.refund j hj with hj | ⟨rfl, rfl⟩
    · exact h.keeps h0 hst (hdb.refund j hj) nofun
    · exact h.status_self h0

lemma WithdrawCall.eq_outcome (h : st ≠ call.otherOutcome) (hp : st ≠ .pending) :
    st = call.outcome := by
  cases call <;> cases st <;> first | rfl | exact absurd rfl h | exact absurd rfl hp

/-- the invariant depends on the rows only through the statuses of the resolved records. -/
lemma ResolutionInv.of_keeps {s' : ResolutionState} (h : ResolutionInv s)
    (hres : Resolved s'.world.db) (hcalls : ∀ c ∈ s'.inFlight, c ∈ s.inFlight)
    (hkeep : ∀ j st, withdrawStatusOf s.world.db j = some st →
      ∃ st', withdrawStatusOf s'.world.db j = some st' ∧ (st ≠ .pending → st' = st))
    (hreport : ∀ id ∈ s'.fulfilled,
      id ∈ s.fulfilled ∨ withdrawStatusOf s'.world.db id = some .success) : ResolutionInv s' := by
  refine ⟨hres, ?_, fun c hc => h.snapshot_id c (hcalls c hc), ?_⟩
  · intro id hid
    rcases hreport id hid with hid | hid
    · obtain ⟨st', hst', he⟩ := hkeep id _ (h.fulfilled id hid)
      rw [hst', he (by decide)]
    · exact hid
  · intro c hc
    obtain ⟨st, hst, hsnap⟩ := h.snapshot_status c (hcalls c hc)
    obtain ⟨st', hst', he⟩ := hkeep _ _ hst
    refine ⟨st', hst', ?_⟩
    intro hp
    rw [← hsnap hp]
    exact he (by rw [hsnap hp]; exact hp)

lemma ResolutionInv.read (h : ResolutionInv s)
    (hget : s.world.db.withdrawRecords.get call.withdrawID = some r) :
    ResolutionInv { s with inFlight := s.inFlight ++ [(call, r)] } := by
  have hid : r.id = call.withdrawID := key_of_get hget
  refine ⟨h.resolved, h.fulfilled, ?_, ?_⟩
  · intro c hc
    rcases mem_append.1 hc with hc | hc
    · exact h.snapshot_id c hc
    · rwa [mem_singleton.1 hc]
  · intro c hc
    rcases mem_append.1 hc with hc | hc
    · exact h.snapshot_status c hc
    · rw [mem_singleton.1 hc]
      refine ⟨r.status, ?_, fun _ => rfl⟩
      rw [withdrawStatusOf, hid, hget]
      rfl

/-- a write that is not overtaken keeps every status but the pending one of its record, and leaves
the record with its own outcome if it succeeds. -/
lemma WithdrawCall.write_keeps (env : Env) (hdb : Resolved w.db)
    (h0 : withdrawStatusOf w.db r.id = some st₀) (hsnap : r.status ≠ .pending → st₀ = r.status)
    (hnot : r.status = .pending → st₀ ≠ call.otherOutcome) :
    Resolved (after (call.write env r) w).db ∧ (∀ j st, withdrawStatusOf w.db j = some st →
        ∃ st', withdrawStatusOf (after (call.write env r) w).db j = some st' ∧
          (st ≠ .pending → st' = st)) ∧ ((call.write env r w).1.isOk = true →
        withdrawStatusOf (after (call.write env r) w).db r.id = some call.outcome) := by
  rcases call.write_cases env r w with ⟨hsame, hok⟩ | ⟨hst, hto⟩
  · rw [hsame]
    refine ⟨hdb, fun j st hj => ⟨st, hj, fun _ => rfl⟩, ?_⟩
    intro h
    rw [h0, hsnap (by rw [hok h]; cases call <;> exact nofun), hok h]
  · have hst0 : st₀ ≠ .pending → st₀ = call.outcome := WithdrawCall.eq_outcome (hnot hst)
    refine ⟨hto.resolved hdb h0 hst0, ?_, fun _ => hto.status_self h0⟩
    intro j st hj
    by_cases hjr : j = r.id
    · subst hjr
      rw [h0, some.injEq] at hj
      subst hj
      exact ⟨_, hto.status_self h0, fun hp => (hst0 hp).symm⟩
    · exact ⟨st, by rw [hto.status, if_neg hjr, hj], fun _ => rfl⟩

/-- **one step keeps the invariant**, when no call is overtaken. -/
theorem ResolutionStep.exec_inv (env : Env) (s : ResolutionState) (step : ResolutionStep)
    (h : ResolutionInv s) (hs : NotOvertaken s step) : ResolutionInv (step.exec env s) := by
  cases step with
  | read call =>
    rw [ResolutionStep.exec]
    cases hget : s.world.db.withdrawRecords.get call.withdrawID with
    | none => exact h
    | some r => exact h.read hget
  | write i =>
    rw [ResolutionStep.exec]
    cases hget : s.inFlight[i]? with
    | none => exact h
    | some c =>
      obtain ⟨call, r⟩ := c
      have hmem : (call, r) ∈ s.inFlight := mem_of_getElem? hget
      obtain ⟨st₀, h0, hsnap⟩ := h.snapshot_status _ hmem
      have hnot : r.status = .pending → st₀ ≠ call.otherOutcome := by
        intro hst e
        exact hs call r hget hst (by rw [h0, e])
      obtain ⟨hres, hkeep, hok⟩ := WithdrawCall.write_keeps env h.resolved h0 hsnap hnot
      refine h.of_keeps hres (fun c hc => (eraseIdx_sublist s.inFlight i).subset hc) hkeep ?_
      intro id hid
      dsimp only at hid
      split at hid
      · next hnew =>
        rcases mem_cons.1 hid with rfl | hid
        · rw [← h.snapshot_id _ hmem, ← hnew.1]
          exact .inr (hok hnew.2)
        · exact .inl hid
      · exact .inl hid

/-! ## runs -/

/-- **Resolution is exclusive** in every run in which no call that has read its record as pending
writes after a call of the other kind has resolved the record. -/
theorem run_exclusive (env : Env) (w : World) (hw : Resolved w.db) (steps : List ResolutionStep)
    (hsteps : Along (ResolutionStep.exec env) NotOvertaken steps ⟨w, [], []⟩) (id : Nat) :
    Exclusive (run (ResolutionStep.exec env) steps ⟨w, [], []⟩) id := by
  have hinit : ResolutionInv ⟨w, [], []⟩ :=
    ⟨hw, nofun, nofun, nofun⟩
  exact (run_invariant (ResolutionStep.exec_inv env) steps _ hsteps hinit).exclusive id

/-- a charged withdrawal of nine with a fee of one, ready to be resolved. -/
def pendingWithdrawal : World :=
  ⟨{ withdrawRecords := Table.empty.insert
      { id := 1, address := "0xa1".toList, amount := 9, localStatus := .processed,
        withdrawalFee := 1 } }, {}⟩

def fulfillCall : WithdrawCall := .fulfill 1 "0xf1".toList

lemma resolved_pendingWithdrawal : Resolved pendingWithdrawal.db :=
  ⟨fun _ h => absurd h Bool.false_ne_true, fun _ h => absurd h Bool.false_ne_true⟩

theorem run_exclusive_at_pendingWithdrawal :
    Exclusive (run (ResolutionStep.exec {}) [.read fulfillCall, .write 0, .read (.reject 1), .write 0]
      ⟨pendingWithdrawal, [], []⟩) 1 := by
  refine run_exclusive {} pendingWithdrawal resolved_pendingWithdrawal _ ?_ 1
  refine ⟨trivial, ?_, trivial, ?_, trivial⟩
  · intro call r hget hst
    cases hget
    decide
  · intro call r hget hst
    cases hget
    cases hst

/-- both calls read the pending record; the fulfilment commits and is reported, and then the
rejection refunds the record and marks it failed. -/
theorem fulfilled_withdrawal_refunded :
    Resolved pendingWithdrawal.db ∧
      (let s := run (ResolutionStep.exec {})
        [.read fulfillCall, .read (.reject 1), .write 0, .write 0] ⟨pendingWithdrawal, [], []⟩
      FeeIncomeRecorded s.world.db 1 ∧ RefundRecorded s.world.db 1 ∧ 1 ∈ s.fulfilled ∧
        withdrawStatusOf s.world.db 1 = some .failed ∧ ¬ Exclusive s 1) := by
  refine ⟨resolved_pendingWithdrawal, ?_⟩
  intro s
  have hincome : FeeIncomeRecorded s.world.db 1 := by rfl
  have hrefund : RefundRecorded s.world.db 1 := by rfl
  exact ⟨hincome, hrefund, mem_cons_self, rfl, fun h => h.one_event ⟨hincome, hrefund⟩⟩

end CrynuxRelay
