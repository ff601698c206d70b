import CrynuxRelay.Accounts.Posting
import CrynuxRelay.Accounts.Restart
import CrynuxRelay.Model.Create

/-!
# What a creation request does to the balance of its creator

* `createTask_ok` -- the effect of a creation: one row, one payment event, one decrement;
* `Accepted` -- a creation request that the service accepts, single or in a batch;
* `accepted_noCredit_iff` -- an accepted request does not credit its creator exactly when the
  decoded fee is not negative; the decoder and the handlers take any sign.
-/

namespace CrynuxRelay

open List Tx

variable {task : InferenceTask} {input : TaskInput}
  {env : Env} {w w' : World} {api : TaskApi} {address : Text}

/-! ## creation -/

def createdTask (env : Env) (db : Db) (task : InferenceTask) : InferenceTask :=
  { task.withQueueDeadline env with id := db.tasks.keys.length + 1 }

def paymentDraft (task : InferenceTask) : EventDraft :=
  ⟨.taskPayment, reason2 .taskPayment task.taskIDCommitment, task.creator, task.taskFee⟩

def afterCreate (env : Env) (task : InferenceTask) (w : World) : World :=
  addPosting ⟨task.creator, -task.taskFee⟩ (appendEvent (paymentDraft task)
    ⟨{ w.db with tasks := w.db.tasks.insert (createdTask env w.db task) },
      (loadAccount task.creator w).mem⟩)

lemma createTask_ok (h : Ok (createTask env task) w () w') :
    task.taskFee ≤ cachedBalance w task.creator ∧ w.db.tasks.get task.taskIDCommitment = none ∧
      w.db.relayAccountEvents.reasonTaken (paymentDraft task).reason = false ∧
      w' = afterCreate env task w := by
  unfold createTask at h
  split at h
  · exact absurd h ok_fail
  rw [ok_require_bind, ok_bind] at h
  obtain ⟨-, b, w1, hload, h⟩ := h
  obtain ⟨rfl, rfl⟩ := ok_getRelayAccountFromCache.1 hload
  rw [ok_require_bind, ok_bind] at h
  obtain ⟨hb, u, w2, htx, h⟩ := h
  rw [ok_transaction, ok_getDb_bind, ok_require_bind, ok_modifyDb_bind] at htx
  obtain ⟨hr, rfl⟩ := (ok_createRelayAccountEvent (d := paymentDraft task)).1 htx.2
  rw [ok_addToCache] at h
  exact ⟨hb, htx.1, hr, h⟩

lemma posts_afterCreate
    (hr : w.db.relayAccountEvents.reasonTaken (paymentDraft task).reason = false) :
    Posts [paymentDraft task] w (afterCreate env task w) where
  appends := ⟨_, w.db.relayAccountEvents.rows_append hr, rfl, by simp⟩
  accounts := rfl
  cached := fun a => by
    have hl : Loaded (appendEvent (paymentDraft task)
        ⟨{ w.db with tasks := w.db.tasks.insert (createdTask env w.db task) },
          (loadAccount task.creator w).mem⟩) task.creator :=
      loaded_loadAccount (w := w).2 (.inl rfl)
    rw [afterCreate, cachedBalance_addPosting hl]
    exact congrArg (· + _) (cachedBalance_loadAccount task.creator w a)
  keeps_loaded := fun a ha => loaded_addPosting.2 (.inr (loaded_loadAccount (w := w).2 (.inr ha)))
  loads := fun d hd => by
    rw [mem_singleton.1 hd]
    exact loaded_addPosting.2 (.inl rfl)

/-! ## accepted requests -/

/-- the request is accepted in state `w`, alone or as an item of a batch, and leads to `w'`. -/
inductive Accepted (env : Env) (api : TaskApi) (input : TaskInput) (address : Text)
    (w w' : World) : Prop
  | single (h : Ok (createTaskRequest env api input address) w () w')
  | batchItem (h : Ok (createBatchItem env api input address) w .created w')

lemma ok_liftExcept {α : Type} {x : Except Err α} {a : α} :
    Ok (liftExcept x) w a w' ↔ x = .ok a ∧ w' = w := by
  cases x with
  | ok b =>
    rw [liftExcept, ok_pure, Except.ok.injEq, eq_comm]
  | error e => simp [liftExcept]

lemma existingOutcome_ne_created (t t' : InferenceTask) : existingOutcome t t' ≠ .created := by
  rw [existingOutcome]
  split <;> simp

lemma prepareBatchTask_fee {t : InferenceTask} (h : prepareBatchTask env api input address = .ok t) :
    unmarshalBigInt input.taskFee = some t.taskFee ∧ t.creator = address := by
  unfold prepareBatchTask at h
  cases hf : unmarshalBigInt input.taskFee with
  | none => rw [hf] at h; cases h
  | some fee =>
    rw [hf] at h
    simp only [bind, Except.bind, pure, Except.pure] at h
    iterate 6
      split at h
      · cases h
    cases h
    exact ⟨rfl, rfl⟩

/-- both requests end in one `CreateTask` with the decoded fee and the signer as creator. -/
lemma Accepted.createTask (h : Accepted env api input address w w') :
    ∃ task, Ok (CrynuxRelay.createTask env task) w () w' ∧ task.creator = address ∧
      unmarshalBigInt input.taskFee = some task.taskFee := by
  cases h with
  | single h =>
    simp only [createTaskRequest, ok_bind, ok_orFail, ok_require, ok_liftExcept,
      ok_getDb, ok_mapErr] at h
    obtain ⟨fee, _, ⟨hfee, rfl⟩, _, _, hallow, _, _, ⟨-, rfl⟩, _, _, ⟨-, rfl⟩, _, _, ⟨-, rfl⟩, _, _,
      ⟨-, rfl⟩, _, _, ⟨-, rfl⟩, _, _, ⟨-, rfl⟩, _, _, ⟨-, rfl⟩, _, _, ⟨-, rfl⟩, h⟩ := h
    rcases ok_when.1 hallow with ⟨-, hallow⟩ | ⟨-, rfl⟩
    · simp only [ok_bind, ok_liftExcept, ok_require] at hallow
      obtain ⟨_, _, ⟨-, rfl⟩, -, rfl⟩ := hallow
      exact ⟨_, h, rfl, hfee⟩
    · exact ⟨_, h, rfl, hfee⟩
  | batchItem h =>
    unfold createBatchItem at h
    split at h
    · exact absurd (ok_pure.1 h).1 (by simp)
    · next candidate hc =>
      obtain ⟨hfee, hcreator⟩ := prepareBatchTask_fee hc
      simp only [ok_bind, ok_getDb] at h
      obtain ⟨_, _, ⟨rfl, rfl⟩, h⟩ := h
      split at h
      · exact absurd (ok_pure.1 h).1.symm (existingOutcome_ne_created _ _)
      · split at h
        · refine absurd (ok_pure.1 h).1 ?_
          split <;> simp
        · simp only [ok_bind] at h
          obtain ⟨r, w1, hr, h⟩ := h
          split at h
          · obtain ⟨-, rfl⟩ := ok_pure.1 h
            exact ⟨_, ok_attempt_ok.1 hr, hcreator, hfee⟩
          · simp only [ok_bind, ok_getDb] at h
            obtain ⟨_, _, ⟨rfl, rfl⟩, h⟩ := h
            split at h
            · exact absurd (ok_pure.1 h).1.symm (existingOutcome_ne_created _ _)
            · refine absurd (ok_pure.1 h).1 ?_
              split <;> simp

/-! ## no credit -/

/-- neither the cached nor the projected balance of the account of `e` grows: not when the request
leads from `w` to `w'`, not when the projector then processes `e`. -/
def NoCredit (w w' : World) (e : RelayAccountEvent) : Prop :=
  cachedBalance w' e.address ≤ cachedBalance w e.address ∧
    projectedBalance w'.db e.address ≤ projectedBalance w.db e.address ∧
    ∀ chain, projectedBalance
      (after (processPendingRelayAccountEvents chain [e]) w').db e.address ≤
        projectedBalance w'.db e.address

lemma projected_single_debit (chain : Chain) (w : World) {e : RelayAccountEvent}
    (hd : e.type.isDebit = true) (ha : 0 ≤ e.amount) :
    projectedBalance (after (processPendingRelayAccountEvents chain [e]) w).db e.address ≤
      projectedBalance w.db e.address := by
  obtain ⟨valid, hsub, hproj⟩ := processPending_projected chain [e] w
  rw [hproj]
  rcases sublist_singleton.1 hsub with rfl | rfl
  · rw [map_nil, total_nil, add_zero]
  · have hs : e.posting.amount = -e.amount := by
      show e.signed = _
      rw [RelayAccountEvent.signed, if_pos hd]
    have hp : e.posting.account = e.address := rfl
    rw [map_singleton, total_cons, total_nil, if_pos hp, hs]
    omega

/-- **Creation.**  Every accepted request, single or in a batch and from any state, stores one
payment event of the creator with the decoded fee as amount, and does not credit the creator
exactly when that fee is not negative. -/
theorem accepted_noCredit_iff {env : Env} {api : TaskApi} {input : TaskInput} {address : Text}
    {w w' : World} (h : Accepted env api input address w w') :
    ∃ fee e, unmarshalBigInt input.taskFee = some fee ∧
      w'.db.relayAccountEvents.rows = w.db.relayAccountEvents.rows ++ [e] ∧
      e.type = .taskPayment ∧ e.address = address ∧ e.amount = fee ∧
      (NoCredit w w' e ↔ 0 ≤ fee) := by
  obtain ⟨task, hok, rfl, hfee⟩ := h.createTask
  obtain ⟨-, -, hr, rfl⟩ := createTask_ok hok
  have hposts : Posts [paymentDraft task] w (afterCreate env task w) := posts_afterCreate hr
  refine ⟨task.taskFee, _, hfee, w.db.relayAccountEvents.rows_append hr, rfl, rfl, rfl, ?_⟩
  have hcached : cachedBalance (afterCreate env task w) task.creator =
      cachedBalance w task.creator - task.taskFee := by
    have hp : (paymentDraft task).posting = ⟨task.creator, -task.taskFee⟩ := rfl
    rw [hposts.cached, map_singleton, hp, total_cons, total_nil, if_pos rfl, add_zero]
    exact (sub_eq_add_neg _ _).symm
  constructor
  · intro hno
    have hle : cachedBalance (afterCreate env task w) task.creator ≤
        cachedBalance w task.creator := hno.1
    omega
  · intro hpos
    refine ⟨?_, ?_, fun chain => projected_single_debit chain _ rfl hpos⟩
    · show cachedBalance (afterCreate env task w) task.creator ≤ cachedBalance w task.creator
      omega
    · exact le_rfl

/-! ## a negative fee -/

def requestWithFee (fee : Text) : TaskInput where
  taskIDCommitment := "0xc1".toList
  taskArgs := "args".toList
  taskType := .sd
  nonce := "0x01".toList
  minVram := some 8
  requiredGPU := none
  requiredGPUVram := none
  taskFee := fee
  timeout := 0
  queueTimeout := none

def afterRequest (fee : Int) (w : World) : World :=
  after (createTaskRequest {} {} (requestWithFee (Text.ofInt fee)) "0xa1".toList) w

def fundedCreator : World := ⟨{ relayAccounts := fun a => if a = "0xa1".toList then some 10 else none }, {}⟩

theorem accepted_noCredit_iff_at_funded :
    ∃ e, (afterRequest 3 fundedCreator).db.relayAccountEvents.rows = [e] ∧ e.type = .taskPayment ∧
      e.address = "0xa1".toList ∧ e.amount = 3 ∧ NoCredit fundedCreator (afterRequest 3 fundedCreator) e ∧
      cachedBalance (afterRequest 3 fundedCreator) "0xa1".toList = 7 := by
  have haccepted : Accepted {} {} (requestWithFee (Text.ofInt 3)) "0xa1".toList fundedCreator
      (afterRequest 3 fundedCreator) := .single rfl
  obtain ⟨fee, e, hparsed, hrows, htype, haddress, hamount, hiff⟩ := accepted_noCredit_iff haccepted
  have hfee : unmarshalBigInt (requestWithFee (Text.ofInt 3)).taskFee = some 3 := by decide
  obtain rfl : 3 = fee := Option.some.inj (hfee.symm.trans hparsed)
  exact ⟨e, hrows, htype, haddress, hamount, hiff.2 (by decide), by decide +kernel⟩

/-- a request with fee `-5` is accepted from an empty account: five in the cache at once, and five
in the row after the projection. -/
theorem accepted_credit_of_negative_fee :
    Accepted {} {} (requestWithFee "\"-5\"".toList) "0xa1".toList ⟨{}, {}⟩ (afterRequest (-5) ⟨{}, {}⟩) ∧
      cachedBalance ⟨{}, {}⟩ "0xa1".toList = 0 ∧
      cachedBalance (afterRequest (-5) ⟨{}, {}⟩) "0xa1".toList = 5 ∧
      ∃ e, (afterRequest (-5) ⟨{}, {}⟩).db.relayAccountEvents.rows = [e] ∧ e.amount = -5 ∧
        projectedBalance (afterRequest (-5) ⟨{}, {}⟩).db "0xa1".toList = 0 ∧
        projectedBalance (after (processPendingRelayAccountEvents silentChain [e])
          (afterRequest (-5) ⟨{}, {}⟩)).db "0xa1".toList = 5 :=
  ⟨.single rfl, rfl, rfl, _, rfl, rfl, rfl, rfl⟩

end CrynuxRelay
