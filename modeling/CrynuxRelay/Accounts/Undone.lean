import CrynuxRelay.Model.System
import CrynuxRelay.Tasks.Effects

/-!
# What a failed operation leaves behind

The increments of the cache are the last step of an operation, so a failure can only have loaded
accounts: the database is rolled back, and no balance differs.

* `SameBalances` -- no balance differs, in the middle of a transaction;
* `Undone` -- the database is the same and no balance differs, after a failed operation;
* `AccountSteps` -- the preorders that loads and inserted events keep: one instance for each function on
  accounts;
* one instance of `Tx.KeptOnFail` for each operation that can fail.
-/

namespace CrynuxRelay

open Tx

variable {w w' : World} {α : Type} {x : Relay α} {env : Env} {task : InferenceTask} {node : Node} {id : Nat}
  {ty : RelayAccountEventType} {reason address txHash network : Text} {amount : Int}

/-! ## the relations -/

structure SameBalances (w w' : World) : Prop where
  accounts : w'.db.relayAccounts = w.db.relayAccounts
  cached : ∀ a, cachedBalance w' a = cachedBalance w a
  loaded : ∀ a, Loaded w a → Loaded w' a

structure Undone (w w' : World) : Prop where
  db : w'.db = w.db
  cached : ∀ a, cachedBalance w' a = cachedBalance w a
  loaded : ∀ a, Loaded w a → Loaded w' a

lemma SameBalances.undone (h : SameBalances w w') : Undone w ⟨w.db, w'.mem⟩ where
  db := rfl
  cached := fun a => by
    rw [← h.cached a, cachedBalance, cachedBalance, projectedBalance, projectedBalance, h.accounts]
  loaded := h.loaded

lemma Undone.sameBalances (h : Undone w w') : SameBalances w w' :=
  ⟨by rw [h.db], h.cached, h.loaded⟩

instance : Stable SameBalances where
  refl := fun _ => ⟨rfl, fun _ => rfl, fun _ h => h⟩
  trans := fun _ _ _ h h' => ⟨h'.accounts.trans h.accounts,
    fun a => (h'.cached a).trans (h.cached a), fun a ha => h'.loaded a (h.loaded a ha)⟩
  rollback := fun _ _ h => h.undone.sameBalances

instance : Stable Undone where
  refl := fun _ => ⟨rfl, fun _ => rfl, fun _ h => h⟩
  trans := fun _ _ _ h h' => ⟨h'.db.trans h.db,
    fun a => (h'.cached a).trans (h.cached a), fun a ha => h'.loaded a (h.loaded a ha)⟩
  rollback := fun _ _ h => h.sameBalances.undone

lemma Undone.posts (h : Undone w w') : Posts [] w w' where
  appends := Appends.nil (by rw [h.db])
  accounts := by rw [h.db]
  cached := fun a => by rw [h.cached, List.map_nil, total_nil, add_zero]
  keeps_loaded := h.loaded
  loads := by simp

lemma undone_transaction (h : KeptOnFail SameBalances x) : KeptOnFail Undone (transaction x) :=
  ⟨h.onFail.transaction fun _ _ hs => hs.undone⟩

instance [h : KeptOnFail SameBalances x] : KeptOnFail Undone (transaction x) := undone_transaction h

lemma sameBalances_of_quiet (h : Quiet w w') : SameBalances w w' :=
  ⟨h.accounts, h.cachedBalance, fun a ha => by rw [Loaded, h.cache]; exact ha⟩

instance (priority := low) [h : Kept NodeSide x] : Kept SameBalances x :=
  ⟨h.keeps.mono fun _ _ hs => sameBalances_of_quiet (quiet_of_nodeSide hs)⟩

instance {f : Db → Db} [h : SameAt (fun db => (f db).relayAccounts) (·.relayAccounts)] :
    Kept SameBalances (Tx.modifyDb f : Relay Unit) := by
  refine ⟨fun w => ⟨h.eq w.db, fun a => ?_, fun a ha => ha⟩⟩
  show (w.mem.relayAccountCache a).getD (((f w.db).relayAccounts a).getD 0) = _
  rw [h.eq w.db]
  rfl

instance {a : Text} : Kept Undone (getRelayAccountFromCache a) := by
  refine ⟨keeps_iff.2 ⟨fun w b w' h => ?_, fun w e w' h => absurd h fails_getRelayAccountFromCache⟩⟩
  obtain ⟨-, rfl⟩ := ok_getRelayAccountFromCache.1 h
  exact ⟨rfl, cachedBalance_loadAccount a w, fun b hb => loaded_loadAccount.2 (.inr hb)⟩

instance {a : Text} : Sure (getRelayAccountFromCache a) := ⟨fun _ _ _ => fails_getRelayAccountFromCache⟩

/-! ## accounts -/

/-- a preorder that is kept by the loads of accounts and by the inserted events. -/
class AccountSteps (r : World → World → Prop) : Prop extends Stable r where
  load : ∀ a, Tx.Keeps r (getRelayAccountFromCache a)
  insert : ∀ f : Db → EventLog, Tx.Keeps r (Tx.modifyDb fun db => { db with relayAccountEvents := f db } : Relay Unit)

instance : AccountSteps SameBalances where
  load := fun _ => Tx.Keeps.mono (fun _ _ h => Undone.sameBalances h) Kept.keeps
  insert := fun _ => Kept.keeps

section
variable {r : World → World → Prop} [AccountSteps r]

instance {a : Text} : Kept r (getRelayAccountFromCache a) := ⟨AccountSteps.load a⟩

instance : Kept r (createRelayAccountEventWithID ty reason address amount) :=
  ⟨keeps_bind Kept.keeps fun _ => keeps_require_bind <| keeps_bind (AccountSteps.insert _) fun _ => Kept.keeps⟩

instance : Kept r (createRelayAccountEvent ty reason address amount) := by
  unfold createRelayAccountEvent
  infer_instance

instance : Kept r (creditRelayAccount ty reason address amount) := by
  unfold creditRelayAccount
  infer_instance

instance {c : Text} : Kept r (sendTaskIncome env c address amount network) := by
  dsimp only [sendTaskIncome, createRelayAccountEvents, loadAccounts]
  infer_instance

instance {l : List TaskPayment} : Kept r (sendTaskIncomes env l) := by
  induction l with
  | nil => exact ⟨keeps_pure _⟩
  | cons p l ih =>
    unfold sendTaskIncomes
    infer_instance

instance {o : Option Node} : Kept r (settleAbortedTask env task o) := by
  unfold settleAbortedTask refundTaskPaymentToRelayAccount
  cases o with
  | none => infer_instance
  | some n => infer_instance

end

/-! ## tasks -/

instance {f : InferenceTask → InferenceTask} {hf : ∀ t, (f t).taskIDCommitment = t.taskIDCommitment} :
    Kept SameBalances (task.updateStatus f hf) := by
  unfold InferenceTask.updateStatus
  infer_instance

instance : KeptOnFail Undone (createTask env task) := by
  unfold createTask addToCache
  split
  · infer_instance
  · exact onFail_bind fun _ => onFail_bind fun _ => onFail_bind fun _ => inferInstance

instance {node : Node} {c : Text} : Kept SameBalances (nodeStartTask env node c) := by
  unfold nodeStartTask Node.updateStatus
  infer_instance

instance : KeptOnFail Undone (setTaskStatusStarted env task address) := by
  unfold setTaskStatusStarted
  exact onFail_bind fun _ => onFail_bind fun _ => onFail_bind fun _ => onFail_bind fun _ => inferInstance

instance : Kept SameBalances (releaseAbortedNode env task node) := by
  unfold releaseAbortedNode applyAbortQosScore applyAbortHealthPenalty
  infer_instance

instance : KeptOnFail Undone (setTaskStatusEndAborted env task) := by
  unfold setTaskStatusEndAborted
  split
  · infer_instance
  refine onFail_bind fun _ => undone_transaction (onFail_bind fun o => onFail_bind fun f => onFail_bind fun _ => ?_)
  cases o with
  | none => infer_instance
  | some n => infer_instance

instance : KeptOnFail Undone (setTaskStatusEndSuccess env task) := by
  dsimp only [setTaskStatusEndSuccess, getTaskGroupByTaskID]
  exact onFail_bind fun _ => onFail_bind fun _ => onFail_bind fun _ => onFail_bind fun _ => inferInstance

instance : KeptOnFail Undone (setTaskStatusValidated env task) := by
  unfold setTaskStatusValidated
  infer_instance

/-- **a failed attempt of a handler** leaves the database and all balances as they were. -/
instance {call : TaskCall} {flight : Flight} : KeptOnFail Undone (call.tx env flight) := by
  cases call with
  | validate taskID vrfProof publicKey =>
    dsimp only [TaskCall.tx, validateSingleTask]
    exact onFail_bind fun _ => onFail_bind fun _ => onFail_bind fun _ => inferInstance
  | timeOut =>
    dsimp only [TaskCall.tx, abortTimedOutTask]
    split
    all_goals infer_instance
  | _ =>
    dsimp only [TaskCall.tx, setTaskStatusScoreReady, setTaskStatusErrorReported, uploadResult, abortQueuedTask]
    infer_instance

/-! ## slashes, withdrawals, deposits, vestings -/

instance : Kept SameBalances (abortNodeCurrentTaskForSlash node) := by
  unfold abortNodeCurrentTaskForSlash refundTaskPaymentToRelayAccount
  split
  all_goals infer_instance

instance : KeptOnFail Undone (slashNode env node) := by
  unfold slashNode slashNodeTx
  infer_instance

instance {f : WithdrawRecord → WithdrawRecord} {hf : ∀ r, (f r).id = r.id} :
    Kept SameBalances (updateWithdrawRecord id f hf) := by
  unfold updateWithdrawRecord
  infer_instance

instance {benefitAddress : Text} : KeptOnFail Undone (withdraw env address benefitAddress amount network) := by
  dsimp only [withdraw, createWithdrawRecord, chargeWithdrawFromRelayAccount]
  exact onFail_bind fun _ => undone_transaction (onFail_bind fun _ => onFail_bind fun _ => onFail_bind fun _ =>
    inferInstance)

instance {input : CreateWithdrawInput} : KeptOnFail Undone (createWithdrawRequest env address input) := by
  unfold createWithdrawRequest
  exact onFail_bind fun _ => onFail_bind fun _ => onFail_bind fun _ => onFail_bind fun _ => onFail_bind fun _ =>
    inferInstance

instance : KeptOnFail Undone (fulfillWithdraw env id txHash) := by
  unfold fulfillWithdraw getWithdrawRecord fulfillWithdrawRecord fulfillWithdrawFeeIncome
  infer_instance

instance : KeptOnFail Undone (rejectWithdraw id) := by
  unfold rejectWithdraw getWithdrawRecord rejectWithdrawRecord rejectWithdrawToRelayAccount
  infer_instance

instance {successful : Bool} {d : DepositTxData} : KeptOnFail Undone (processDeposit successful txHash network d) := by
  unfold processDeposit depositRelayAccount createDeposit
  infer_instance

instance {record : VestingRecord} : KeptOnFail SameBalances (releaseDueVesting env record) := by
  dsimp only [releaseDueVesting, releaseVestingToRelayAccount, updateVestingRecord]
  split
  · infer_instance
  · exact onFail_bind fun _ => onFail_bind fun _ => onFail_bind fun _ => inferInstance

instance : KeptOnFail Undone (processSingleVestingRelease env id) := by
  unfold processSingleVestingRelease
  infer_instance

end CrynuxRelay
