import Mathlib.Algebra.Order.Ring.Int
import Mathlib.Algebra.Order.Ring.Unbundled.Rat
import CrynuxRelay.Accounts.Undone
import CrynuxRelay.Withdrawals.Resolution

/-!
# Deposits, withdrawals and vesting releases

* `FundsEffect` -- a completed operation on money that is not about tasks: it posts events of its own
  types and leaves the tasks and the nodes alone;
* one lemma for each operation: its events, what it has checked, and the records it leaves.
-/

namespace CrynuxRelay

open List Table Tx VestingRecord

variable {w w' : World} {txHash network address : Text} {u : Unit} {id : Nat} {amount : Int}
    {env : Env} {v : VestingRecord} {d : DepositTxData}

/-! ## the effect -/

structure FundsEffect (ds : List EventDraft) (w w' : World) : Prop where
  posts : Posts ds w w'
  tasks : w'.db.tasks = w.db.tasks
  nodes : w'.db.nodes = w.db.nodes
  types : ∀ d ∈ ds, d.type.ofTask = false

lemma FundsEffect.trans {ds ds' : List EventDraft} {w'' : World} (h : FundsEffect ds w w')
    (h' : FundsEffect ds' w' w'') : FundsEffect (ds ++ ds') w w'' where
  posts := h.posts.trans h'.posts
  tasks := h'.tasks.trans h.tasks
  nodes := h'.nodes.trans h.nodes
  types := fun d hd => by
    rcases mem_append.1 hd with hd | hd
    · exact h.types d hd
    · exact h'.types d hd

lemma FundsEffect.of_quiet (hq : Quiet w w') (ht : w'.db.tasks = w.db.tasks)
    (hn : w'.db.nodes = w.db.nodes) : FundsEffect [] w w' := ⟨hq.posts, ht, hn, by simp⟩

lemma FundsEffect.refl (w : World) : FundsEffect [] w w :=
  FundsEffect.of_quiet ⟨rfl, rfl, rfl⟩ rfl rfl

lemma Undone.fundsEffect (h : Undone w w') : FundsEffect [] w w' :=
  ⟨h.posts, by rw [h.db], by rw [h.db], by simp⟩

lemma fundsEffect_credit {d : EventDraft} (ht : d.type.ofTask = false)
    (hd : d.type.isDebit = false) (hr : ¬ Recorded w.db d.reason) :
    FundsEffect [d] w (credit d w) where
  posts := posts_credit hd (not_recorded_iff.2 hr)
  tasks := rfl
  nodes := rfl
  types := fun d' hd' => by rw [mem_singleton.1 hd']; exact ht

/-! ## deposits -/

def depositDraft (txHash network : Text) (d : DepositTxData) : EventDraft :=
  ⟨.deposit, depositReason txHash network, d.fromAddress, d.amount⟩

def withDepositRecord (txHash network : Text) (d : DepositTxData) (n : Nat) (w : World) : World :=
  ⟨{ w.db with
      depositRecords := w.db.depositRecords ++
        [⟨d.fromAddress, d.amount, network, txHash, .pending, n⟩] }, w.mem⟩

lemma createDeposit_ok (h : Ok (createDeposit txHash d.fromAddress d.amount network) w u w') :
    ¬ Recorded w.db (depositReason txHash network) ∧
      w' = withDepositRecord txHash network d (w.db.relayAccountEvents.rows.length + 1)
        (appendEvent (depositDraft txHash network d) w) := by
  rw [createDeposit, ok_transaction] at h
  obtain ⟨n, w1, h1, h⟩ := ok_bind.1 h
  have h1' : Ok (createRelayAccountEventWithID (depositDraft txHash network d).type
    (depositDraft txHash network d).reason (depositDraft txHash network d).address
    (depositDraft txHash network d).amount) w n w1 := h1
  obtain ⟨hr, rfl, rfl⟩ := ok_createRelayAccountEventWithID.1 h1'
  rw [ok_modifyDb] at h
  exact ⟨not_recorded_iff.1 hr, h⟩

/-- **a deposit** is credited unless it has an event. -/
theorem processDeposit_ok {successful : Bool}
    (h : Ok (processDeposit successful txHash network d) w u w') :
    w' = w ∨ (FundsEffect [depositDraft txHash network d] w w' ∧
      w'.db.withdrawRecords = w.db.withdrawRecords ∧
      w'.db.vestingRecords = w.db.vestingRecords) := by
  rcases ok_when.1 h with ⟨-, h⟩ | ⟨-, h⟩
  · obtain ⟨f, w1, h1, hrun⟩ := ok_bind.1 h
    obtain ⟨_, w2, hcreate, h1⟩ := ok_bind.1 h1
    obtain ⟨hr, rfl⟩ := createDeposit_ok hcreate
    obtain ⟨b, w3, hload, h1⟩ := ok_bind.1 h1
    obtain ⟨-, rfl⟩ := ok_getRelayAccountFromCache.1 hload
    obtain ⟨rfl, rfl⟩ := ok_pure.1 h1
    have hw := ok_runCommitFunc.1 hrun
    have heff := fundsEffect_credit (d := depositDraft txHash network d) rfl rfl hr
    -- the record is written before the balance is loaded, which makes no difference
    have hrec : w' = withDepositRecord txHash network d (w.db.relayAccountEvents.rows.length + 1)
        (credit (depositDraft txHash network d) w) := hw
    rw [hrec]
    refine .inr ⟨⟨heff.posts.quiet ⟨rfl, rfl, rfl⟩, rfl, rfl, heff.types⟩, rfl, rfl⟩
  · exact .inl h

/-! ## withdrawals -/

def withdrawDraft (id : Nat) (address : Text) (amount : Int) : EventDraft :=
  ⟨.withdraw, reason2 .withdraw (Text.decimal id), address, amount⟩

lemma le_foldl_max (l : List Nat) (n : Nat) : n ≤ l.foldl max n ∧ ∀ k ∈ l, k ≤ l.foldl max n := by
  induction l generalizing n with
  | nil => exact ⟨le_refl n, by simp⟩
  | cons a l ih =>
    obtain ⟨h1, h2⟩ := ih (max n a)
    show n ≤ l.foldl max (max n a) ∧ _
    refine ⟨by omega, fun k hk => ?_⟩
    show k ≤ l.foldl max (max n a)
    rcases mem_cons.1 hk with rfl | hk
    · omega
    · exact h2 k hk

lemma get_nextWithdrawID (db : Db) : db.withdrawRecords.get (nextWithdrawID db) = none := by
  cases h : db.withdrawRecords.get (nextWithdrawID db) with
  | none => rfl
  | some r =>
    have hle := (le_foldl_max db.withdrawRecords.keys 0).2 _ (mem_keys_of_get h)
    rw [nextWithdrawID] at hle
    omega

def newWithdrawRecord (env : Env) (id : Nat) (address benefitAddress : Text) (amount : Int)
    (network : Text) (fee : Int) (eventID : Nat) : WithdrawRecord :=
  { id, address, benefitAddress, amount, network, withdrawalFee := fee, createdAt := env.now,
    relayAccountEventID := eventID }

lemma chargeWithdraw_ok {r : Nat × CommitFunc}
    (h : Ok (chargeWithdrawFromRelayAccount id address amount) w r w') :
    amount ≤ cachedBalance w address ∧ r.2 = [⟨address, -amount⟩] ∧
      w.db.relayAccountEvents.reasonTaken (withdrawDraft id address amount).reason = false ∧
      w' = appendEvent (withdrawDraft id address amount) (loadAccount address w) := by
  obtain ⟨b, w1, hload, h⟩ := ok_bind.1 h
  obtain ⟨rfl, rfl⟩ := ok_getRelayAccountFromCache.1 hload
  rw [ok_require_bind, ok_bind] at h
  obtain ⟨hle, n, w2, hev, h⟩ := h
  have hev' : Ok (createRelayAccountEventWithID (withdrawDraft id address amount).type
    (withdrawDraft id address amount).reason (withdrawDraft id address amount).address
    (withdrawDraft id address amount).amount) (loadAccount address w) n w2 := hev
  obtain ⟨hr, -, rfl⟩ := ok_createRelayAccountEventWithID.1 hev'
  obtain ⟨rfl, rfl⟩ := ok_pure.1 h
  exact ⟨hle, rfl, hr, rfl⟩

lemma posts_charge {w1 : World}
    (hr : w.db.relayAccountEvents.reasonTaken (withdrawDraft id address amount).reason = false)
    (hq : Quiet (appendEvent (withdrawDraft id address amount) (loadAccount address w)) w1) :
    Posts [withdrawDraft id address amount] w (addPosting ⟨address, -amount⟩ w1) where
  appends := by
    have happ := appends_appendEvent (d := withdrawDraft id address amount)
      (w := loadAccount address w) hr
    obtain ⟨es, hrows, hes⟩ := happ
    exact ⟨es, by rw [db_addPosting, hq.events, hrows]; rfl, hes⟩
  accounts := hq.accounts
  cached := fun a => by
    have hl : Loaded w1 address := by
      rw [Loaded, hq.cache]
      exact loaded_loadAccount.2 (.inl rfl)
    rw [cachedBalance_addPosting hl, hq.cachedBalance, cachedBalance_appendEvent,
      cachedBalance_loadAccount]
    rfl
  keeps_loaded := fun a ha => by
    refine loaded_addPosting.2 (.inr ?_)
    rw [Loaded, hq.cache]
    exact loaded_loadAccount.2 (.inr ha)
  loads := fun d hd => by
    rw [mem_singleton.1 hd]
    exact loaded_addPosting.2 (.inl rfl)

def withWithdrawRecord (r : WithdrawRecord) (w : World) : World :=
  ⟨{ w.db with withdrawRecords := w.db.withdrawRecords.insert r }, w.mem⟩

def withWithdrawEvent (id n : Nat) (w : World) : World :=
  ⟨{ w.db with
      withdrawRecords := w.db.withdrawRecords.modify id
        (fun r => { r with relayAccountEventID := n }) fun _ => rfl }, w.mem⟩

lemma get_newWithdrawRecord {r : WithdrawRecord} (n : Nat)
    (h : w.db.withdrawRecords.get r.id = none) (j : Nat) :
    (withWithdrawEvent r.id n (withWithdrawRecord r w)).db.withdrawRecords.get j =
      if j = r.id then some { r with relayAccountEventID := n }
      else w.db.withdrawRecords.get j := by
  rw [withWithdrawEvent, withWithdrawRecord, get_modify, get_insert _ _ _ h, get_insert _ _ _ h, if_pos rfl]
  split
  · rfl
  · rfl

/-- **a withdrawal** has checked that the balance covers the amount and the fee. -/
theorem withdraw_ok {benefitAddress : Text}
    (h : Ok (withdraw env address benefitAddress amount network) w id w') :
    ∃ net fee eventID, env.fundingNetwork network = some net ∧
      fee = withdrawalFeeOf env net address amount ∧ id < 2 ^ 64 ∧
      w.db.withdrawRecords.get id = none ∧ amount + fee ≤ cachedBalance w address ∧
      FundsEffect [withdrawDraft id address (amount + fee)] w w' ∧
      (∀ j, w'.db.withdrawRecords.get j = if j = id then
        some (newWithdrawRecord env id address benefitAddress amount network fee eventID)
        else w.db.withdrawRecords.get j) ∧ w'.db.vestingRecords = w.db.vestingRecords := by
  obtain ⟨net, hnet, h⟩ := ok_orFail_bind.1 h
  rw [ok_transaction, ok_getDb_bind, ok_require_bind, ok_require_bind, ok_bind] at h
  obtain ⟨-, -, n, w1, hrec, h⟩ := h
  rw [createWithdrawRecord, ok_getDb_bind, ok_require_bind, ok_modifyDb_bind, ok_pure] at hrec
  obtain ⟨hlt, rfl, hw1⟩ := hrec
  obtain ⟨charge, w2, hcharge, h⟩ := ok_bind.1 h
  obtain ⟨hle, hcommit, hr, rfl⟩ := chargeWithdraw_ok hcharge
  rw [updateWithdrawRecord, ok_modifyDb_bind] at h
  obtain ⟨_, w3, hrun, h⟩ := ok_bind.1 h
  obtain ⟨rfl, rfl⟩ := ok_pure.1 h
  have hfresh := get_nextWithdrawID w.db
  generalize hfee : withdrawalFeeOf env net address amount = fee at hle hcommit hrun hr hw1
  generalize nextWithdrawID w.db = id at *
  have hw1' : w1 = withWithdrawRecord (newWithdrawRecord env id address benefitAddress amount
    network fee 0) w := hw1
  have hw' : w' = addPosting ⟨address, -(amount + fee)⟩ (withWithdrawEvent id charge.1
      (appendEvent (withdrawDraft id address (amount + fee)) (loadAccount address w1))) := by
    rw [hcommit] at hrun
    exact ok_runCommitFunc.1 hrun
  rw [hw1'] at hle hr hw'
  have hquiet : Quiet w (withWithdrawRecord (newWithdrawRecord env id address benefitAddress amount
    network fee 0) w) := ⟨rfl, rfl, rfl⟩
  refine ⟨net, fee, charge.1, hnet, hfee.symm, hlt, hfresh, hle, ⟨?_, ?_, ?_, ?_⟩, ?_, ?_⟩
  · rw [hw']
    exact hquiet.posts.trans (posts_charge hr ⟨rfl, rfl, rfl⟩)
  · rw [hw']
    rfl
  · rw [hw']
    rfl
  · intro d hd
    rw [mem_singleton.1 hd]
    rfl
  · intro j
    rw [hw']
    exact get_newWithdrawRecord charge.1 hfresh j
  · rw [hw']
    rfl

lemma etherToWei_nonneg (n : Nat) : 0 ≤ etherToWei n :=
  mul_nonneg (Int.natCast_nonneg n) (by decide)

lemma withdrawalFee_nonneg (env : Env) (net : FundingNetwork) (address : Text) (h : 0 ≤ amount) :
    0 ≤ withdrawalFeeOf env net address amount := by
  have hfixed := etherToWei_nonneg net.withdrawalFee
  rw [withdrawalFeeOf]
  split
  · exact le_refl 0
  · rw [calculateWithdrawalFee]
    split
    · next hr =>
      have hnum : 0 ≤ (withdrawalFeeRatio amount 0 net.withdrawalFeeTiers).num :=
        (Rat.num_pos.2 hr).le
      have hshare := Int.tdiv_nonneg (mul_nonneg h hnum)
        (Int.natCast_nonneg (withdrawalFeeRatio amount 0 net.withdrawalFeeTiers).den)
      omega
    · exact hfixed

/-- **a withdraw request** charges an amount and a fee that are not negative. -/
theorem createWithdrawRequest_ok {userAddress : Text} {input : CreateWithdrawInput}
    (h : Ok (createWithdrawRequest env userAddress input) w id w') :
    ∃ amount fee eventID, 0 ≤ amount ∧ 0 ≤ fee ∧ id < 2 ^ 64 ∧
      w.db.withdrawRecords.get id = none ∧ amount + fee ≤ cachedBalance w input.address ∧
      FundsEffect [withdrawDraft id input.address (amount + fee)] w w' ∧
      (∀ j, w'.db.withdrawRecords.get j = if j = id then
        some (newWithdrawRecord env id input.address input.benefitAddress amount input.network fee
          eventID) else w.db.withdrawRecords.get j) ∧
      w'.db.vestingRecords = w.db.vestingRecords := by
  rw [createWithdrawRequest, ok_require_bind, ok_orFail_bind] at h
  obtain ⟨-, signer, -, h⟩ := h
  rw [ok_require_bind, ok_orFail_bind] at h
  obtain ⟨-, net, -, h⟩ := h
  obtain ⟨amount, -, h⟩ := ok_orFail_bind.1 h
  rw [ok_require_bind, ok_orFail_bind] at h
  obtain ⟨hmin, expected, -, h⟩ := h
  rw [ok_require_bind, ok_mapErr] at h
  obtain ⟨-, h⟩ := h
  have hamount : 0 ≤ amount := (etherToWei_nonneg net.withdrawalMin).trans hmin
  obtain ⟨net', fee, eventID, -, hfee, hrest⟩ := withdraw_ok h
  refine ⟨amount, fee, eventID, hamount, ?_, hrest⟩
  rw [hfee]
  exact withdrawalFee_nonneg env net' input.address hamount

/-! ## resolutions -/

def WithdrawRecord.charge (r : WithdrawRecord) : Int := r.amount + r.withdrawalFee

def SameCharges (t t' : Table WithdrawRecord.id) : Prop :=
  ∀ id, (t'.get id).map WithdrawRecord.charge = (t.get id).map WithdrawRecord.charge

def WithdrawRecord.terms (r : WithdrawRecord) : Text × Int × Int :=
  (r.address, r.amount, r.withdrawalFee)

def SameWithdrawals (t t' : Table WithdrawRecord.id) : Prop :=
  ∀ id, (t'.get id).map WithdrawRecord.terms = (t.get id).map WithdrawRecord.terms

/-- the projector changes the local status of the records only. -/
lemma sameWithdrawals_markRecords (withdrawEventIDs depositEventIDs : List Nat) (st : LocalStatus) (db : Db) :
    SameWithdrawals db.withdrawRecords (markRecords withdrawEventIDs depositEventIDs st db).withdrawRecords := by
  intro id
  show ((db.withdrawRecords.get id).map _).map WithdrawRecord.terms = _
  rw [Option.map_map]
  congr 1
  funext r
  show WithdrawRecord.terms (if _ then _ else _) = _
  split
  · rfl
  · rfl

lemma SameWithdrawals.charges {t t' : Table WithdrawRecord.id} (h : SameWithdrawals t t') :
    SameCharges t t' := by
  intro id
  have hcharge : WithdrawRecord.charge = (fun x => x.2.1 + x.2.2) ∘ WithdrawRecord.terms := rfl
  rw [hcharge, ← Option.map_map, ← Option.map_map, h id]

/-- **a fulfilment** credits the fee, if there is one. -/
theorem fulfillWithdraw_ok (h : Ok (fulfillWithdraw env id txHash) w u w') :
    ∃ r ds, w.db.withdrawRecords.get id = some r ∧
      (ds = [] ∧ (r.status = .success ∨ r.withdrawalFee ≤ 0) ∨
        0 < r.withdrawalFee ∧ ds = [feeIncomeDraft env r]) ∧ FundsEffect ds w w' ∧
      SameWithdrawals w.db.withdrawRecords w'.db.withdrawRecords ∧
      w'.db.vestingRecords = w.db.vestingRecords := by
  rw [fulfillWithdraw, ok_transaction, ok_bind] at h
  obtain ⟨r, w1, hget, h⟩ := h
  obtain ⟨hget, rfl⟩ := ok_getWithdrawRecord.1 hget
  have hmark : FundsEffect [] w1 (markFulfilled r.id txHash w1) :=
    FundsEffect.of_quiet ⟨rfl, rfl, rfl⟩ rfl rfl
  have hterms : SameWithdrawals w1.db.withdrawRecords
      (markFulfilled r.id txHash w1).db.withdrawRecords :=
    map_get_modify _ (by intro _; rfl) fun _ => rfl
  rcases fulfillWithdrawRecord_ok h with ⟨hst, rfl⟩ | ⟨-, -, ⟨hfee, hr, rfl⟩ | ⟨hfee, rfl⟩⟩
  · exact ⟨r, [], hget, .inl ⟨rfl, .inl hst⟩, FundsEffect.refl w', fun _ => rfl, rfl⟩
  · exact ⟨r, _, hget, .inr ⟨hfee, rfl⟩, hmark.trans (fundsEffect_credit rfl rfl hr), hterms, rfl⟩
  · exact ⟨r, [], hget, .inl ⟨rfl, .inr hfee⟩, hmark, hterms, rfl⟩

/-- **a rejection** credits what the withdrawal has charged. -/
theorem rejectWithdraw_ok (h : Ok (rejectWithdraw id) w u w') :
    ∃ r ds, w.db.withdrawRecords.get id = some r ∧
      (ds = [] ∧ r.status = .failed ∨ ds = [withdrawRefundDraft r]) ∧
      FundsEffect ds w w' ∧ SameWithdrawals w.db.withdrawRecords w'.db.withdrawRecords ∧
      w'.db.vestingRecords = w.db.vestingRecords := by
  rw [rejectWithdraw, ok_transaction, ok_bind] at h
  obtain ⟨r, w1, hget, h⟩ := h
  obtain ⟨hget, rfl⟩ := ok_getWithdrawRecord.1 hget
  have hmark : FundsEffect [] w1 (markRejected r.id w1) :=
    FundsEffect.of_quiet ⟨rfl, rfl, rfl⟩ rfl rfl
  rcases rejectWithdrawRecord_ok h with ⟨hst, rfl⟩ | ⟨-, -, hr, rfl⟩
  · exact ⟨r, [], hget, .inl ⟨rfl, hst⟩, FundsEffect.refl w', fun _ => rfl, rfl⟩
  · refine ⟨r, _, hget, .inr rfl, hmark.trans (fundsEffect_credit rfl rfl hr), ?_, rfl⟩
    exact map_get_modify _ (by intro _; rfl) fun _ => rfl

/-! ## vesting releases -/

/-- what a release reads of a record and what it changes. -/
def VestingRecord.terms (v : VestingRecord) : Text × Int × Int :=
  (v.address, v.totalAmount, v.releasedAmount)

/-- the same vestings, released as far. -/
def SameTerms (t t' : Table VestingRecord.id) : Prop :=
  ∀ id, (t'.get id).map VestingRecord.terms = (t.get id).map VestingRecord.terms

lemma SameVestings.sameTerms {t t' : Table VestingRecord.id} (h : SameVestings t t') :
    SameTerms t t' := by
  intro id
  have hterms : ∀ o : Option VestingRecord, o.map VestingRecord.terms =
      (o.map VestingRecord.unslashed).map VestingRecord.terms := by
    intro o
    rw [Option.map_map]
    rfl
  rw [hterms, h id, ← hterms]

def vestingReleaseDraft (v : VestingRecord) (toReleased : Int) : EventDraft :=
  ⟨.vestingRelease, vestingReleaseReason v.id v.releasedAmount toReleased, v.address,
    toReleased - v.releasedAmount⟩

/-- the vestings after the release of `v` up to `toReleased`. -/
structure Releases (v : VestingRecord) (toReleased : Int) (w w' : World) : Prop where
  more : v.releasedAmount < toReleased
  le_total : toReleased ≤ v.totalAmount
  effect : FundsEffect [vestingReleaseDraft v toReleased] w w'
  terms : ∀ j, (w'.db.vestingRecords.get j).map VestingRecord.terms =
    if j = v.id then some (v.address, v.totalAmount, toReleased)
    else (w.db.vestingRecords.get j).map VestingRecord.terms

def modifyVesting (id : Nat) (f : VestingRecord → VestingRecord) (hf : ∀ v, (f v).id = v.id)
    (w : World) : World :=
  ⟨{ w.db with vestingRecords := w.db.vestingRecords.modify id f hf }, w.mem⟩

def VestingRecord.completed (v : VestingRecord) : VestingRecord := { v with status := .completed }

/-- the record after a release up to `toReleased`, out of `total`. -/
def VestingRecord.releasedTo (total toReleased : Int) (v : VestingRecord) : VestingRecord :=
  { v with
    releasedAmount := toReleased
    status := if toReleased = total then .completed else .active }

lemma VestingRecord.id_completed (v : VestingRecord) : v.completed.id = v.id := rfl

lemma VestingRecord.id_releasedTo (total toReleased : Int) (v : VestingRecord) :
    (v.releasedTo total toReleased).id = v.id := rfl

/-- what the schedule of a record has come to. -/
def VestingRecord.scheduled (v : VestingRecord) (now : Time) : Int :=
  computeVestingShouldReleased v.totalAmount v.startTime v.durationDays now

/-- **the three ways of a release**: nothing is due, or all was released before, or a part is due. -/
theorem releaseDueVesting_cases (h : Ok (releaseDueVesting env v) w u w') :
    (v.scheduled env.now ≤ v.releasedAmount ∧ v.releasedAmount < v.totalAmount ∧ w' = w) ∨
    (v.totalAmount ≤ v.releasedAmount ∧ w' = modifyVesting v.id completed id_completed w) ∨
    (v.releasedAmount < v.scheduled env.now ∧ v.scheduled env.now ≤ v.totalAmount ∧
      ¬ Recorded w.db (vestingReleaseDraft v (v.scheduled env.now)).reason ∧
      w' = modifyVesting v.id (releasedTo v.totalAmount (v.scheduled env.now))
        (id_releasedTo _ _) (credit (vestingReleaseDraft v (v.scheduled env.now)) w)) := by
  have hsched : computeVestingShouldReleased v.totalAmount v.startTime v.durationDays env.now =
    v.scheduled env.now := rfl
  unfold releaseDueVesting at h
  simp only [hsched] at h
  split at h
  · next hle =>
    rcases ok_when.1 h with ⟨hall, h⟩ | ⟨hall, rfl⟩
    · rw [updateVestingRecord, ok_modifyDb] at h
      exact .inr (.inl ⟨of_decide_eq_true hall, h⟩)
    · exact .inl ⟨hle, Int.not_le.1 (of_decide_eq_false hall), rfl⟩
  · next hmore =>
    rw [ok_require_bind, ok_bind] at h
    obtain ⟨hle, f, w1, hrel, h⟩ := h
    rw [releaseVestingToRelayAccount, ok_require_bind, ok_require_bind, ok_getDb_bind, ok_require_bind] at hrel
    have hcredit : Ok (creditRelayAccount (vestingReleaseDraft v (v.scheduled env.now)).type
      (vestingReleaseDraft v _).reason v.address (vestingReleaseDraft v _).amount) w f w1 := hrel.2.2.2
    obtain ⟨hr, rfl, rfl⟩ := ok_creditRelayAccount.1 hcredit
    exact .inr (.inr ⟨Int.not_le.1 hmore, hle, not_recorded_iff.1 hr, ok_runCommitFunc.1 h⟩)

/-- **a release** credits what has become due of a record, and nothing when nothing has. -/
theorem releaseDueVesting_ok (hv : w.db.vestingRecords.get v.id = some v)
    (h : Ok (releaseDueVesting env v) w u w') : w'.db.withdrawRecords = w.db.withdrawRecords ∧
      ((FundsEffect [] w w' ∧ SameTerms w.db.vestingRecords w'.db.vestingRecords) ∨
        ∃ toReleased, Releases v toReleased w w') := by
  rcases releaseDueVesting_cases h with ⟨-, -, rfl⟩ | ⟨-, rfl⟩ | ⟨hmore, hle, hr, rfl⟩
  · exact ⟨rfl, .inl ⟨FundsEffect.refl w', fun _ => rfl⟩⟩
  · refine ⟨rfl, .inl ⟨FundsEffect.of_quiet ⟨rfl, rfl, rfl⟩ rfl rfl, map_get_modify _ (by intro _; rfl) fun _ => rfl⟩⟩
  · have heff := fundsEffect_credit (d := vestingReleaseDraft v (v.scheduled env.now)) rfl rfl hr
    refine ⟨rfl, .inr ⟨v.scheduled env.now, hmore, hle, ?_, fun j => ?_⟩⟩
    · exact heff.trans (FundsEffect.of_quiet ⟨rfl, rfl, rfl⟩ rfl rfl)
    · rw [modifyVesting, get_modify]
      split
      · show ((w.db.vestingRecords.get v.id).map _).map _ = _
        rw [hv]
        rfl
      · rfl

lemma processSingleVestingRelease_ok (h : Ok (processSingleVestingRelease env id) w u w') :
    w'.db.withdrawRecords = w.db.withdrawRecords ∧
      ((FundsEffect [] w w' ∧ SameTerms w.db.vestingRecords w'.db.vestingRecords) ∨
        ∃ v toReleased, w.db.vestingRecords.get id = some v ∧ Releases v toReleased w w') := by
  rw [processSingleVestingRelease, ok_transaction, ok_getDb_bind] at h
  obtain ⟨v, hv, h⟩ := ok_orFail_bind.1 h
  rcases ok_when.1 h with ⟨-, h⟩ | ⟨-, rfl⟩
  · have hid := key_of_get hv
    obtain ⟨hw, hcase⟩ := releaseDueVesting_ok (hid ▸ hv) h
    refine ⟨hw, hcase.imp_right ?_⟩
    rintro ⟨toReleased, hrel⟩
    exact ⟨v, toReleased, hv, hrel⟩
  · exact ⟨rfl, .inl ⟨FundsEffect.refl w', fun _ => rfl⟩⟩

end CrynuxRelay
