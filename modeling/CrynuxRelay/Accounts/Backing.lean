import CrynuxRelay.Accounts.Funding
import CrynuxRelay.Tasks.Books

/-!
# What stands behind an event

The validator derives every event again from the rows that it was written from.  An event that is
backed by its rows is accepted, however late the projector comes to it.

* `ConfirmedDeposits` -- the deposits of the chains, and a chain client that confirms them;
* `FundsBacked` -- the rows behind the events that are not about tasks; for the others see
  `Accounted`;
* `RecordsOk` -- what the validator needs of the rows themselves;
* `eventRule_of_backed`, `validatePending_backed` -- the validator accepts what is backed;
* `Named` -- what the reason of a backed event says, for ever.
-/

namespace CrynuxRelay

open List Option Table EventDraft Text

variable {deposits : ConfirmedDeposits} {db db' : Db}
  {d : EventDraft} {c txHash network : Text} {x : DepositTxData} {e : RelayAccountEvent}
    {t : InferenceTask}

/-! ## deposits -/

/-- the deposits that the chains have confirmed: positive amounts under hashes in hex. -/
structure ConfirmedDeposits where
  deposit : Text → Text → Option DepositTxData
  plain : ∀ txHash network d, deposit txHash network = some d → '-' ∉ txHash
  positive : ∀ txHash network d, deposit txHash network = some d → 0 < d.amount

/-- what the client answers about a confirmed deposit, when it answers. -/
def Chain.Confirms (chain : Chain) (deposits : ConfirmedDeposits) : Prop :=
  ∀ txHash network d r, deposits.deposit txHash network = some d →
    chain.validDepositTx txHash network = .ok r → r = some d

/-! ## backing -/

def ReleaseBacked (db : Db) (id : Nat) (d : EventDraft) : Prop :=
  ∃ address totalAmount fromReleased toReleased,
    (db.vestingRecords.get id).map VestingRecord.terms = some (address, totalAmount, toReleased) ∧
    0 ≤ fromReleased ∧ fromReleased < toReleased ∧ toReleased ≤ totalAmount ∧
    d = ⟨.vestingRelease, vestingReleaseReason id fromReleased toReleased, address,
      toReleased - fromReleased⟩

def WithdrawBacked (db : Db) (d : EventDraft) : Prop :=
  ∃ id r, db.withdrawRecords.get id = some r ∧ d.reason = reason2 d.type (Text.decimal id)

def FundsBacked (deposits : ConfirmedDeposits) (db : Db) (d : EventDraft) : Prop :=
  match d.type with
  | .deposit => ∃ txHash network x, deposits.deposit txHash network = some x ∧
      d = depositDraft txHash network x
  | .withdraw | .withdrawRefund | .withdrawFeeIncome => WithdrawBacked db d
  | .vestingRelease => ∃ id, ReleaseBacked db id d
  | .vestingCreated => False
  | _ => ∃ x, d.reason = reason2 d.type x

lemma isIncomeOf_reason (h : d.isIncomeOf c = true) : ∃ x, d.reason = reason2 d.type x := by
  unfold isIncomeOf at h
  split at h
  · exact ⟨c, of_decide_eq_true h⟩
  · exact ⟨c, of_decide_eq_true h⟩
  · exact ⟨_, of_decide_eq_true h⟩
  · cases h

lemma fundsBacked_of_task (h : d.type.ofTask = true)
    (hacc : Accounted db d) : FundsBacked deposits db d := by
  have hincome : (∃ c t, db.tasks.get c = some t ∧ d.isIncomeOf c = true ∧ IncomeSettled db t) →
      ∃ x, d.reason = reason2 d.type x := by
    rintro ⟨c, t, -, hi, -⟩
    exact isIncomeOf_reason hi
  unfold Accounted at hacc
  unfold FundsBacked
  cases hty : d.type with
  | taskPayment =>
    rw [hty] at hacc
    obtain ⟨c, t, -, hd⟩ := hacc
    exact ⟨t.taskIDCommitment, congrArg reason hd⟩
  | taskRefund =>
    rw [hty] at hacc
    obtain ⟨c, t, -, hd, -⟩ := hacc
    exact ⟨t.taskIDCommitment, congrArg reason hd⟩
  | taskIncome => rw [hty] at hacc hincome; exact hincome hacc
  | daoTaskShare => rw [hty] at hacc hincome; exact hincome hacc
  | userDelegation => rw [hty] at hacc hincome; exact hincome hacc
  | _ =>
    rw [hty] at h
    cases h

/-- the reason of an event names its type, and the reason of a deposit names the deposit. -/
def Named (deposits : ConfirmedDeposits) (d : EventDraft) : Prop :=
  (∃ x, d.reason = reason2 d.type x) ∧ (d.type = .deposit → ∃ txHash network x,
    deposits.deposit txHash network = some x ∧ d = depositDraft txHash network x)

lemma FundsBacked.named (h : FundsBacked deposits db d) : Named deposits d := by
  have hwithdraw : WithdrawBacked db d → ∃ x, d.reason = reason2 d.type x := by
    rintro ⟨id, r, -, hreason⟩
    exact ⟨_, hreason⟩
  unfold FundsBacked at h
  unfold Named
  cases hty : d.type with
  | deposit =>
    rw [hty] at h
    obtain ⟨txHash, network, x, hx, hd⟩ := h
    exact ⟨⟨_, congrArg reason hd⟩, fun _ => ⟨txHash, network, x, hx, hd⟩⟩
  | vestingRelease =>
    rw [hty] at h
    obtain ⟨id, address, totalAmount, x, y, -, -, -, -, hd⟩ := h
    exact ⟨⟨_, congrArg reason hd⟩, fun e => nomatch e⟩
  | vestingCreated => rw [hty] at h; exact absurd h id
  | withdraw => rw [hty] at h hwithdraw; exact ⟨hwithdraw h, fun e => nomatch e⟩
  | withdrawRefund => rw [hty] at h hwithdraw; exact ⟨hwithdraw h, fun e => nomatch e⟩
  | withdrawFeeIncome => rw [hty] at h hwithdraw; exact ⟨hwithdraw h, fun e => nomatch e⟩
  | _ => rw [hty] at h; exact ⟨h, fun e => nomatch e⟩

/-- the only event that can have the reason of a confirmed deposit is the event of that deposit. -/
lemma Named.deposit_eq (h : Named deposits d) (hx : deposits.deposit txHash network = some x)
    (hr : d.reason = depositReason txHash network) : d = depositDraft txHash network x := by
  obtain ⟨⟨y, hy⟩, hdep⟩ := h
  have hreason : reason2 d.type y = reason2 .deposit (txHash ++ '-' :: network) :=
    hy.symm.trans hr
  obtain ⟨txHash', network', x', hx', rfl⟩ := hdep (reason2_inj.1 hreason).1
  have hs := splitReason_reason3 (t := .deposit) rfl (deposits.plain _ _ _ hx') network'
  rw [show reason3 .deposit txHash' network' = reason3 .deposit txHash network from hr,
    splitReason_reason3 rfl (deposits.plain _ _ _ hx), some.injEq, cons.injEq, cons.injEq, cons.injEq] at hs
  obtain ⟨-, rfl, rfl, -⟩ := hs
  rw [hx] at hx'
  cases hx'
  rfl

lemma ReleaseBacked.congr {id : Nat} (h : ReleaseBacked db id d)
    (hv : (db'.vestingRecords.get id).map VestingRecord.terms =
      (db.vestingRecords.get id).map VestingRecord.terms) : ReleaseBacked db' id d := by
  obtain ⟨address, totalAmount, fromReleased, toReleased, hterms, hrest⟩ := h
  exact ⟨address, totalAmount, fromReleased, toReleased, hv.trans hterms, hrest⟩

def KeepsWithdrawals (db db' : Db) : Prop :=
  ∀ id r, db.withdrawRecords.get id = some r → ∃ r', db'.withdrawRecords.get id = some r'

/-- the backing of an event survives while withdrawals stay on record and the vesting behind it is
released no further. -/
lemma FundsBacked.mono (h : FundsBacked deposits db d) (hw : KeepsWithdrawals db db')
    (hv : d.type = .vestingRelease → (∃ id, ReleaseBacked db id d) → ∃ id, ReleaseBacked db' id d) :
    FundsBacked deposits db' d := by
  have hkeep : WithdrawBacked db d → WithdrawBacked db' d := by
    rintro ⟨id, r, hget, hreason⟩
    obtain ⟨r', hget'⟩ := hw id r hget
    exact ⟨id, r', hget', hreason⟩
  unfold FundsBacked at h ⊢
  cases hty : d.type
  all_goals
    rw [hty] at h
    first
      | exact h
      | exact hkeep h
      | exact hv hty h

/-! ## the rows -/

/-- fees, charges and released amounts are not negative; commitments are hashes in hex, ids are
`uint`s. -/
structure RecordsOk (db : Db) : Prop where
  fees : FeesNonneg db
  commitments : ∀ c t, db.tasks.get c = some t → '-' ∉ c
  withdrawals : ∀ id x, (db.withdrawRecords.get id).map WithdrawRecord.charge = some x →
    id < 2 ^ 64 ∧ 0 ≤ x
  vestings : ∀ id address totalAmount released,
    (db.vestingRecords.get id).map VestingRecord.terms = some (address, totalAmount, released) →
      id < 2 ^ 64 ∧ 0 ≤ released

/-! ## the second pass -/

section
variable {chain : Chain}

lemma equalFold_refl (a : Text) : equalFold a a = true := decide_eq_true rfl

lemma eventRule_deposit (he : e.draft = depositDraft txHash network x) (hp : '-' ∉ txHash)
    (hc : chain.validDepositTx txHash network = .ok (some x)) : eventRule chain db e = true := by
  have hty : e.type = .deposit := congrArg type he
  have hreason : e.reason = reason3 .deposit txHash network := congrArg reason he
  have haddr : e.address = x.fromAddress := congrArg address he
  have hamount : e.amount = x.amount := congrArg amount he
  rw [eventRule, hty, hreason, splitReason_reason3 rfl hp]
  simp only
  rw [hc, haddr, hamount]
  simp only
  rw [equalFold_refl]
  rfl

lemma eventRule_withdraw (hr : RecordsOk db) (ht : e.type = .withdraw ∨ e.type = .withdrawRefund ∨
    e.type = .withdrawFeeIncome) (h : WithdrawBacked db e.draft) : eventRule chain db e = true := by
  obtain ⟨n, r, hget, hreason⟩ := h
  have hlt := (hr.withdrawals n r.charge (by rw [hget]; rfl)).1
  have hreason : e.reason = reason2 e.type (decimal n) := hreason
  rcases ht with ht | ht | ht
  all_goals
    rw [eventRule, hreason, ht, splitReason_reason2 rfl]
    simp only
    rw [parseUint_decimal hlt]
    simp only
    rw [hget]
    rfl

lemma eventRule_vestingRelease {n : Nat} (hlt : n < 2 ^ 64) (h : ReleaseBacked db n e.draft) :
    eventRule chain db e = true := by
  obtain ⟨address, totalAmount, x, y, hterms, hx, hxy, hy, hd⟩ := h
  obtain ⟨v, hget, hv⟩ := map_eq_some_iff.1 hterms
  have hty : e.type = .vestingRelease := congrArg EventDraft.type hd
  have hreason : e.reason = reason4 .vestingRelease (decimal n) (ofInt x) (ofInt y) :=
    congrArg EventDraft.reason hd
  have haddr : e.address = v.address := by
    rw [show e.address = address from congrArg EventDraft.address hd]
    exact (congrArg Prod.fst hv).symm
  have hamount : e.amount = y - x := congrArg EventDraft.amount hd
  have htotal : v.totalAmount = totalAmount := congrArg (·.2.1) hv
  have hreleased : v.releasedAmount = y := congrArg (·.2.2) hv
  rw [eventRule, hty, hreason, splitReason_reason4 rfl (dash_not_mem_decimal n)
    (dash_not_mem_ofInt hx)]
  simp only
  rw [parseUint_decimal hlt, parseInt_ofInt, parseInt_ofInt]
  simp only
  rw [hget, haddr]
  simp only
  rw [equalFold_refl, Bool.true_and, decide_eq_true_eq, hamount, htotal, hreleased]
  omega

lemma IncomeSettled.allowed (h : IncomeSettled db t) : taskIncomeAllowed t = true := by
  rw [taskIncomeAllowed, decide_eq_true_eq]
  rcases h with h | h | ⟨h, -⟩ | h
  · exact .inl h
  · exact .inr (.inl h)
  · exact .inr (.inr (.inl h))
  · exact .inr (.inr (.inr h))

lemma eventRule_income (hr : RecordsOk db) (ht : db.tasks.get c = some t)
    (he : e.draft.isIncomeOf c = true) (hset : IncomeSettled db t) : eventRule chain db e = true := by
  have hallow := hset.allowed
  unfold isIncomeOf at he
  split at he
  case h_1 hty | h_2 hty =>
    change e.type = _ at hty
    have hreason : e.reason = reason2 e.type c := of_decide_eq_true he
    rw [eventRule, hreason, hty, splitReason_reason2 rfl]
    simp only
    rwa [ht]
  · next hty =>
    change e.type = _ at hty
    have hreason : e.reason = reason3 e.type c e.address := of_decide_eq_true he
    rw [eventRule, hreason, hty, splitReason_reason3 rfl (hr.commitments c t ht)]
    simp only
    rwa [ht]
  · cases he

lemma facts_of_feeDraft {ty : RelayAccountEventType} (ht : db.tasks.get c = some t)
    (he : e.draft = ⟨ty, reason2 ty t.taskIDCommitment, t.creator, t.taskFee⟩) :
    e.type = ty ∧ e.reason = reason2 ty c ∧ e.amount = t.taskFee := by
  rw [← key_of_get ht]
  exact ⟨congrArg type he, congrArg reason he, congrArg amount he⟩

/-- **a backed event follows its rule**, when the chain answers about its deposit. -/
theorem eventRule_of_backed (hr : RecordsOk db) (hacc : Accounted db e.draft)
    (hb : FundsBacked deposits db e.draft)
    (hchain : ∀ txHash network x, deposits.deposit txHash network = some x →
      e.draft = depositDraft txHash network x →
        chain.validDepositTx txHash network = .ok (some x)) : eventRule chain db e = true := by
  have hincome : (∃ c t, db.tasks.get c = some t ∧ e.draft.isIncomeOf c = true ∧
      IncomeSettled db t) → eventRule chain db e = true := by
    rintro ⟨c, t, ht, hi, hset⟩
    exact eventRule_income hr ht hi hset
  unfold Accounted at hacc
  unfold FundsBacked at hb
  cases hty : e.draft.type with
  | deposit =>
    rw [hty] at hb
    obtain ⟨txHash, network, x, hx, hd⟩ := hb
    exact eventRule_deposit hd (deposits.plain _ _ _ hx) (hchain txHash network x hx hd)
  | taskPayment =>
    rw [hty] at hacc
    obtain ⟨c, t, ht, hd⟩ := hacc
    obtain ⟨hty, hreason, hamount⟩ := facts_of_feeDraft ht hd
    rw [eventRule, hty, hreason, splitReason_reason2 rfl]
    simp only
    rw [ht]
    exact decide_eq_true hamount
  | taskRefund =>
    rw [hty] at hacc
    obtain ⟨c, t, ht, hd, hallow⟩ := hacc
    obtain ⟨hty, hreason, hamount⟩ := facts_of_feeDraft ht hd
    rw [eventRule, hty, hreason, splitReason_reason2 rfl]
    simp only
    rw [ht]
    simp only
    rw [hallow, Bool.and_true]
    exact decide_eq_true hamount
  | withdraw => rw [hty] at hb; exact eventRule_withdraw hr (.inl hty) hb
  | withdrawRefund => rw [hty] at hb; exact eventRule_withdraw hr (.inr (.inl hty)) hb
  | withdrawFeeIncome => rw [hty] at hb; exact eventRule_withdraw hr (.inr (.inr hty)) hb
  | vestingRelease =>
    rw [hty] at hb
    obtain ⟨id, hrel⟩ := hb
    have hlt : id < 2 ^ 64 := by
      obtain ⟨address, totalAmount, -, toReleased, hterms, -⟩ := hrel
      exact (hr.vestings id address totalAmount toReleased hterms).1
    exact eventRule_vestingRelease hlt hrel
  | vestingCreated => rw [hty] at hb; exact absurd hb id
  | _ => rw [hty] at hacc; exact hincome hacc

/-! ## the first pass -/

lemma isCandidateEvent_of_eventRule (h : eventRule chain db e = true) :
    isCandidateEvent e = true := by
  unfold eventRule at h
  unfold isCandidateEvent
  split at h
  case h_7 hty hs | h_8 hty hs | h_9 hty hs | h_10 hty hs =>
    rw [hs, hty]
    split at h
    · next ho => exact isSome_of_eq_some ho
    · cases h
  case h_11 hty hs =>
    rw [hs, hty]
    split at h
    · next h1 h2 h3 =>
      simp only
      rw [h1, h2, h3]
      rfl
    · cases h
  case h_12 => cases h
  all_goals
    next hty hs =>
    rw [hs, hty]

/-! ## batches -/

/-- the lookups of a batch are over when each of its deposits has an answer. -/
lemma lookupDeposits_answers {l : List RelayAccountEvent} {u : Unit}
    (h : lookupDeposits chain l = .ok u) (he : e ∈ l) {head : Text} (hty : e.type = .deposit)
    (hs : splitRelayAccountEventReason e.type e.reason = some [head, txHash, network]) :
    ∃ r, chain.validDepositTx txHash network = .ok r := by
  induction l with
  | nil => cases he
  | cons e' l ih =>
    rw [lookupDeposits] at h
    rcases mem_cons.1 he with rfl | he
    · rw [hs, hty] at h
      cases hr : chain.validDepositTx txHash network with
      | error x => simp only at h; rw [hr] at h; cases h
      | ok r => exact ⟨r, rfl⟩
    · refine ih ?_ he
      split at h
      · next txHash' network' _ _ =>
        cases hr : chain.validDepositTx txHash' network' with
        | error x => rw [hr] at h; cases h
        | ok r => rw [hr] at h; exact h
      · exact h

/-- **a batch of backed events** that no prefix overdraws is accepted whole, unless the chain gives
no answer. -/
theorem validatePending_backed (hr : RecordsOk db) (hchain : chain.Confirms deposits)
    (l : List RelayAccountEvent) (hacc : ∀ e ∈ l, Accounted db e.draft)
    (hb : ∀ e ∈ l, FundsBacked deposits db e.draft)
    (hcov : ∀ n a, 0 ≤ projectedBalance db a + total ((l.map (·.posting)).take n) a) :
    validatePendingRelayAccountEvents chain db l = .ok (l, []) ∨
      ∃ x, validatePendingRelayAccountEvents chain db l = .error x := by
  cases hlook : lookupDeposits chain (l.filter isCandidateEvent) with
  | error x =>
    refine .inr ⟨x, ?_⟩
    rw [validatePendingRelayAccountEvents, hlook]
    rfl
  | ok u =>
    have hrule : ∀ e ∈ l, eventRule chain db e = true := by
      intro e he
      refine eventRule_of_backed hr (hacc e he) (hb e he) fun txHash network x hx hd => ?_
      have hty : e.type = .deposit := congrArg type hd
      have hreason : e.reason = reason3 .deposit txHash network := congrArg reason hd
      have hs := splitReason_reason3 (t := .deposit) rfl (deposits.plain _ _ _ hx) network
      have hcand : isCandidateEvent e = true := by
        rw [isCandidateEvent, hty, hreason, hs]
      obtain ⟨r, hr⟩ := lookupDeposits_answers hlook (mem_filter.2 ⟨he, hcand⟩) hty
        (by rw [hty, hreason, hs])
      rw [hr, hchain txHash network x r hx hr]
    refine .inl (validatePending_all chain db l (fun e he => ?_) hrule hcov)
    exact isCandidateEvent_of_eventRule (hrule e he)

end

end CrynuxRelay
