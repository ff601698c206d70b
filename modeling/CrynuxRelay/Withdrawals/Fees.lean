import CrynuxRelay.Accounts.Funding
import CrynuxRelay.Accounts.Restart
import Mathlib.Data.Rat.Floor
import Mathlib.Tactic.Linarith

/-!
# The fee of a withdrawal

* `checkWithdrawalFeeTiers` -- the tiers that a configuration may have;
* `FeeRule` -- the fee as it is meant: fixed, and the share of the highest tier that is reached;
* `WithdrawalOp` -- withdrawals, resolutions and the projector, which releases a record for its resolution;
* `exec_terms` -- no later operation changes what a record says;
* `withdrawal_refunded` -- **the charge is the amount and the fee, and it is what a rejection refunds**.
-/

namespace CrynuxRelay

open Table Tx List

variable {amount : Int} {tiers : List (Nat × Rat)} {net : FundingNetwork} {w w' : World} {id : Nat}

/-! ## tiers -/

def checkTiersFrom : Option Nat → List (Nat × Rat) → Bool
  | _, [] => true
  | prev, tier :: tiers =>
    prev.all (· < tier.1) && decide (0 ≤ tier.2 ∧ tier.2 < 1) && checkTiersFrom (some tier.1) tiers

def checkWithdrawalFeeTiers : List (Nat × Rat) → Bool
  | [] => true
  | tier :: tiers => decide (tier.1 = 0) && checkTiersFrom none (tier :: tiers)

def HighestTier (amount : Int) (tiers : List (Nat × Rat)) (tier : Nat × Rat) : Prop :=
  tier ∈ tiers ∧ etherToWei tier.1 ≤ amount ∧ ∀ t ∈ tiers, etherToWei t.1 ≤ amount → t.1 ≤ tier.1

/-- the fee that a configuration stands for. -/
structure FeeRule (net : FundingNetwork) (amount : Int) : Prop where
  share : (∃ tier, HighestTier amount net.withdrawalFeeTiers tier ∧
      calculateWithdrawalFee net amount = etherToWei net.withdrawalFee + ⌊(amount : ℚ) * tier.2⌋) ∨
    (∀ t ∈ net.withdrawalFeeTiers, amount < etherToWei t.1) ∧
      calculateWithdrawalFee net amount = etherToWei net.withdrawalFee
  bounded : calculateWithdrawalFee net amount ≤ etherToWei net.withdrawalFee + amount

lemma checkTiersFrom_spec {prev : Option Nat} (h : checkTiersFrom prev tiers = true) :
    (∀ p, prev = some p → ∀ t ∈ tiers, p < t.1) ∧ tiers.Pairwise (fun t t' => t.1 < t'.1) ∧
      ∀ t ∈ tiers, 0 ≤ t.2 ∧ t.2 < 1 := by
  induction tiers generalizing prev with
  | nil => simp
  | cons tier tiers ih =>
    simp only [checkTiersFrom, Bool.and_eq_true, decide_eq_true_eq] at h
    obtain ⟨⟨hprev, hratio⟩, htail⟩ := h
    obtain ⟨hgrow, hpair, hratios⟩ := ih htail
    refine ⟨?_, pairwise_cons.2 ⟨hgrow tier.1 rfl, hpair⟩, forall_mem_cons.2 ⟨hratio, hratios⟩⟩
    rintro p rfl
    have hp : p < tier.1 := of_decide_eq_true hprev
    exact forall_mem_cons.2 ⟨hp, fun t ht => hp.trans (hgrow tier.1 rfl t ht)⟩

variable (amount) in
/-- the loop stops at the first minimum above the amount, and no later one is below it. -/
lemma withdrawalFeeRatio_spec (h : tiers.Pairwise fun t t' => t.1 < t'.1) (ratio : Rat) :
    (∃ tier, HighestTier amount tiers tier ∧ withdrawalFeeRatio amount ratio tiers = tier.2) ∨
      (∀ t ∈ tiers, amount < etherToWei t.1) ∧ withdrawalFeeRatio amount ratio tiers = ratio := by
  induction tiers generalizing ratio with
  | nil => simp [withdrawalFeeRatio]
  | cons tier tiers ih =>
    obtain ⟨hlt, hpair⟩ := pairwise_cons.1 h
    rw [withdrawalFeeRatio]
    split
    · next hstop =>
      refine .inr ⟨forall_mem_cons.2 ⟨hstop, fun t ht => ?_⟩, rfl⟩
      have := hlt t ht
      unfold etherToWei at *
      omega
    · next hreach =>
      left
      rcases ih hpair tier.2 with ⟨t, ⟨hmem, hle, hmax⟩, hr⟩ | ⟨hnone, hr⟩
      · exact ⟨t, ⟨mem_cons_of_mem _ hmem, hle,
          forall_mem_cons.2 ⟨fun _ => (hlt t hmem).le, hmax⟩⟩, hr⟩
      · refine ⟨tier, ⟨mem_cons_self, not_lt.1 hreach, forall_mem_cons.2
          ⟨fun _ => le_refl _, fun t ht htle => ?_⟩⟩, hr⟩
        exact absurd htle (not_le.2 (hnone t ht))

lemma calculateWithdrawalFee_eq (ha : 0 ≤ amount)
    (hr : 0 ≤ withdrawalFeeRatio amount 0 net.withdrawalFeeTiers) :
    calculateWithdrawalFee net amount = etherToWei net.withdrawalFee +
      ⌊(amount : ℚ) * withdrawalFeeRatio amount 0 net.withdrawalFeeTiers⌋ := by
  unfold calculateWithdrawalFee
  generalize withdrawalFeeRatio amount 0 net.withdrawalFeeTiers = ratio at hr ⊢
  dsimp only
  split
  · next hpos =>
    have hnum : 0 ≤ amount * ratio.num := mul_nonneg ha (Rat.num_pos.2 hpos).le
    have hval : (amount : ℚ) * ratio = ((amount * ratio.num : ℤ) : ℚ) / (ratio.den : ℚ) := by
      rw [Int.cast_mul, mul_div_assoc, Rat.num_div_den]
    rw [hval, Rat.floor_intCast_div_natCast, Int.tdiv_eq_ediv_of_nonneg hnum]
  · next hpos => simp [le_antisymm (not_lt.1 hpos) hr]

lemma feeRule (hnet : checkWithdrawalFeeTiers net.withdrawalFeeTiers = true) (ha : 0 ≤ amount) :
    FeeRule net amount := by
  have hspec : net.withdrawalFeeTiers.Pairwise (fun t t' => t.1 < t'.1) ∧
      ∀ t ∈ net.withdrawalFeeTiers, 0 ≤ t.2 ∧ t.2 < 1 := by
    cases htiers : net.withdrawalFeeTiers with
    | nil => simp
    | cons tier tiers =>
      rw [htiers, checkWithdrawalFeeTiers, Bool.and_eq_true] at hnet
      exact (checkTiersFrom_spec hnet.2).2
  rcases withdrawalFeeRatio_spec amount hspec.1 0 with ⟨tier, htier, hr⟩ | ⟨hnone, hr⟩
  · obtain ⟨hpos, hlt⟩ := hspec.2 tier htier.1
    have hfee := calculateWithdrawalFee_eq ha (hr ▸ hpos)
    rw [hr] at hfee
    have hfloor : ⌊(amount : ℚ) * tier.2⌋ ≤ amount := by
      have ha' : (0 : ℚ) ≤ amount := Int.cast_nonneg ha
      refine Int.cast_le.1 ((Int.floor_le _).trans (?_ : _ ≤ (amount : ℚ)))
      nlinarith
    exact ⟨.inl ⟨tier, htier, hfee⟩, by omega⟩
  · have hfee := calculateWithdrawalFee_eq ha hr.ge
    simp only [hr, mul_zero, Int.floor_zero, add_zero] at hfee
    exact ⟨.inr ⟨hnone, hfee⟩, by omega⟩

/-! ## the record -/

/-- withdrawals, their resolutions and rounds of the projector, each with the configuration of its time. -/
inductive WithdrawalOp
  | withdraw (env : Env) (address benefitAddress : Text) (amount : Int) (network : Text)
  | fulfill (env : Env) (withdrawID : Nat) (txHash : Text)
  | reject (withdrawID : Nat)
  | project (chain : Chain) (limit : Nat)

def WithdrawalOp.exec : WithdrawalOp → World → World
  | .withdraw env a b x network => after (CrynuxRelay.withdraw env a b x network)
  | .fulfill env id txHash => after (fulfillWithdraw env id txHash)
  | .reject id => after (rejectWithdraw id)
  | .project chain limit => after (projectPending chain limit)

def termsOf (w : World) (id : Nat) : Option (Text × Int × Int) :=
  (w.db.withdrawRecords.get id).map WithdrawRecord.terms

lemma exec_terms (op : WithdrawalOp) {x : Text × Int × Int} (h : termsOf w id = some x) :
    termsOf (op.exec w) id = some x := by
  have hfail : ∀ {α : Type} {y : Relay α} {e : Err} [Tx.KeptOnFail Undone y],
      Fails y w e (after y w) → termsOf (after y w) id = some x := by
    intro α y e hu hy
    rwa [termsOf, (hu.onFail _ _ _ hy).db]
  cases op with
  | withdraw env a b y network =>
    rcases ok_or_fails (CrynuxRelay.withdraw env a b y network) w with ⟨n, hok⟩ | ⟨e, hy⟩
    · obtain ⟨net, fee, ev, -, -, -, hnone, -, -, hrows, -⟩ := withdraw_ok hok
      have hne : id ≠ n := fun he => by rw [termsOf, he, hnone] at h; cases h
      rw [termsOf, WithdrawalOp.exec, hrows, if_neg hne]
      exact h
    · exact hfail hy
  | fulfill env n txHash =>
    rcases ok_or_fails (fulfillWithdraw env n txHash) w with ⟨u, hok⟩ | ⟨e, hy⟩
    · obtain ⟨r, ds, -, -, -, hsame, -⟩ := fulfillWithdraw_ok hok
      exact (hsame id).trans h
    · exact hfail hy
  | reject n =>
    rcases ok_or_fails (rejectWithdraw n) w with ⟨u, hok⟩ | ⟨e, hy⟩
    · obtain ⟨r, ds, -, -, -, hsame, -⟩ := rejectWithdraw_ok hok
      exact (hsame id).trans h
    · exact hfail hy
  | project chain limit =>
    by_cases hnil : (pendingEvents w.db).take limit = []
    · have hidle : WithdrawalOp.exec (.project chain limit) w = w := by
        show after (Tx.when ((pendingEvents w.db).take limit ≠ []) _) w = w
        rw [decide_eq_false (not_not.2 hnil)]
        rfl
      rwa [hidle]
    · have hround : WithdrawalOp.exec (.project chain limit) w =
          after (processPendingRelayAccountEvents chain ((pendingEvents w.db).take limit)) w := by
        show after (Tx.when ((pendingEvents w.db).take limit ≠ []) _) w = _
        rw [decide_eq_true hnil]
        rfl
      rw [hround]
      rcases ok_or_fails (processPendingRelayAccountEvents chain ((pendingEvents w.db).take limit)) w with
        ⟨u, hok⟩ | ⟨e, hy⟩
      · obtain ⟨valid, invalid, -, -, hw⟩ := processPending_ok.1 hok
        rw [hw]
        exact ((sameWithdrawals_markRecords _ [] _ _ id).trans (sameWithdrawals_markRecords _ [] _ _ id)).trans h
      · rcases processPending_fails_inv hy with hw | ⟨invalid, -, hw⟩
        · rwa [hw]
        · rw [hw]
          exact (sameWithdrawals_markRecords _ [] _ _ id).trans h

/-- what the resolutions of a record post, under whatever configuration. -/
structure Resolves (r : WithdrawRecord) (w : World) : Prop where
  reject : ∀ u w', Ok (rejectWithdraw r.id) w u w' → ∃ ds, FundsEffect ds w w' ∧
    (ds = [] ∧ r.status = .failed ∨ ds = [withdrawRefundDraft r])
  fulfill : ∀ env txHash u w', Ok (fulfillWithdraw env r.id txHash) w u w' → ∃ ds,
    FundsEffect ds w w' ∧ (ds = [] ∧ (r.status = .success ∨ r.withdrawalFee ≤ 0) ∨
      0 < r.withdrawalFee ∧ ds = [feeIncomeDraft env r])

lemma resolves_of_get {r : WithdrawRecord} (h : w.db.withdrawRecords.get id = some r) :
    Resolves r w := by
  obtain rfl := key_of_get h
  constructor
  · intro u w' hok
    obtain ⟨r', ds, hr', hds, heff, -⟩ := rejectWithdraw_ok hok
    cases h.symm.trans hr'
    exact ⟨ds, heff, hds⟩
  · intro env txHash u w' hok
    obtain ⟨r', ds, hr', hds, heff, -⟩ := fulfillWithdraw_ok hok
    cases h.symm.trans hr'
    exact ⟨ds, heff, hds⟩

/-- **Withdrawals.**  The fee is the one that the configuration stands for; a withdrawal charges the amount
and the fee of its record; and whatever withdrawals, resolutions and rounds of the projector follow, under
whatever configurations, a rejection refunds that charge and a fulfilment pays that fee. -/
theorem withdrawal_refunded : (∀ (net : FundingNetwork) (amount : Int),
      checkWithdrawalFeeTiers net.withdrawalFeeTiers = true → 0 ≤ amount → FeeRule net amount) ∧
    ∀ (env : Env) (address benefitAddress : Text) (amount : Int) (network : Text) (w : World) (id : Nat)
      (w' : World), Ok (withdraw env address benefitAddress amount network) w id w' →
      ∃ net fee, env.fundingNetwork network = some net ∧
        fee = withdrawalFeeOf env net address amount ∧
        FundsEffect [withdrawDraft id address (amount + fee)] w w' ∧
        ∀ ops, ∃ r, (run WithdrawalOp.exec ops w').db.withdrawRecords.get id = some r ∧
          r.terms = (address, amount, fee) ∧ Resolves r (run WithdrawalOp.exec ops w') := by
  refine ⟨fun net amount hnet ha => feeRule hnet ha, fun env a b x network w id w' h => ?_⟩
  obtain ⟨net, fee, n, hnet, hfee, -, -, -, heff, hrows, -⟩ := withdraw_ok h
  refine ⟨net, fee, hnet, hfee, heff, fun ops => ?_⟩
  have hstart : termsOf w' id = some (a, x, fee) := by
    rw [termsOf, hrows, if_pos rfl]
    rfl
  have hstep : ∀ s op, termsOf s id = some (a, x, fee) → True →
      termsOf (WithdrawalOp.exec op s) id = some (a, x, fee) := fun s op hs _ => exec_terms op hs
  have hrun := run_invariant hstep ops w' (Along.of_forall (fun _ _ => trivial) ops w') hstart
  obtain ⟨r, hr, hterms⟩ := Option.map_eq_some_iff.1 hrun
  exact ⟨r, hr, hterms, resolves_of_get hr⟩

/-! ## a withdrawal of five with a fee of one -/

def feeEnv : Env :=
  { fundingNetwork := fun _ => some { withdrawalFee := 1, withdrawalMin := 0, maxWithdrawalsPerDay := 1 }
    withdrawalFeeAddress := ['f'] }

def fundedAccount : World :=
  ⟨{ relayAccounts := fun a => if a = ['a'] then some (etherToWei 10) else none }, {}⟩

def projectedWithdrawal : World :=
  run WithdrawalOp.exec [.project silentChain 50]
    (after (withdraw feeEnv ['a'] ['b'] (etherToWei 5) ['e']) fundedAccount)

/-- the projected record can be rejected, which refunds six, and fulfilled, which pays one. -/
theorem withdrawal_refunded_at_projected : ∃ w₁ w₂, Ok (rejectWithdraw 1) projectedWithdrawal () w₁ ∧
      FundsEffect [⟨.withdrawRefund, reason2 .withdrawRefund (Text.decimal 1), ['a'], etherToWei 6⟩]
        projectedWithdrawal w₁ ∧
      Ok (fulfillWithdraw feeEnv 1 ['t']) projectedWithdrawal () w₂ ∧
      FundsEffect [⟨.withdrawFeeIncome, reason2 .withdrawFeeIncome (Text.decimal 1), ['f'], etherToWei 1⟩]
        projectedWithdrawal w₂ := by
  obtain ⟨net, fee, -, -, -, hops⟩ := withdrawal_refunded.2 feeEnv ['a'] ['b'] (etherToWei 5) ['e']
    fundedAccount 1 _ (ok_of_toOption (by decide +kernel))
  obtain ⟨r, hr, -, hres⟩ := hops [.project silentChain 50]
  have hrow : (projectedWithdrawal.db.withdrawRecords.get 1).map (fun r => (r.id, r.terms, r.status)) =
      some (1, (['a'], etherToWei 5, etherToWei 1), .pending) := by decide +kernel
  rw [projectedWithdrawal, hr] at hrow
  obtain ⟨rid, ⟨haddress, hamount, hfee⟩, hst⟩ : r.id = 1 ∧
      (r.address = ['a'] ∧ r.amount = etherToWei 5 ∧ r.withdrawalFee = etherToWei 1) ∧ r.status = .pending := by
    simpa [WithdrawRecord.terms] using hrow
  have hreject : Ok (rejectWithdraw 1) projectedWithdrawal () _ := ok_of_toOption (by decide +kernel)
  have hfulfill : Ok (fulfillWithdraw feeEnv 1 ['t']) projectedWithdrawal () _ :=
    ok_of_toOption (by decide +kernel)
  refine ⟨_, _, hreject, ?_, hfulfill, ?_⟩
  · obtain ⟨ds, heff, ⟨-, hfailed⟩ | rfl⟩ := hres.reject () _ (by rw [rid]; exact hreject)
    · exact absurd (hst.symm.trans hfailed) (by decide)
    · rwa [withdrawRefundDraft, rid, haddress, hamount, hfee] at heff
  · obtain ⟨ds, heff, ⟨-, hdone | hno⟩ | ⟨-, rfl⟩⟩ := hres.fulfill feeEnv ['t'] () _ (by rw [rid]; exact hfulfill)
    · exact absurd (hst.symm.trans hdone) (by decide)
    · exact absurd (hfee ▸ hno) (by decide)
    · rwa [feeIncomeDraft, rid, hfee] at heff

end CrynuxRelay
