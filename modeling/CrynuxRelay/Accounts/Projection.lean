import Mathlib.Algebra.Order.Group.Int
import CrynuxRelay.Model.LedgerSteps

/-!
# What the projector does to the balances

* `ledger` -- the abstract ledger of a state: projected balances, pending events, cached balances;
* `validateEvents_all` -- a batch whose events follow their rules and whose debits are covered
  by the prefix before them is accepted whole;
* `EventLog.pending_mark` -- a marked batch leaves the queue, and nothing else does;
* `processPending_ok` -- the effect of a batch with a valid event.
-/

namespace CrynuxRelay

open Function List Option Tx

variable {db : Db} {s w w' : World} {invalid valid : List RelayAccountEvent}
  {chain : Chain} {batch : List RelayAccountEvent}

/-! ## the abstract ledger of a state -/

def projectedBalance (db : Db) (a : Text) : Int := (db.relayAccounts a).getD 0

/-- what `getRelayAccountFromCache` returns. -/
def cachedBalance (w : World) (a : Text) : Int :=
  (w.mem.relayAccountCache a).getD (projectedBalance w.db a)

/-- the signed sum of the pending events of an address. -/
def pendingSum (db : Db) (a : Text) : Int := total ((pendingEvents db).map (·.posting)) a

def ledger (w : World) : Ledger Text Int where
  settled := projectedBalance w.db
  queue := (pendingEvents w.db).map (·.posting)
  cached := cachedBalance w

/-! ## merging -/

lemma mergeRelayAccountEvents_eq (m : Text → Option Int) (l : List RelayAccountEvent) (a : Text) :
    mergeRelayAccountEvents m l a =
      if a ∈ l.map (·.address) then some ((m a).getD 0 + total (l.map (·.posting)) a) else m a := by
  induction l generalizing m with
  | nil => simp [mergeRelayAccountEvents]
  | cons e l ih =>
    rw [mergeRelayAccountEvents, ih, map_cons, map_cons, total_cons]
    by_cases h : a = e.address
    · subst h
      have hp : e.posting.account = e.address := rfl
      have ha : e.posting.amount = e.signed := rfl
      rw [if_pos mem_cons_self, if_pos hp, ha, update_self, getD_some, add_assoc]
      split
      · rfl
      · next hn =>
        have hz : total (l.map (·.posting)) e.address = 0 := by
          apply total_of_not_mem
          intro p hp' he
          obtain ⟨x, hx, rfl⟩ := List.mem_map.1 hp'
          exact hn (List.mem_map.2 ⟨x, hx, he⟩)
        rw [hz, add_zero]
    · have hp : e.posting.account ≠ a := fun he => h he.symm
      rw [update_of_ne h, if_neg hp, zero_add]
      by_cases hm : a ∈ l.map (·.address)
      · rw [if_pos hm, if_pos (mem_cons_of_mem _ hm)]
      · rw [if_neg hm, if_neg fun hc => hm ((mem_cons.1 hc).resolve_left h)]

lemma projectedBalance_addMergedAccounts (l : List RelayAccountEvent) (db : Db) (a : Text) :
    projectedBalance (addMergedAccounts l db) a =
      projectedBalance db a + total (l.map (·.posting)) a := by
  simp only [projectedBalance, addMergedAccounts, mergeRelayAccountEvents_eq]
  by_cases h : a ∈ l.map (·.address)
  · simp [h]
  · have hz : total (l.map (·.posting)) a = 0 := by
      apply total_of_not_mem
      intro p hp he
      obtain ⟨x, hx, rfl⟩ := List.mem_map.1 hp
      exact h (List.mem_map.2 ⟨x, hx, he⟩)
    simp only [h, if_false, hz, add_zero]

/-! ## the queue -/

lemma EventLog.ids_nodup (log : EventLog) : (log.rows.map (·.id)).Nodup := by
  rw [log.ids_eq]
  exact nodup_range'

lemma EventLog.pending_mark (log : EventLog) (p : RelayAccountEvent → Bool)
    {st : RelayAccountEventStatus} (hst : st ≠ .pending) :
    (log.mark p st).rows.filter isPending = (log.rows.filter isPending).filter fun e => !p e := by
  rw [List.filter_filter]
  show (log.rows.map fun e => if p e then { e with status := st } else e).filter isPending = _
  induction log.rows with
  | nil => rfl
  | cons e l ih =>
    rw [map_cons, filter_cons, filter_cons, ih]
    cases hp : p e with
    | true => simp [isPending, hst]
    | false => simp

lemma filter_not_mem_take {α β : Type} [DecidableEq β] (f : α → β) (l : List α) (h : (l.map f).Nodup)
    (n : Nat) : l.filter (fun e => decide (f e ∉ (l.take n).map f)) = l.drop n := by
  have hl : l.take n ++ l.drop n = l := take_append_drop n l
  rw [← hl, map_append] at h
  have hd := (nodup_append.1 h).2.2
  conv_lhs => arg 2; rw [← hl]
  rw [filter_append]
  have h1 : (l.take n).filter (fun e => decide (f e ∉ (l.take n).map f)) = [] := by
    apply filter_eq_nil_iff.2
    intro e he
    simpa using List.mem_map_of_mem he
  have h2 : (l.drop n).filter (fun e => decide (f e ∉ (l.take n).map f)) = l.drop n := by
    apply filter_eq_self.2
    intro e he
    rw [decide_eq_true_eq]
    intro hm
    exact hd _ hm _ (List.mem_map_of_mem he) rfl
  rw [h1, h2, nil_append]

/-- marking a prefix of the queue as processed takes that prefix off the queue. -/
lemma pendingEvents_markProcessed (db : Db) (n : Nat) :
    pendingEvents (markProcessed ((pendingEvents db).take n) db) = (pendingEvents db).drop n := by
  show ((db.relayAccountEvents.mark _ .processed).rows.filter isPending) = _
  have hids : ((pendingEvents db).map (·.id)).Nodup :=
    (db.relayAccountEvents.ids_nodup).sublist (filter_sublist.map _)
  rw [EventLog.pending_mark _ _ (by decide), ← filter_not_mem_take (·.id) (pendingEvents db) hids n]
  apply filter_congr
  intro e he
  have hp : isPending e = true := (mem_filter.1 he).2
  simp [hp, idsOf]

lemma markInvalid_nil_events (db : Db) :
    (markInvalid [] db).relayAccountEvents.rows = db.relayAccountEvents.rows := by
  show (db.relayAccountEvents.rows.map _) = _
  rw [map_congr_left (g := id) fun e _ => by simp [idsOf], List.map_id]

/-! ## acceptance -/

/-- `balances` knows the balance `base` of every address it has. -/
def Tracks (balances : Text → Option Int) (base : Text → Int) : Prop :=
  ∀ a b, balances a = some b → b = base a

lemma tracks_relayBalanceMap (db : Db) (addresses : List Text) :
    Tracks (relayBalanceMap db addresses) (projectedBalance db) := by
  intro a b h
  rw [relayBalanceMap] at h
  split at h
  · exact (some.inj h).symm
  · cases h

lemma Tracks.addToBalance {balances : Text → Option Int} {base : Text → Int}
    (h : Tracks balances base) (e : RelayAccountEvent) :
    Tracks (addToBalance balances e) fun a => base a + total [e.posting] a := by
  intro a b hb
  have ht : total [e.posting] a = if e.address = a then e.signed else 0 := by
    rw [total_cons, total_nil, add_zero]; rfl
  show b = base a + total [e.posting] a
  simp only [CrynuxRelay.addToBalance] at hb
  cases he : balances e.address with
  | none =>
    rw [he] at hb
    simp only at hb
    have hne : e.address ≠ a := by
      rintro rfl
      rw [he] at hb
      cases hb
    rw [ht, if_neg hne, add_zero]
    exact h a b hb
  | some x =>
    rw [he] at hb
    simp only at hb
    by_cases ha : a = e.address
    · subst ha
      rw [update_self] at hb
      rw [ht, if_pos rfl, ← h _ x he]
      exact (some.inj hb).symm
    · rw [update_of_ne ha] at hb
      rw [ht, if_neg fun e' => ha e'.symm, add_zero]
      exact h a b hb

/-- **a batch is accepted whole** when every event follows its rule and no prefix overdraws. -/
theorem validateEvents_all (rule : RelayAccountEvent → Bool) (l : List RelayAccountEvent)
    (hrule : ∀ e ∈ l, rule e = true) (balances : Text → Option Int) (base : Text → Int)
    (hb : Tracks balances base) (hcov : ∀ n a, 0 ≤ base a + total ((l.map (·.posting)).take n) a) :
    validateEvents rule balances l = (l, []) := by
  induction l generalizing balances base with
  | nil => rfl
  | cons e l ih =>
    have he : rule e = true := hrule e mem_cons_self
    have hd : debitCovered balances e = true := by
      simp only [debitCovered]
      cases hx : balances e.address with
      | none => rfl
      | some b =>
        simp only [decide_eq_true_eq]
        intro hdebit
        have hbase := hb _ _ hx
        have h1 := hcov 1 e.address
        have hp : e.posting.account = e.address := rfl
        have hs : e.posting.amount = -e.amount := by
          show e.signed = _
          rw [RelayAccountEvent.signed, if_pos hdebit]
        rw [map_cons, take_succ_cons, take_zero, total_cons, total_nil, if_pos hp, hs, add_zero] at h1
        omega
    have htail := ih (fun x hx => hrule x (mem_cons_of_mem e hx)) (addToBalance balances e)
      _ (hb.addToBalance e) (fun n a => by
        have := hcov (n + 1) a
        rw [total_cons, total_nil, add_zero, add_assoc]
        exact this)
    rw [validateEvents, he, hd, htail]
    rfl

lemma validateCandidates_eq (chain : Chain) (db : Db) (balances : Text → Option Int)
    (l : List RelayAccountEvent) :
    validateCandidates chain db balances l = validateEvents (eventRule chain db) balances l := by
  induction l generalizing balances with
  | nil => rfl
  | cons e l ih => rw [validateCandidates, validateEvents, ih, ih]

lemma lookupDeposits_ok (chain : Chain) (db : Db) (l : List RelayAccountEvent)
    (hrule : ∀ e ∈ l, eventRule chain db e = true) : lookupDeposits chain l = .ok () := by
  induction l with
  | nil => rfl
  | cons e l ih =>
    have he := hrule e mem_cons_self
    have hl := ih fun x hx => hrule x (mem_cons_of_mem e hx)
    unfold lookupDeposits
    split
    · next txHash network ht hs =>
      unfold eventRule at he
      rw [hs, ht] at he
      simp only at he
      cases hd : chain.validDepositTx txHash network with
      | error x => rw [hd] at he; cases he
      | ok d => exact hl
    · exact hl

/-- the validator accepts a batch of candidates that follow their rules and are covered. -/
lemma validatePending_all (chain : Chain) (db : Db) (l : List RelayAccountEvent)
    (hcand : ∀ e ∈ l, isCandidateEvent e = true) (hrule : ∀ e ∈ l, eventRule chain db e = true)
    (hcov : ∀ n a, 0 ≤ projectedBalance db a + total ((l.map (·.posting)).take n) a) :
    validatePendingRelayAccountEvents chain db l = .ok (l, []) := by
  have h1 : l.filter isCandidateEvent = l := filter_eq_self.2 hcand
  have h2 : (l.filter fun e => !isCandidateEvent e) = [] := by
    apply filter_eq_nil_iff.2
    intro e he
    simp [hcand e he]
  have h3 := validateEvents_all (eventRule chain db) l hrule _ _
    (tracks_relayBalanceMap db (balanceAddressSet l)) hcov
  rw [validatePendingRelayAccountEvents, h1, h2, validateCandidates_eq, h3, lookupDeposits_ok chain db l hrule]
  rfl

/-! ## the effect of a batch -/

def projectBatch (batch : List RelayAccountEvent) (db : Db) : Db :=
  markProcessed batch (addMergedAccounts batch (markInvalid [] db))

lemma processPending_ok {u : Unit} :
    Ok (processPendingRelayAccountEvents chain batch) w u w' ↔
      ∃ valid invalid, validatePendingRelayAccountEvents chain w.db batch = .ok (valid, invalid) ∧
        valid ≠ [] ∧
        w' = ⟨markProcessed valid (addMergedAccounts valid (markInvalid invalid w.db)), w.mem⟩ := by
  rw [processPendingRelayAccountEvents, ok_getDb_bind]
  cases hv : validatePendingRelayAccountEvents chain w.db batch with
  | error x => exact ⟨fun h => absurd h ok_fail, fun ⟨_, _, h, _⟩ => by cases h⟩
  | ok r =>
    simp only [ok_bind, ok_modifyDb, ok_transaction, ok_require]
    constructor
    · rintro ⟨_, _, rfl, _, _, rfl, _, _, ⟨hne, rfl⟩, rfl⟩
      exact ⟨r.1, r.2, rfl, hne, rfl⟩
    · rintro ⟨valid, invalid, ⟨⟩, hne, rfl⟩
      exact ⟨(), _, rfl, (), _, rfl, (), _, ⟨hne, rfl⟩, rfl⟩

lemma validateCandidates_sublist (chain : Chain) (db : Db) (balances : Text → Option Int)
    (l : List RelayAccountEvent) : (validateCandidates chain db balances l).1.Sublist l := by
  induction l generalizing balances with
  | nil => exact List.Sublist.slnil
  | cons e l ih =>
    rw [validateCandidates]
    split
    · exact (ih _).cons_cons e
    · exact (ih _).cons e

lemma validatePending_parts
    (h : validatePendingRelayAccountEvents chain db batch = .ok (valid, invalid)) :
    valid = (validateCandidates chain db (relayBalanceMap db (balanceAddressSet
        (batch.filter isCandidateEvent))) (batch.filter isCandidateEvent)).1 ∧
      invalid = (batch.filter fun e => !isCandidateEvent e) ++
        (validateCandidates chain db (relayBalanceMap db (balanceAddressSet
          (batch.filter isCandidateEvent))) (batch.filter isCandidateEvent)).2 := by
  rw [validatePendingRelayAccountEvents] at h
  cases hd : lookupDeposits chain (batch.filter isCandidateEvent) with
  | error e => rw [hd] at h; cases h
  | ok u =>
    rw [hd] at h
    cases h
    exact ⟨rfl, rfl⟩

lemma validatePending_sublist (h : validatePendingRelayAccountEvents chain db batch = .ok (valid,
    invalid)) : valid.Sublist batch := by
  rw [(validatePending_parts h).1]
  exact (validateCandidates_sublist _ _ _ _).trans filter_sublist

lemma processPending_fails_inv {e : Err}
    (h : Fails (processPendingRelayAccountEvents chain batch) w e w') :
    w' = w ∨ ∃ invalid, validatePendingRelayAccountEvents chain w.db batch = .ok ([], invalid) ∧
      w' = ⟨markInvalid invalid w.db, w.mem⟩ := by
  rw [processPendingRelayAccountEvents, fails_getDb_bind] at h
  cases hv : validatePendingRelayAccountEvents chain w.db batch with
  | error x =>
    rw [hv] at h
    exact .inl (fails_fail.1 h).2
  | ok r =>
    rw [hv] at h
    simp only [fails_bind, fails_modifyDb, ok_modifyDb, fails_transaction,
      fails_require, ok_require, false_or, and_false, exists_false, or_false] at h
    obtain ⟨_, _, rfl, w2, ⟨_, _, rfl, hnil, -, rfl⟩, rfl⟩ := h
    have hnil : r.1 = [] := not_not.1 hnil
    refine .inr ⟨r.2, ?_, rfl⟩
    rw [← hnil]

/-- **whatever the batch**, the rows take the amounts of some of its events. -/
theorem processPending_projected (chain : Chain) (batch : List RelayAccountEvent) (w : World) :
    ∃ valid : List RelayAccountEvent, valid.Sublist batch ∧ ∀ a,
      projectedBalance (after (processPendingRelayAccountEvents chain batch) w).db a =
        projectedBalance w.db a + total (valid.map (·.posting)) a := by
  have hnone : ∀ a, projectedBalance w.db a =
      projectedBalance w.db a + total (([] : List RelayAccountEvent).map (·.posting)) a := by
    intro a
    rw [map_nil, total_nil, add_zero]
  rcases ok_or_fails (processPendingRelayAccountEvents chain batch) w with ⟨u, h⟩ | ⟨e, h⟩
  · obtain ⟨valid, invalid, hv, -, hw⟩ := processPending_ok.1 h
    refine ⟨valid, validatePending_sublist hv, fun a => ?_⟩
    rw [hw]
    exact projectedBalance_addMergedAccounts valid (markInvalid invalid w.db) a
  · refine ⟨[], nil_sublist _, fun a => ?_⟩
    rcases processPending_fails_inv h with hw | ⟨invalid, -, hw⟩
    all_goals
      rw [hw]
      exact hnone a

lemma projectedBalance_projectBatch (batch : List RelayAccountEvent) (db : Db) (a : Text) :
    projectedBalance (projectBatch batch db) a =
      projectedBalance db a + total (batch.map (·.posting)) a :=
  projectedBalance_addMergedAccounts batch (markInvalid [] db) a

lemma pendingEvents_projectBatch (db : Db) (n : Nat) :
    pendingEvents (projectBatch ((pendingEvents db).take n) db) = (pendingEvents db).drop n := by
  have h : pendingEvents (addMergedAccounts ((pendingEvents db).take n) (markInvalid [] db)) =
      pendingEvents db := congrArg (List.filter isPending) (markInvalid_nil_events db)
  have := pendingEvents_markProcessed
    (addMergedAccounts ((pendingEvents db).take n) (markInvalid [] db)) n
  rwa [h] at this

lemma pendingSum_take_add_drop (db : Db) (n : Nat) (a : Text) :
    total (((pendingEvents db).take n).map (·.posting)) a +
      total (((pendingEvents db).drop n).map (·.posting)) a = pendingSum db a := by
  rw [← total_append, ← map_append, take_append_drop]
  rfl

end CrynuxRelay
