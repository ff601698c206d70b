import Mathlib.Data.List.Perm.Subperm
import CrynuxRelay.Base.Ranges
import CrynuxRelay.Model.ChainQueue

/-!
# The attempts of one transaction

A transaction that fails is queued again as a new row, which refers to the original.

* `SameAttempt`, `RowsStay` -- what never changes in a row;
* `ChainOk` -- the attempts of an original are numbered, and only the last one can be open;
* `ChainOk.open_le_one`, `ChainOk.retries_le` -- one attempt is open at most, and there are no more
  retries than the original allows;
* `TraceOk` -- every retry was created from an attempt that is older;
* `TraceOk.retry_iff` -- the retries that are found by the id of the original are all there are.
-/

namespace CrynuxRelay

open List Option Table BlockchainTransaction

variable {txs txs' : TransactionTable} {r r' tx v : BlockchainTransaction}
  {id o : Nat} {ro : BlockchainTransaction}

/-! ## ids -/

lemma lt_nextID (h : txs.get id = some r) : id < nextID txs :=
  Nat.lt_succ_of_le (le_foldr_max (mem_keys_of_get h))

lemma get_nextID (txs : TransactionTable) : txs.get (nextID txs) = none := by
  cases h : txs.get (nextID txs) with
  | none => rfl
  | some r => exact absurd (lt_nextID h) (Nat.lt_irrefl _)

lemma get_insert_nextID (txs : TransactionTable) (h : r.id = nextID txs)
    (id : Nat) : (txs.insert r).get id = if id = r.id then some r else txs.get id :=
  get_insert txs r id (by rw [h, get_nextID])

lemma get_insert_cases (h : r.id = nextID txs) (hv : (txs.insert r).get id = some v) :
    (id = r.id ∧ v = r) ∨ (id ≠ r.id ∧ txs.get id = some v) := by
  rw [get_insert_nextID txs h] at hv
  split at hv
  · next hid =>
    cases hv
    exact .inl ⟨hid, rfl⟩
  · next hid => exact .inr ⟨hid, hv⟩

lemma get_insert_old
    (h : r.id = nextID txs) (hv : txs.get id = some v) : (txs.insert r).get id = some v := by
  have hlt := lt_nextID hv
  rw [get_insert_nextID txs h, if_neg (by omega), hv]

/-! ## what never changes in a row -/

structure SameAttempt (r r' : BlockchainTransaction) : Prop where
  id : r'.id = r.id
  createdAt : r'.createdAt = r.createdAt
  payload : r'.payload = r.payload
  retryCount : r'.retryCount = r.retryCount
  maxRetries : r'.maxRetries = r.maxRetries
  origin : r'.retryTransactionID = r.retryTransactionID

lemma SameAttempt.refl (r : BlockchainTransaction) : SameAttempt r r := ⟨rfl, rfl, rfl, rfl, rfl, rfl⟩

lemma SameAttempt.trans {a b c : BlockchainTransaction} (h : SameAttempt a b) (h' : SameAttempt b c) :
    SameAttempt a c :=
  ⟨h'.id.trans h.id, h'.createdAt.trans h.createdAt, h'.payload.trans h.payload,
    h'.retryCount.trans h.retryCount, h'.maxRetries.trans h.maxRetries, h'.origin.trans h.origin⟩

def BlockchainTransaction.root (tx : BlockchainTransaction) : Nat := tx.retryTransactionID.getD tx.id

def BlockchainTransaction.isOpen (tx : BlockchainTransaction) : Bool :=
  tx.status = .pending ∨ tx.status = .sent

lemma SameAttempt.root (h : SameAttempt r r') : r'.root = r.root := by
  rw [BlockchainTransaction.root, BlockchainTransaction.root, h.origin, h.id]

/-- rows stay, and do not become pending again. -/
def RowsStay (txs txs' : TransactionTable) : Prop :=
  ∀ id r, txs.get id = some r →
    ∃ r', txs'.get id = some r' ∧ SameAttempt r r' ∧ (r.status ≠ .pending → r'.status ≠ .pending)

def RowsFrom (txs txs' : TransactionTable) : Prop :=
  ∀ id r', txs'.get id = some r' → ∃ r, txs.get id = some r ∧ SameAttempt r r'

lemma RowsStay.refl (txs : TransactionTable) : RowsStay txs txs :=
  fun _ r h => ⟨r, h, SameAttempt.refl r, fun hs => hs⟩

lemma RowsStay.trans {a b c : TransactionTable} (h : RowsStay a b) (h' : RowsStay b c) : RowsStay a c := by
  intro id r hr
  obtain ⟨r1, hr1, hsame1, hs1⟩ := h id r hr
  obtain ⟨r2, hr2, hsame2, hs2⟩ := h' id r1 hr1
  exact ⟨r2, hr2, hsame1.trans hsame2, fun hs => hs2 (hs1 hs)⟩

lemma RowsStay.isSome (h : RowsStay txs txs')
    (hs : (txs.get id).isSome = true) : (txs'.get id).isSome = true := by
  obtain ⟨r, hr⟩ := isSome_iff_exists.1 hs
  obtain ⟨r', hr', -⟩ := h id r hr
  rw [hr']
  rfl

lemma RowsStay.insert (txs : TransactionTable) (h : r.id = nextID txs) :
    RowsStay txs (txs.insert r) :=
  fun _ v hv => ⟨v, get_insert_old h hv, SameAttempt.refl v, fun hs => hs⟩

section modify
variable (txs : TransactionTable) (k : Nat) (f : BlockchainTransaction → BlockchainTransaction)
  (hf : ∀ v, (f v).id = v.id)

lemma RowsStay.modify (hsame : ∀ v, SameAttempt v (f v)) (hs : ∀ v, (f v).status ≠ .pending) :
    RowsStay txs (txs.modify k f hf) := by
  intro id v hv
  rw [get_modify]
  split
  · next heq =>
    subst heq
    exact ⟨f v, by rw [hv]; rfl, hsame v, fun _ => hs v⟩
  · exact ⟨v, hv, SameAttempt.refl v, fun h => h⟩

lemma RowsFrom.modify (hsame : ∀ v, SameAttempt v (f v)) : RowsFrom txs (txs.modify k f hf) := by
  intro id v' hv'
  rw [get_modify] at hv'
  split at hv'
  · next heq =>
    subst heq
    obtain ⟨v, hv, rfl⟩ := map_eq_some_iff.1 hv'
    exact ⟨v, hv, hsame v⟩
  · exact ⟨v', hv', SameAttempt.refl v'⟩

end modify

section writes
variable (now : Nat) (tx : BlockchainTransaction) (txs : TransactionTable)

lemma rowsStay_markSent (txHash : Text) (nonce : Nat) : RowsStay txs (markSent now tx txHash nonce txs) :=
  RowsStay.modify txs _ _ _ (fun v => ⟨rfl, rfl, rfl, rfl, rfl, rfl⟩) fun v => by simp

lemma rowsStay_markConfirmed : RowsStay txs (markConfirmed tx txs) :=
  RowsStay.modify txs _ _ _ (fun v => ⟨rfl, rfl, rfl, rfl, rfl, rfl⟩) fun v => by simp

lemma rowsStay_markFailed : RowsStay txs (markFailed tx txs) :=
  RowsStay.modify txs _ _ _ (fun v => ⟨rfl, rfl, rfl, rfl, rfl, rfl⟩) fun v => by simp

lemma rowsFrom_markSent (txHash : Text) (nonce : Nat) : RowsFrom txs (markSent now tx txHash nonce txs) :=
  RowsFrom.modify txs _ _ _ fun _ => ⟨rfl, rfl, rfl, rfl, rfl, rfl⟩

lemma rowsFrom_markConfirmed : RowsFrom txs (markConfirmed tx txs) :=
  RowsFrom.modify txs _ _ _ fun _ => ⟨rfl, rfl, rfl, rfl, rfl, rfl⟩

lemma rowsFrom_markFailed : RowsFrom txs (markFailed tx txs) :=
  RowsFrom.modify txs _ _ _ fun _ => ⟨rfl, rfl, rfl, rfl, rfl, rfl⟩

lemma rowsStay_failAndRetry (interval : Nat) : RowsStay txs (failAndRetry now interval tx txs) := by
  rw [failAndRetry]
  split
  · exact (rowsStay_markFailed tx txs).trans (RowsStay.insert _ rfl)
  · exact rowsStay_markFailed tx txs

lemma rowsStay_confirmTransaction (decision : ConfirmDecision) :
    RowsStay txs (confirmTransaction now tx txs decision) := by
  cases decision with
  | wait => exact RowsStay.refl txs
  | confirmed => exact rowsStay_markConfirmed tx txs
  | failed interval => exact rowsStay_failAndRetry now tx txs interval

end writes

/-! ## the attempts of an original -/

structure ChainOk (txs : TransactionTable) : Prop where
  original : ∀ id r, txs.get id = some r → r.retryTransactionID = none → r.retryCount = 0
  retry : ∀ id r o, txs.get id = some r → r.retryTransactionID = some o →
    (∃ ro, txs.get o = some ro ∧ ro.retryTransactionID = none ∧ ro.maxRetries = r.maxRetries) ∧
      0 < r.retryCount ∧ r.retryCount ≤ r.maxRetries
  numbered : ∀ i j r r', txs.get i = some r → txs.get j = some r' → r.root = r'.root → i ≠ j →
    r.retryCount ≠ r'.retryCount
  last : ∀ i j r r', txs.get i = some r → txs.get j = some r' → r.root = r'.root → i ≠ j →
    r.isOpen = true → r'.retryCount < r.retryCount

lemma chainOk_empty : ChainOk Table.empty :=
  ⟨fun id r h => by simp at h, fun id r o h => by simp at h, fun i j r r' h => by simp at h,
    fun i j r r' h => by simp at h⟩

lemma ChainOk.root_row (h : ChainOk txs) (hr : txs.get id = some r) :
    ∃ ro, txs.get r.root = some ro ∧ ro.retryTransactionID = none ∧ ro.maxRetries = r.maxRetries := by
  cases ho : r.retryTransactionID with
  | none =>
    refine ⟨r, ?_, ho, rfl⟩
    rw [root, ho, getD_none, key_of_get hr, hr]
  | some o =>
    rw [root, ho]
    exact (h.retry id r o hr ho).1

lemma ChainOk.open_unique (h : ChainOk txs) {i j : Nat} (hr : txs.get i = some r) (hr' : txs.get j = some r')
    (hroot : r.root = r'.root) (ho : r.isOpen = true) (ho' : r'.isOpen = true) : i = j := by
  by_contra hij
  have h1 := h.last i j r r' hr hr' hroot hij ho
  have h2 := h.last j i r' r hr' hr hroot.symm (Ne.symm hij) ho'
  omega

lemma ChainOk.rewrite (h : ChainOk txs) (hstay : RowsStay txs txs') (hfrom : RowsFrom txs txs')
    (hopen : ∀ id r r', txs.get id = some r → txs'.get id = some r' → r'.isOpen = true →
      r.isOpen = true) : ChainOk txs' where
  original id r' hr' ho := by
    obtain ⟨r, hr, hsame⟩ := hfrom id r' hr'
    rw [hsame.retryCount]
    exact h.original id r hr (hsame.origin ▸ ho)
  retry id r' o hr' ho := by
    obtain ⟨r, hr, hsame⟩ := hfrom id r' hr'
    obtain ⟨⟨ro, hro, hnone, hmax⟩, hpos, hle⟩ := h.retry id r o hr (hsame.origin ▸ ho)
    obtain ⟨ro', hro', hsame', -⟩ := hstay o ro hro
    rw [hsame.retryCount, hsame.maxRetries]
    exact ⟨⟨ro', hro', hsame'.origin.trans hnone, hsame'.maxRetries.trans hmax⟩, hpos, hle⟩
  numbered i j r r' hr hr' hroot hij := by
    obtain ⟨q, hq, hsame⟩ := hfrom i r hr
    obtain ⟨q', hq', hsame'⟩ := hfrom j r' hr'
    rw [hsame.root, hsame'.root] at hroot
    rw [hsame.retryCount, hsame'.retryCount]
    exact h.numbered i j q q' hq hq' hroot hij
  last i j r r' hr hr' hroot hij ho := by
    obtain ⟨q, hq, hsame⟩ := hfrom i r hr
    obtain ⟨q', hq', hsame'⟩ := hfrom j r' hr'
    rw [hsame.root, hsame'.root] at hroot
    rw [hsame.retryCount, hsame'.retryCount]
    exact h.last i j q q' hq hq' hroot hij (hopen i q r hq hr ho)

/-- a new row, later than all the other ones of its chain. -/
lemma ChainOk.insert (h : ChainOk txs)
    (hid : r.id = nextID txs) (horiginal : r.retryTransactionID = none → r.retryCount = 0)
    (hretry : ∀ o, r.retryTransactionID = some o →
      (∃ ro, txs.get o = some ro ∧ ro.retryTransactionID = none ∧ ro.maxRetries = r.maxRetries) ∧
        0 < r.retryCount ∧ r.retryCount ≤ r.maxRetries)
    (hless : ∀ j v, txs.get j = some v → v.root = r.root →
      v.isOpen = false ∧ v.retryCount < r.retryCount) : ChainOk (txs.insert r) := by
  refine ⟨fun id v hv hvo => ?_, fun id v o hv hvo => ?_, fun i j v v' hv hv' hvv hij => ?_,
    fun i j v v' hv hv' hvv hij hopen => ?_⟩
  · rcases get_insert_cases hid hv with ⟨-, rfl⟩ | ⟨-, hv⟩
    · exact horiginal hvo
    · exact h.original id v hv hvo
  · have hold : (∃ ro, txs.get o = some ro ∧ ro.retryTransactionID = none ∧
        ro.maxRetries = v.maxRetries) ∧ 0 < v.retryCount ∧ v.retryCount ≤ v.maxRetries := by
      rcases get_insert_cases hid hv with ⟨-, rfl⟩ | ⟨-, hv⟩
      · exact hretry o hvo
      · exact h.retry id v o hv hvo
    obtain ⟨⟨ro, hro, hnone, hmax⟩, hrest⟩ := hold
    exact ⟨⟨ro, get_insert_old hid hro, hnone, hmax⟩, hrest⟩
  · have := h.numbered i j v v'
    rcases get_insert_cases hid hv with ⟨hi, rfl⟩ | ⟨-, hold⟩
    all_goals rcases get_insert_cases hid hv' with ⟨hj, rfl⟩ | ⟨-, hold'⟩
    all_goals grind
  · have := h.last i j v v'
    rcases get_insert_cases hid hv with ⟨hi, rfl⟩ | ⟨-, hold⟩
    all_goals rcases get_insert_cases hid hv' with ⟨hj, rfl⟩ | ⟨-, hold'⟩
    all_goals grind

/-! ## the writes of the services -/

lemma ChainOk.queueTransaction (h : ChainOk txs) (now : Nat) (payload : TransactionPayload)
    (maxRetries : Nat) : ChainOk (queueTransaction now payload maxRetries txs) :=
  h.insert rfl (fun _ => rfl) (fun _ ho => nomatch ho) fun _ _ hv hroot =>
    (h.root_row hv).elim fun _ hro => absurd (lt_nextID hro.1) (hroot ▸ Nat.lt_irrefl _)

/-- a row is written that is not open afterwards, or was open before. -/
lemma ChainOk.modify (h : ChainOk txs) {k : Nat} {f : BlockchainTransaction → BlockchainTransaction}
    {hf : ∀ v, (f v).id = v.id} (hsame : ∀ v, SameAttempt v (f v))
    (hstay : RowsStay txs (txs.modify k f hf)) (hopen : ∀ v, txs.get k = some v →
    (f v).isOpen = true → v.isOpen = true) : ChainOk (txs.modify k f hf) := by
  refine h.rewrite hstay (RowsFrom.modify txs k f hf hsame) fun id v v' hv hv' ho => ?_
  rw [get_modify] at hv'
  split at hv'
  · next heq =>
    subst heq
    rw [hv] at hv'
    cases hv'
    exact hopen v hv ho
  · rw [hv] at hv'
    cases hv'
    exact ho

lemma ChainOk.markSent (h : ChainOk txs) (hr : txs.get tx.id = some r) (ho : r.isOpen = true) (now : Nat)
    (txHash : Text) (nonce : Nat) : ChainOk (markSent now tx txHash nonce txs) :=
  h.modify (fun _ => ⟨rfl, rfl, rfl, rfl, rfl, rfl⟩) (rowsStay_markSent now tx txs txHash nonce)
    fun _ hv _ => some.inj (hr.symm.trans hv) ▸ ho

lemma ChainOk.markConfirmed (h : ChainOk txs) (tx : BlockchainTransaction) :
    ChainOk (markConfirmed tx txs) :=
  h.modify (fun _ => ⟨rfl, rfl, rfl, rfl, rfl, rfl⟩) (rowsStay_markConfirmed tx txs)
    fun _ _ ho => nomatch ho

lemma ChainOk.markFailed (h : ChainOk txs) (tx : BlockchainTransaction) : ChainOk (markFailed tx txs) :=
  h.modify (fun _ => ⟨rfl, rfl, rfl, rfl, rfl, rfl⟩) (rowsStay_markFailed tx txs)
    fun _ _ ho => nomatch ho

lemma get_markFailed_self (hr : txs.get tx.id = some r) :
    ∃ q, (markFailed tx txs).get tx.id = some q ∧ SameAttempt r q ∧ q.status = .failed := by
  obtain ⟨q, hq, hsame, -⟩ := rowsStay_markFailed tx txs tx.id r hr
  refine ⟨q, hq, hsame, ?_⟩
  rw [CrynuxRelay.markFailed, get_modify_self, hr] at hq
  cases hq
  rfl

section
variable (h : ChainOk txs) (hr : txs.get tx.id = some r) (hsame : SameAttempt tx r)
  (ho : r.isOpen = true)
include h hr hsame ho

/-- **a retry keeps the chain**, if it is made from a copy of a row that is still open. -/
theorem ChainOk.failAndRetry (now interval : Nat) : ChainOk (failAndRetry now interval tx txs) := by
  have hfailed := h.markFailed tx
  rw [CrynuxRelay.failAndRetry]
  split
  · next hlt =>
    obtain ⟨q, hq, hrq, hstatus⟩ := get_markFailed_self hr
    have htq := hsame.trans hrq
    have hroot' : (retryTransaction now interval (nextID (CrynuxRelay.markFailed tx txs)) tx).root =
        q.root := htq.root.symm
    have hcount : q.retryCount = tx.retryCount := htq.retryCount
    have hmax : q.maxRetries = tx.maxRetries := htq.maxRetries
    refine hfailed.insert rfl (fun hn => nomatch hn) (fun o ho => ?_) (fun j v hv hroot => ?_)
    · obtain ⟨ro, hro, hnone, hro'⟩ := hfailed.root_row hq
      cases ho
      have hroot : q.root = tx.retryTransactionID.getD tx.id := htq.root
      exact ⟨⟨ro, hroot ▸ hro, hnone, hro'.trans hmax⟩, Nat.succ_pos _, hlt⟩
    · show _ ∧ v.retryCount < tx.retryCount + 1
      by_cases hj : j = tx.id
      · subst hj
        rw [hq] at hv
        cases hv
        exact ⟨by rw [isOpen, hstatus]; rfl, by omega⟩
      · rw [CrynuxRelay.markFailed, get_modify_ne _ _ _ hj] at hv
        rw [hroot', hrq.root] at hroot
        -- the row of the copy was the open one
        have hlast := h.last tx.id j r v hr hv hroot.symm (Ne.symm hj) ho
        have hrc := hrq.retryCount
        refine ⟨Bool.eq_false_iff.2 fun hvo => ?_, by omega⟩
        exact absurd (h.open_unique hr hv hroot.symm ho hvo).symm hj
  · exact hfailed

lemma ChainOk.confirmTransaction (now : Nat) (decision : ConfirmDecision) :
    ChainOk (confirmTransaction now tx txs decision) := by
  cases decision with
  | wait => exact h
  | confirmed => exact h.markConfirmed tx
  | failed interval => exact h.failAndRetry hr hsame ho now interval

end

/-! ## what a chain is good for -/

lemma nodup_rows (txs : TransactionTable) : txs.rows.Nodup := List.Nodup.of_map _ txs.nodup_map_key_rows

lemma filter_rows_le_one (txs : TransactionTable) (p : BlockchainTransaction → Bool)
    (h : ∀ r r', txs.get r.id = some r → txs.get r'.id = some r' → p r = true → p r' = true →
      r.id = r'.id) : (txs.rows.filter p).length ≤ 1 := by
  have hmem : ∀ r ∈ txs.rows.filter p, txs.get r.id = some r ∧ p r = true := by
    intro r hr
    obtain ⟨hrow, hp⟩ := mem_filter.1 hr
    exact ⟨mem_rows.1 hrow, hp⟩
  have hnodup := (nodup_rows txs).filter p
  match hl : txs.rows.filter p with
  | [] => exact Nat.zero_le 1
  | [r] => exact Nat.le_refl 1
  | r :: r' :: l =>
    rw [hl] at hmem hnodup
    obtain ⟨hr, hp⟩ := hmem r mem_cons_self
    obtain ⟨hr', hp'⟩ := hmem r' (mem_cons_of_mem r mem_cons_self)
    have hid := h r r' hr hr' hp hp'
    rw [hid, hr'] at hr
    cases hr
    exact absurd mem_cons_self (nodup_cons.1 hnodup).1

theorem ChainOk.open_le_one (h : ChainOk txs) (o : Nat) :
    (txs.rows.filter fun r => r.root = o ∧ r.isOpen = true).length ≤ 1 := by
  refine filter_rows_le_one txs _ fun r r' hr hr' hp hp' => ?_
  obtain ⟨hroot, ho⟩ := of_decide_eq_true hp
  obtain ⟨hroot', ho'⟩ := of_decide_eq_true hp'
  exact h.open_unique hr hr' (hroot.trans hroot'.symm) ho ho'

lemma mem_getRetryTransactionsByID :
    r ∈ getRetryTransactionsByID txs o ↔ txs.get r.id = some r ∧ r.retryTransactionID = some o := by
  rw [getRetryTransactionsByID, mem_filter, mem_rows, decide_eq_true_iff]

/-- **there are no more retries than the original allows**: their numbers are different, from one to the
limit. -/
theorem ChainOk.retries_le (h : ChainOk txs) (hro : txs.get o = some ro) :
    (getRetryTransactionsByID txs o).length ≤ ro.maxRetries := by
  have hnodup : ((getRetryTransactionsByID txs o).map (·.retryCount)).Nodup := by
    refine List.Nodup.map_on (fun r hr r' hr' hcount => ?_) ((nodup_rows txs).filter _)
    obtain ⟨hr, ho⟩ := mem_getRetryTransactionsByID.1 hr
    obtain ⟨hr', ho'⟩ := mem_getRetryTransactionsByID.1 hr'
    by_contra hne
    refine h.numbered r.id r'.id r r' hr hr' ?_ (fun hid => hne ?_) hcount
    · rw [root, root, ho, ho']
      rfl
    · rw [hid, hr'] at hr
      cases hr
      rfl
  have hsub : (getRetryTransactionsByID txs o).map (·.retryCount) ⊆ List.range' 1 ro.maxRetries := by
    intro n hn
    obtain ⟨r, hr, rfl⟩ := List.mem_map.1 hn
    obtain ⟨hr, ho⟩ := mem_getRetryTransactionsByID.1 hr
    obtain ⟨⟨ro', hro', -, hmax⟩, hpos, hle⟩ := h.retry r.id r o hr ho
    rw [hro] at hro'
    cases hro'
    rw [mem_range'_1]
    omega
  have hlen := (subperm_of_subset hnodup hsub).length_le
  rwa [length_map, length_range'] at hlen

/-! ## where retries come from -/

/-- the attempts that come from an original, by the retries that were made. -/
inductive Attempt (retries : List (Nat × Nat)) (o : Nat) : Nat → Prop
  | original : Attempt retries o o
  | retry {a b : Nat} (ha : Attempt retries o a) (hab : (a, b) ∈ retries) : Attempt retries o b

structure TraceOk (txs : TransactionTable) (retries : List (Nat × Nat)) : Prop where
  edge : ∀ a b, (a, b) ∈ retries → ∃ ra rb, txs.get a = some ra ∧ txs.get b = some rb ∧
    rb.retryTransactionID = some ra.root ∧ a < b
  parent : ∀ b rb o, txs.get b = some rb → rb.retryTransactionID = some o → ∃ a, (a, b) ∈ retries

section trace
variable {retries : List (Nat × Nat)}

lemma traceOk_empty : TraceOk Table.empty [] :=
  ⟨fun a b h => absurd h not_mem_nil, fun b rb o h => by simp at h⟩

section
variable (h : TraceOk txs retries)
include h

lemma TraceOk.edge_stay (hstay : RowsStay txs txs') {a b : Nat}
    (hab : (a, b) ∈ retries) : ∃ ra rb, txs'.get a = some ra ∧ txs'.get b = some rb ∧
      rb.retryTransactionID = some ra.root ∧ a < b := by
  obtain ⟨ra, rb, hra, hrb, ho, hlt⟩ := h.edge a b hab
  obtain ⟨ra', hra', hsame, -⟩ := hstay a ra hra
  obtain ⟨rb', hrb', hsame', -⟩ := hstay b rb hrb
  exact ⟨ra', rb', hra', hrb', by rw [hsame'.origin, ho, hsame.root], hlt⟩

lemma TraceOk.rewrite (hstay : RowsStay txs txs') (hfrom : RowsFrom txs txs') :
    TraceOk txs' retries := by
  refine ⟨fun a b hab => h.edge_stay hstay hab, fun b rb o hrb ho => ?_⟩
  obtain ⟨r, hr, hsame⟩ := hfrom b rb hrb
  exact h.parent b r o hr (hsame.origin ▸ ho)

lemma TraceOk.queueTransaction (now : Nat) (payload : TransactionPayload)
    (maxRetries : Nat) : TraceOk (queueTransaction now payload maxRetries txs) retries := by
  refine ⟨fun a b hab => h.edge_stay (RowsStay.insert txs rfl) hab, fun b rb o hrb ho => ?_⟩
  rcases get_insert_cases rfl hrb with ⟨-, rfl⟩ | ⟨-, hrb⟩
  · cases ho
  · exact h.parent b rb o hrb ho

lemma TraceOk.createRetryTransaction
    (hr : txs.get tx.id = some r) (hsame : SameAttempt tx r) (now interval : Nat) :
    TraceOk (createRetryTransaction now interval tx txs) (retries ++ [(tx.id, nextID txs)]) := by
  refine ⟨fun a b hab => ?_, fun b rb o hrb ho => ?_⟩
  · rcases mem_append.1 hab with hab | hab
    · exact h.edge_stay (RowsStay.insert txs rfl) hab
    · obtain ⟨rfl, rfl⟩ := Prod.mk.inj (mem_singleton.1 hab)
      refine ⟨r, retryTransaction now interval (nextID txs) tx, get_insert_old rfl hr, ?_,
        congrArg some hsame.root.symm, lt_nextID hr⟩
      rw [CrynuxRelay.createRetryTransaction, get_insert_nextID txs rfl]
      exact if_pos rfl
  · rcases get_insert_cases rfl hrb with ⟨rfl, -⟩ | ⟨-, hrb⟩
    · exact ⟨tx.id, mem_append_right _ (mem_singleton.2 rfl)⟩
    · obtain ⟨a, ha⟩ := h.parent b rb o hrb ho
      exact ⟨a, mem_append_left _ ha⟩

lemma TraceOk.confirmTransaction
    (hr : txs.get tx.id = some r) (hsame : SameAttempt tx r) (now : Nat) (decision : ConfirmDecision) :
    TraceOk (confirmTransaction now tx txs decision) (retries ++ newRetry tx txs decision) := by
  cases decision with
  | wait =>
    rwa [newRetry, append_nil]
  | confirmed =>
    rw [newRetry, append_nil]
    exact h.rewrite (rowsStay_markConfirmed tx txs) (rowsFrom_markConfirmed tx txs)
  | failed interval =>
    have hfailed := h.rewrite (rowsStay_markFailed tx txs) (rowsFrom_markFailed tx txs)
    rw [CrynuxRelay.confirmTransaction, failAndRetry, newRetry]
    split
    · obtain ⟨q, hq, hrq, -⟩ := get_markFailed_self hr
      exact hfailed.createRetryTransaction hq (hsame.trans hrq) now interval
    · rwa [append_nil]

lemma TraceOk.origin_of_attempt (hro : txs.get o = some ro)
    (hnone : ro.retryTransactionID = none) (ha : Attempt retries o id) (hne : id ≠ o) :
    ∃ r, txs.get id = some r ∧ r.retryTransactionID = some o := by
  induction ha with
  | original => exact absurd rfl hne
  | @retry a b ha hab ih =>
    obtain ⟨ra, rb, hra, hrb, horigin, -⟩ := h.edge a b hab
    refine ⟨rb, hrb, horigin.trans (congrArg some ?_)⟩
    by_cases hao : a = o
    · subst hao
      rw [hro] at hra
      cases hra
      rw [root, hnone, getD_none, key_of_get hro]
    · obtain ⟨r, hr, hr'⟩ := ih hao
      rw [hra] at hr
      cases hr
      rw [root, hr', getD_some]

/-- a row that refers to an original is one of its attempts, by induction on the id: a retry is newer than
the attempt that it was made from. -/
lemma TraceOk.attempt_of_origin (id : Nat) :
    ∀ r, txs.get id = some r → r.retryTransactionID = some o → Attempt retries o id := by
  induction id using Nat.strong_induction_on with
  | _ id ih =>
    intro r hr ho
    obtain ⟨a, ha⟩ := h.parent id r o hr ho
    obtain ⟨ra, rb, hra, hrb, horigin, hlt⟩ := h.edge a id ha
    rw [hr] at hrb
    cases hrb
    refine .retry ?_ ha
    have hroot : ra.root = o := some.inj (horigin.symm.trans ho)
    cases hao : ra.retryTransactionID with
    | none =>
      rw [root, hao, getD_none, key_of_get hra] at hroot
      rw [hroot]
      exact .original
    | some o' =>
      rw [root, hao, getD_some] at hroot
      exact ih a hlt ra hra (by rw [hao, hroot])

/-- **the retries that are found by the id of the original are all the attempts after it.** -/
theorem TraceOk.retry_iff (hro : txs.get o = some ro)
    (hnone : ro.retryTransactionID = none) (id : Nat) :
    (∃ r ∈ getRetryTransactionsByID txs o, r.id = id) ↔ Attempt retries o id ∧ id ≠ o := by
  constructor
  · rintro ⟨r, hr, rfl⟩
    obtain ⟨hr, ho⟩ := mem_getRetryTransactionsByID.1 hr
    refine ⟨h.attempt_of_origin r.id r hr ho, fun hid => ?_⟩
    rw [hid, hro] at hr
    cases hr
    rw [hnone] at ho
    cases ho
  · intro ⟨ha, hne⟩
    obtain ⟨r, hr, ho⟩ := h.origin_of_attempt hro hnone ha hne
    have hid : r.id = id := key_of_get hr
    exact ⟨r, mem_getRetryTransactionsByID.2 ⟨by rw [hid, hr], ho⟩, hid⟩

end

end trace

end CrynuxRelay
