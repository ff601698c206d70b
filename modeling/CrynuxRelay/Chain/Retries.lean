import CrynuxRelay.Chain.Services

/-!
# The discipline of retries

A claim is fresh if the row of the copy still has the status with which it was polled.

* `WorkInv` -- every copy that the confirmer works on is claimed, and claimed once;
* `HeldOk` -- the rows of claimed copies stay as they were claimed, until the copy is handled;
* `RetryInv` -- **the invariant of runs with fresh claims**;
* `retry_chain` -- the discipline of retries, if claims are fresh and there is no interval to wait for;
* `retry_chain_broken` -- a stale copy makes a second retry, and a retry is sent at once.
-/

namespace CrynuxRelay

open List Option ChainOp Table

variable {s s' : ChainState} {op : ChainOp} {id : Nat} {txs : TransactionTable}
  {r tx : BlockchainTransaction}

/-! ## claims of the confirmer -/

def workIDs (s : ChainState) : List Nat := s.confirmer.queue.map (·.id) ++ s.confirming.map (·.tx.id)

structure WorkInv (s : ChainState) : Prop where
  claimed : ∀ id ∈ workIDs s, id ∈ s.confirmer.claims
  nodup : (workIDs s).Nodup

lemma WorkInv.of_perm (h : WorkInv s) (hperm : (workIDs s').Perm (workIDs s))
    (hclaims : s'.confirmer.claims = s.confirmer.claims) : WorkInv s' := by
  refine ⟨fun id hid => ?_, hperm.nodup_iff.2 h.nodup⟩
  rw [hclaims]
  exact h.claimed id (hperm.subset hid)

lemma WorkInv.of_step (h : WorkInv s) (hstep : ConfirmerStep op s s') : WorkInv s' := by
  cases hstep with
  | same hc hj =>
    refine h.of_perm ?_ (by rw [hc])
    rw [workIDs, workIDs, hc, hj]
  | polled hop hc hj =>
    rcases Poller.step_eq s.txs .sent s.confirmer with ⟨tx, rest, -, -, hfree, hstep⟩ | ⟨hclaims, hqueue, -⟩
    · have hperm : (workIDs s').Perm (tx.id :: workIDs s) := by
        rw [workIDs, workIDs, hc, hj, hstep]
        simp only [map_append, map_cons, map_nil, append_assoc]
        exact perm_middle
      have hnew : tx.id ∉ workIDs s := fun hid => hfree (h.claimed _ hid)
      refine ⟨fun id hid => ?_, hperm.nodup_iff.2 (nodup_cons.2 ⟨hnew, h.nodup⟩)⟩
      rw [hc, hstep]
      rcases mem_cons.1 (hperm.subset hid) with rfl | hid
      · exact mem_cons_self
      · exact mem_cons_of_mem _ (h.claimed id hid)
    · refine h.of_perm ?_ (by rw [hc, hclaims])
      rw [workIDs, workIDs, hc, hj, hqueue]
  | started tx rest hq hc hj =>
    refine h.of_perm ?_ (by rw [hc])
    rw [workIDs, workIDs, hc, hj, hq]
    simp only [map_append, map_cons, map_nil, ← append_assoc]
    exact perm_append_singleton _ _
  | handled i tx hi hc hj =>
    obtain ⟨l1, l2, hl, hset, -⟩ := split_at_thread hi
    refine h.of_perm ?_ (by rw [hc])
    rw [workIDs, workIDs, hc, hj, hset, hl, map_append, map_append]
    exact List.Perm.refl _
  | released i tx hi hc hj =>
    obtain ⟨l1, l2, hl, -, herase⟩ := split_at_thread hi
    have hperm : (workIDs s).Perm (tx.id :: workIDs s') := by
      rw [workIDs, workIDs, hc, hj, herase, hl]
      simp only [map_append, map_cons, ← append_assoc]
      exact perm_middle
    have hnodup := nodup_cons.1 (hperm.nodup_iff.1 h.nodup)
    refine ⟨fun id hid => ?_, hnodup.2⟩
    rw [hc]
    refine mem_filter.2 ⟨h.claimed id (hperm.symm.subset (mem_cons_of_mem _ hid)), ?_⟩
    refine decide_eq_true fun heq => hnodup.1 ?_
    exact heq ▸ hid

/-! ## the rows of claimed copies -/

/-- the copy that is claimed is of a row that still has the status with which it was polled. -/
def ChainOp.FreshClaims (s : ChainState) : ChainOp → Prop
  | .pollPending => ∀ tx, s.sender.claimed = some tx →
      ∃ r, s.txs.get tx.id = some r ∧ r.status = .pending
  | .pollSent => ∀ tx, s.confirmer.claimed = some tx →
      ∃ r, s.txs.get tx.id = some r ∧ r.status = .sent
  | _ => True

lemma ChainOp.FreshClaims.pending (h : op.FreshClaims s) : op.ClaimsPending s := by
  cases op with
  | pollPending => exact h
  | _ => trivial

structure HeldOk (s : ChainState) : Prop where
  pending : ∀ tx, SendHeld s tx → ∃ r, s.txs.get tx.id = some r ∧ r.status = .pending
  sent : ∀ tx, ConfirmHeld s tx → ∃ r, s.txs.get tx.id = some r ∧ r.status = .sent

lemma HeldOk.ne (h : HeldOk s) {t : BlockchainTransaction} (hs : SendHeld s tx) (hc : ConfirmHeld s t) :
    tx.id ≠ t.id := by
  intro heq
  obtain ⟨r, hr, hp⟩ := h.pending tx hs
  obtain ⟨r', hr', hp'⟩ := h.sent t hc
  rw [heq, hr'] at hr
  cases hr
  rw [hp'] at hp
  cases hp

lemma SendHeld.not_written (hinv : SendInv s) (hw : SenderWrites s s' tx.id) : ¬ SendHeld s' tx := by
  obtain ⟨t, stage, hst, -, hid, hs, hj⟩ := hw
  intro hheld
  cases hheld with
  | queue hq =>
    have hnodup := hinv.nodup
    rw [jobIDs, hst] at hnodup
    refine (nodup_append.1 hnodup).2.2 tx.id (List.mem_map.2 ⟨tx, hs ▸ hq, rfl⟩) t.id
      (mem_singleton.2 rfl) hid.symm
  | job st h hne =>
    rw [hj] at h
    cases h
    exact hne rfl

lemma ConfirmHeld.not_written (hinv : WorkInv s) (hw : WorkerWrites s s' tx.id) : ¬ ConfirmHeld s' tx := by
  obtain ⟨i, t, hi, hid, hc, hj⟩ := hw
  obtain ⟨l1, l2, hl, hset, -⟩ := split_at_thread hi
  -- the id of the worker's copy stands once among all that are claimed
  have hperm : (workIDs s).Perm
      (t.id :: (s.confirmer.queue.map (·.id) ++ l1.map (·.tx.id) ++ l2.map (·.tx.id))) := by
    rw [workIDs, hl]
    simp only [map_append, map_cons, ← append_assoc]
    exact perm_middle
  have hnot := (nodup_cons.1 (hperm.nodup_iff.1 hinv.nodup)).1
  rw [hid] at hnot
  intro hheld
  cases hheld with
  | queue hq =>
    rw [hc] at hq
    refine hnot (mem_append_left _ (mem_append_left _ ?_))
    exact List.mem_map.2 ⟨tx, hq, rfl⟩
  | worker hmem =>
    rw [hj, hset] at hmem
    rcases mem_append.1 hmem with hmem | hmem
    · refine hnot (mem_append_left _ (mem_append_right _ ?_))
      exact List.mem_map.2 ⟨⟨tx, false⟩, hmem, rfl⟩
    · rcases mem_cons.1 hmem with heq | hmem
      · cases heq
      · exact hnot (mem_append_right _ (List.mem_map.2 ⟨⟨tx, false⟩, hmem, rfl⟩))

lemma SenderWrites.held (h : SenderWrites s s' id) : ∃ t, SendHeld s t ∧ t.id = id := by
  obtain ⟨t, stage, hst, hne, hid, -⟩ := h
  exact ⟨t, .job stage hst hne, hid⟩

lemma WorkerWrites.held (h : WorkerWrites s s' id) : ∃ t, ConfirmHeld s t ∧ t.id = id := by
  obtain ⟨i, t, hi, hid, -⟩ := h
  exact ⟨t, .worker (mem_of_getElem? hi), hid⟩

/-- **the rows of claimed copies stay as they were claimed.** -/
theorem HeldOk.exec (h : HeldOk s) (hsend : SendInv s) (hwork : WorkInv s) (cfg : ChainConfig) (op : ChainOp)
    (hop : op.FreshClaims s) : HeldOk (op.exec cfg s) := by
  have htable := exec_tableStep cfg s op
  constructor
  · intro tx hheld
    rcases hheld.of_step (exec_senderStep cfg s op) with hold | ⟨rfl, hclaim⟩
    · obtain ⟨r, hr, hp⟩ := h.pending tx hold
      rcases htable.row hr with hr' | hw | hw
      · exact ⟨r, hr', hp⟩
      · exact absurd hheld (SendHeld.not_written hsend hw)
      · obtain ⟨t, ht, hid⟩ := hw.held
        exact absurd hid.symm (h.ne hold ht)
    · exact hop tx hclaim
  · intro tx hheld
    rcases hheld.of_step (exec_confirmerStep cfg s op) with hold | ⟨rfl, hclaim⟩
    · obtain ⟨r, hr, hp⟩ := h.sent tx hold
      rcases htable.row hr with hr' | hw | hw
      · exact ⟨r, hr', hp⟩
      · obtain ⟨t, ht, hid⟩ := hw.held
        exact absurd hid (h.ne ht hold)
      · exact absurd hheld (ConfirmHeld.not_written hwork hw)
    · exact hop tx hclaim

/-! ## the invariant -/

def RowOf (txs : TransactionTable) (tx : BlockchainTransaction) : Prop :=
  ∃ r, txs.get tx.id = some r ∧ SameAttempt tx r

lemma RowOf.stay {txs' : TransactionTable} (h : RowOf txs tx)
    (hstay : RowsStay txs txs') : RowOf txs' tx := by
  obtain ⟨r, hr, hsame⟩ := h
  obtain ⟨r', hr', hsame', -⟩ := hstay tx.id r hr
  exact ⟨r', hr', hsame.trans hsame'⟩

lemma rowOf_of_mem (h : tx ∈ txs.rows) : RowOf txs tx :=
  ⟨tx, mem_rows.1 h, SameAttempt.refl tx⟩

structure RetryInv (s : ChainState) : Prop where
  send : SendInv s
  work : WorkInv s
  held : HeldOk s
  sendCopy : ∀ tx, SendCopy s tx → RowOf s.txs tx
  confirmCopy : ∀ tx, ConfirmCopy s tx → RowOf s.txs tx
  chains : ChainOk s.txs
  trace : TraceOk s.txs s.retries
  created : ∀ id r, s.txs.get id = some r → r.createdAt ≤ s.now
  pickups : ∀ p ∈ s.pickups, ∃ r, s.txs.get p.1 = some r ∧ r.createdAt ≤ p.2

lemma isOpen_of_pending (h : r.status = .pending) : r.isOpen = true :=
  decide_eq_true (.inl h)

lemma isOpen_of_sent (h : r.status = .sent) : r.isOpen = true :=
  decide_eq_true (.inr h)

/-- **rows are written from copies of open rows**, so the attempts stay in order. -/
theorem RetryInv.chains_step (h : RetryInv s) (hstep : TableStep s s') : ChainOk s'.txs := by
  cases hstep with
  | same ht _ => exact ht ▸ h.chains
  | queued payload maxRetries ht _ => exact ht ▸ h.chains.queueTransaction s.now payload maxRetries
  | failed tx stage hst hne hs hj ht _ => exact ht ▸ h.chains.markFailed tx
  | sent tx stage txHash nonce hst hne hs hj ht _ =>
    obtain ⟨r, hr, hp⟩ := h.held.pending tx (.job stage hst hne)
    exact ht ▸ h.chains.markSent hr (isOpen_of_pending hp) s.now txHash nonce
  | confirmed i tx decision hi hc hj ht _ =>
    have hmem := mem_of_getElem? hi
    obtain ⟨r, hr, hsame⟩ := h.confirmCopy tx (.worker false hmem)
    obtain ⟨r', hr', hp⟩ := h.held.sent tx (.worker hmem)
    rw [hr] at hr'
    cases hr'
    exact ht ▸ h.chains.confirmTransaction hr hsame (isOpen_of_sent hp) s.now decision

lemma RetryInv.trace_step (h : RetryInv s) (hstep : TableStep s s') : TraceOk s'.txs s'.retries := by
  cases hstep with
  | same ht hr =>
    rw [ht, hr]
    exact h.trace
  | queued payload maxRetries ht hr =>
    rw [ht, hr]
    exact h.trace.queueTransaction s.now payload maxRetries
  | failed tx stage hst hne hs hj ht hr =>
    rw [ht, hr]
    exact h.trace.rewrite (rowsStay_markFailed tx s.txs) (rowsFrom_markFailed tx s.txs)
  | sent tx stage txHash nonce hst hne hs hj ht hr =>
    rw [ht, hr]
    exact h.trace.rewrite (rowsStay_markSent s.now tx s.txs txHash nonce)
      (rowsFrom_markSent s.now tx s.txs txHash nonce)
  | confirmed i tx decision hi hc hj ht hr =>
    obtain ⟨r, hrow, hsame⟩ := h.confirmCopy tx (.worker false (mem_of_getElem? hi))
    rw [ht, hr]
    exact h.trace.confirmTransaction hrow hsame s.now decision

lemma RetryInv.exec (h : RetryInv s) (cfg : ChainConfig) (op : ChainOp) (hop : op.FreshClaims s) :
    RetryInv (op.exec cfg s) := by
  have htable := exec_tableStep cfg s op
  have hstay := htable.rowsStay
  refine ⟨h.send.exec op hop.pending, h.work.of_step (exec_confirmerStep cfg s op),
    h.held.exec h.send h.work cfg op hop, fun tx htx => ?_, fun tx htx => ?_, h.chains_step htable,
    h.trace_step htable, fun id r' hr' => ?_, fun p hp => ?_⟩
  · rcases htx.of_step (exec_senderStep cfg s op) with hold | hrow
    · exact (h.sendCopy tx hold).stay hstay
    · exact (rowOf_of_mem hrow).stay hstay
  · rcases htx.of_step (exec_confirmerStep cfg s op) with hold | hrow
    · exact (h.confirmCopy tx hold).stay hstay
    · exact (rowOf_of_mem hrow).stay hstay
  · have hnow := exec_now cfg s op
    rcases htable.created hr' with ⟨r, hr, hsame⟩ | hnew
    · have hle := h.created id r hr
      rw [hsame.createdAt]
      omega
    · rwa [hnew.createdAt]
  · -- a pickup of now is of a copy, and its row was created before
    have hold : ∃ r, s.txs.get p.1 = some r ∧ r.createdAt ≤ p.2 := by
      rcases exec_pickups cfg s op hp with hp | ⟨tx, stage, hst, rfl⟩
      · exact h.pickups p hp
      · obtain ⟨r, hr, -⟩ := h.sendCopy tx (.job stage hst)
        exact ⟨r, hr, h.created tx.id r hr⟩
    obtain ⟨r, hr, hle⟩ := hold
    obtain ⟨r', hr', hsame, -⟩ := hstay p.1 r hr
    exact ⟨r', hr', hsame.createdAt ▸ hle⟩

lemma retryInv_init : RetryInv { txs := empty } where
  send := sendInv_init empty
  work := ⟨nofun, nodup_nil⟩
  held := by
    refine ⟨fun tx h => ?_, fun tx h => ?_⟩
    · cases h with
      | queue h => exact absurd h not_mem_nil
      | job stage h hne => cases h
    · cases h with
      | queue h => exact absurd h not_mem_nil
      | worker h => exact absurd h not_mem_nil
  sendCopy := fun tx h => by cases h with
    | polled h => exact absurd h not_mem_nil
    | queue h => exact absurd h not_mem_nil
    | job stage h => cases h
  confirmCopy := fun tx h => by cases h with
    | polled h => exact absurd h not_mem_nil
    | queue h => exact absurd h not_mem_nil
    | worker f h => exact absurd h not_mem_nil
  chains := chainOk_empty
  trace := traceOk_empty
  created := fun id r h => by simp at h
  pickups := nofun

/-! ## the discipline -/

/-- the retries of a transaction: one open attempt, no more retries than allowed, and all found by the
original. -/
structure RetryChains (s : ChainState) : Prop where
  open_once : ∀ o ro, s.txs.get o = some ro → ro.retryTransactionID = none →
    (s.txs.rows.filter fun r => r.root = o ∧ r.isOpen = true).length ≤ 1
  limited : ∀ o ro, s.txs.get o = some ro → ro.retryTransactionID = none →
    (getRetryTransactionsByID s.txs o).length ≤ ro.maxRetries
  found : ∀ o ro, s.txs.get o = some ro → ro.retryTransactionID = none →
    ∀ id, (∃ r ∈ getRetryTransactionsByID s.txs o, r.id = id) ↔ Attempt s.retries o id ∧ id ≠ o

/-- what retries are for: besides, none is picked up before the interval after the failure. -/
structure RetryDiscipline (cfg : ChainConfig) (s : ChainState) : Prop extends RetryChains s where
  waits : ∀ p ∈ s.pickups, ∀ r c, s.txs.get p.1 = some r → r.retryTransactionID ≠ none →
    cfg.blockchains r.payload.network = some c → r.createdAt + c.retryInterval ≤ p.2

/-- **the discipline of retries**, in every run in which each copy is claimed while its row still has the
status with which it was polled; the wait, on networks that are configured without an interval. -/
theorem retry_chain (cfg : ChainConfig) (ops : List ChainOp)
    (h : Along (ChainOp.exec cfg) (fun s op => op.FreshClaims s) ops { txs := Table.empty }) :
    RetryChains (run (ChainOp.exec cfg) ops { txs := Table.empty }) ∧
      ((∀ network c, cfg.blockchains network = some c → c.retryInterval = 0) →
        RetryDiscipline cfg (run (ChainOp.exec cfg) ops { txs := Table.empty })) := by
  have hinv : RetryInv (run (exec cfg) ops { txs := empty }) :=
    run_invariant (fun s op hs hop => hs.exec cfg op hop) ops _ h retryInv_init
  have hchains : RetryChains (run (exec cfg) ops { txs := empty }) :=
    ⟨fun o ro hro hnone => hinv.chains.open_le_one o, fun o ro hro hnone => hinv.chains.retries_le hro,
      fun o ro hro hnone id => hinv.trace.retry_iff hro hnone id⟩
  refine ⟨hchains, fun hinterval => ⟨hchains, fun p hp r c hr hretry hc => ?_⟩⟩
  obtain ⟨r', hr', hle⟩ := hinv.pickups p hp
  rw [hr] at hr'
  cases hr'
  rwa [hinterval _ c hc]

/-! ## a stale copy, and no wait -/

def promptConfig : ChainConfig where
  blockchains := fun _ =>
    some { sendWaitTime := 600, receiptWaitTime := 600, retryInterval := 0,
           sentTransactionCountLimit := 10 }

def claimSentRun : List ChainOp := [.pollSent, .pollSent, .pollSent]

def revertRun : List ChainOp := [.startWorker, .confirm 0 .reverted, .releaseWorker 0]

/-- the retry is polled, claimed and checked right after it is made. -/
def pickupRun : List ChainOp :=
  claimRun ++ sendRun 7 ['h'] ++ claimSentRun ++ revertRun ++
    [.pollPending, .pollPending, .pollPending, .pollPending, .dequeue, .check]

theorem retry_chain_at_pickupRun :
    (2, 0) ∈ (run (ChainOp.exec promptConfig) pickupRun { txs := Table.empty }).pickups ∧
      RetryDiscipline promptConfig (run (ChainOp.exec promptConfig) pickupRun { txs := Table.empty }) := by
  have hnone : ∀ tx : BlockchainTransaction, (none : Option BlockchainTransaction) = some tx →
      ∀ (s : ChainState) (status : TransactionStatus),
        ∃ r, s.txs.get tx.id = some r ∧ r.status = status := fun tx h => by cases h
  refine ⟨mem_cons_of_mem _ mem_cons_self, (retry_chain promptConfig pickupRun ?_).2 fun network c hc => ?_⟩
  · refine ⟨trivial, fun tx h => hnone tx h _ _, fun tx h => hnone tx h _ _, fun tx h => ?_, trivial, trivial,
      trivial, trivial, trivial, fun tx h => hnone tx h _ _, fun tx h => hnone tx h _ _, fun tx h => ?_,
      trivial, trivial, trivial, fun tx h => hnone tx h _ _, fun tx h => hnone tx h _ _,
      fun tx h => hnone tx h _ _, fun tx h => ?_, trivial, trivial, trivial⟩
    all_goals
      cases h
      exact ⟨_, rfl, rfl⟩
  · cases hc
    rfl

/-- the sent row is polled once more before it fails, and that copy is claimed after the first claim. -/
def staleRetryRun : List ChainOp :=
  claimRun ++ sendRun 7 ['h'] ++ claimSentRun ++ [.pollSent, .pollSent] ++ revertRun ++
    [.pollSent, .pollSent] ++ revertRun

lemma staleRetryRun_original :
    ((run (exec chainConfig) staleRetryRun { txs := empty }).txs.get 1).map
      (fun r => (r.retryTransactionID, r.maxRetries)) = some (none, 1) := by
  decide +kernel

lemma pickupRun_retry :
    ((run (exec chainConfig) pickupRun { txs := empty }).txs.get 2).map
      (fun r => r.retryTransactionID) = some (some 1) := by
  decide +kernel

/-- **two retries of one failure**, with one allowed, are open at once; **and a retry is picked up at once**,
with an interval of a minute. -/
theorem retry_chain_broken :
    ¬ RetryDiscipline chainConfig (run (ChainOp.exec chainConfig) staleRetryRun { txs := Table.empty }) ∧
    ¬ RetryDiscipline chainConfig (run (ChainOp.exec chainConfig) pickupRun { txs := Table.empty }) := by
  refine ⟨fun h => ?_, fun h => ?_⟩
  · obtain ⟨ro, hro, hfields⟩ := map_eq_some_iff.1 staleRetryRun_original
    have hone := h.open_once 1 ro hro (Prod.mk.inj hfields).1
    exact absurd hone (by decide)
  · obtain ⟨r, hr, horigin⟩ := map_eq_some_iff.1 pickupRun_retry
    have hpick : (2, 0) ∈ (run (exec chainConfig) pickupRun { txs := empty }).pickups := by
      exact mem_cons_of_mem _ mem_cons_self
    have hwait := h.waits (2, 0) hpick r _ hr (by rw [horigin]; simp) rfl
    exact absurd (Nat.le_trans (Nat.le_add_left _ _) hwait) (by decide)

end CrynuxRelay
