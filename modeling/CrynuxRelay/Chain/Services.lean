import CrynuxRelay.Chain.Submissions

/-!
# What a step does to the two services

* `SenderStep`, `ConfirmerStep`, `TableStep` -- what a step does to the sender, to the confirmer and to the
  rows; `exec_senderStep`, `exec_confirmerStep`, `exec_tableStep`;
* `TableStep.row` -- **a row changes only under a service that works on a copy of it**;
* `SendCopy`, `ConfirmCopy` -- the copies of the services; `SendHeld`, `ConfirmHeld` -- those that are
  claimed and not yet handled.
-/

namespace CrynuxRelay

open List Table ChainOp

variable {p : Poller} {txs : TransactionTable} {r tx : BlockchainTransaction} {id : Nat}
  {status : TransactionStatus}

/-! ## what a step does -/

inductive SenderStep (op : ChainOp) (s s' : ChainState) : Prop
  | same (hs : s'.sender = s.sender) (hj : s'.sending = s.sending)
  | polled (hop : op = .pollPending) (hs : s'.sender = s.sender.step s.txs .pending)
    (hj : s'.sending = s.sending)
  | dequeued (tx : BlockchainTransaction) (rest : List BlockchainTransaction)
    (hq : s.sender.queue = tx :: rest) (hs : s'.sender = { s.sender with queue := rest })
    (hj : s'.sending = some ⟨tx, .dequeued⟩)
  | moved (tx : BlockchainTransaction) (stage stage' : SendStage) (hst : s.sending = some ⟨tx, stage⟩)
    (hne : stage ≠ .finished) (hs : s'.sender = s.sender) (hj : s'.sending = some ⟨tx, stage'⟩)
  | released (tx : BlockchainTransaction) (hs : s'.sender = s.sender.release tx.id) (hj : s'.sending = none)

inductive ConfirmerStep (op : ChainOp) (s s' : ChainState) : Prop
  | same (hc : s'.confirmer = s.confirmer) (hj : s'.confirming = s.confirming)
  | polled (hop : op = .pollSent) (hc : s'.confirmer = s.confirmer.step s.txs .sent)
    (hj : s'.confirming = s.confirming)
  | started (tx : BlockchainTransaction) (rest : List BlockchainTransaction)
    (hq : s.confirmer.queue = tx :: rest) (hc : s'.confirmer = { s.confirmer with queue := rest })
    (hj : s'.confirming = s.confirming ++ [⟨tx, false⟩])
  | handled (i : Nat) (tx : BlockchainTransaction) (hi : s.confirming[i]? = some ⟨tx, false⟩)
    (hc : s'.confirmer = s.confirmer) (hj : s'.confirming = s.confirming.set i ⟨tx, true⟩)
  | released (i : Nat) (tx : BlockchainTransaction) (hi : s.confirming[i]? = some ⟨tx, true⟩)
    (hc : s'.confirmer = s.confirmer.release tx.id) (hj : s'.confirming = s.confirming.eraseIdx i)

inductive TableStep (s s' : ChainState) : Prop
  | same (ht : s'.txs = s.txs) (hr : s'.retries = s.retries)
  | queued (payload : TransactionPayload) (maxRetries : Nat)
    (ht : s'.txs = queueTransaction s.now payload maxRetries s.txs) (hr : s'.retries = s.retries)
  | failed (tx : BlockchainTransaction) (stage : SendStage) (hst : s.sending = some ⟨tx, stage⟩)
    (hne : stage ≠ .finished) (hs : s'.sender = s.sender) (hj : s'.sending = some ⟨tx, .finished⟩)
    (ht : s'.txs = markFailed tx s.txs) (hr : s'.retries = s.retries)
  | sent (tx : BlockchainTransaction) (stage : SendStage) (txHash : Text) (nonce : Nat)
    (hst : s.sending = some ⟨tx, stage⟩) (hne : stage ≠ .finished) (hs : s'.sender = s.sender)
    (hj : s'.sending = some ⟨tx, .finished⟩) (ht : s'.txs = markSent s.now tx txHash nonce s.txs)
    (hr : s'.retries = s.retries)
  | confirmed (i : Nat) (tx : BlockchainTransaction) (decision : ConfirmDecision)
    (hi : s.confirming[i]? = some ⟨tx, false⟩) (hc : s'.confirmer = s.confirmer)
    (hj : s'.confirming = s.confirming.set i ⟨tx, true⟩)
    (ht : s'.txs = confirmTransaction s.now tx s.txs decision)
    (hr : s'.retries = s.retries ++ newRetry tx s.txs decision)

section exec
variable (cfg : ChainConfig) (s : ChainState) (op : ChainOp)

lemma exec_senderStep : SenderStep op s (op.exec cfg s) := by
  cases op with
  | pollPending => exact .polled rfl rfl rfl
  | dequeue =>
    rw [exec]
    split
    · next tx rest hnone hq => exact .dequeued tx rest hq rfl rfl
    · exact .same rfl rfl
  | check | submit nonce accepted =>
    rw [exec]
    split
    · next tx hst =>
      split
      all_goals exact .moved tx _ _ hst (by simp) rfl rfl
    · exact .same rfl rfl
  | markSent txHash =>
    rw [exec]
    split
    · next tx nonce hst => exact .moved tx _ _ hst (by simp) rfl rfl
    · exact .same rfl rfl
  | release =>
    rw [exec]
    split
    · next tx hst => exact .released tx rfl rfl
    · exact .same rfl rfl
  | _ =>
    rw [exec]
    repeat' split
    all_goals exact .same rfl rfl

lemma exec_confirmerStep : ConfirmerStep op s (op.exec cfg s) := by
  cases op with
  | pollSent => exact .polled rfl rfl rfl
  | startWorker =>
    rw [exec]
    split
    · next tx rest hq =>
      split
      · exact .started tx rest hq rfl rfl
      · exact .same rfl rfl
    · exact .same rfl rfl
  | confirm i receipt =>
    rw [exec]
    split
    · next tx hi => exact .handled i tx hi rfl rfl
    · exact .same rfl rfl
  | releaseWorker i =>
    rw [exec]
    split
    · next tx hi => exact .released i tx hi rfl rfl
    · exact .same rfl rfl
  | _ =>
    rw [exec]
    repeat' split
    all_goals exact .same rfl rfl

lemma exec_tableStep : TableStep s (op.exec cfg s) := by
  cases op with
  | queue payload maxRetries => exact .queued payload maxRetries rfl rfl
  | check =>
    rw [exec]
    split
    · next tx hst =>
      split
      · exact .same rfl rfl
      · exact .failed tx _ hst (by simp) rfl rfl rfl rfl
      · exact .same rfl rfl
    · exact .same rfl rfl
  | markSent txHash =>
    rw [exec]
    split
    · next tx nonce hst => exact .sent tx _ txHash nonce hst (by simp) rfl rfl rfl rfl
    · exact .same rfl rfl
  | confirm i receipt =>
    rw [exec]
    split
    · next tx hi => exact .confirmed i tx (confirmDecision cfg s.now receipt tx) hi rfl rfl rfl rfl
    · exact .same rfl rfl
  | _ =>
    rw [exec]
    repeat' split
    all_goals exact .same rfl rfl

lemma exec_now : s.now ≤ (op.exec cfg s).now := by
  cases op with
  | tick seconds => exact Nat.le_add_right _ _
  | _ =>
    rw [exec]
    repeat' split
    all_goals rfl

lemma exec_pickups {p : Nat × Nat} (h : p ∈ (op.exec cfg s).pickups) :
    p ∈ s.pickups ∨ ∃ tx stage, s.sending = some ⟨tx, stage⟩ ∧ p = (tx.id, s.now) := by
  cases op with
  | check =>
    rw [exec] at h
    split at h
    · next tx hst =>
      split at h
      · exact .inl h
      · exact .inl h
      · exact (mem_append.1 h).imp id fun h => ⟨tx, .dequeued, hst, mem_singleton.1 h⟩
    · exact .inl h
  | _ =>
    rw [exec] at h
    repeat' split at h
    all_goals exact .inl h

end exec

/-! ## rows under a step -/

section rows
variable {s s' : ChainState}

lemma TableStep.rowsStay (h : TableStep s s') : RowsStay s.txs s'.txs := by
  cases h with
  | same ht hr => exact ht ▸ RowsStay.refl _
  | queued payload maxRetries ht hr => exact ht ▸ RowsStay.insert _ rfl
  | failed tx stage hst hne hs hj ht hr => exact ht ▸ rowsStay_markFailed tx s.txs
  | sent tx stage txHash nonce hst hne hs hj ht hr =>
    exact ht ▸ rowsStay_markSent s.now tx s.txs txHash nonce
  | confirmed i tx decision hi hc hj ht hr =>
    exact ht ▸ rowsStay_confirmTransaction s.now tx s.txs decision

lemma get_confirmTransaction_ne (hr : txs.get id = some r) (hne : id ≠ tx.id) (now : Nat)
    (decision : ConfirmDecision) : (confirmTransaction now tx txs decision).get id = some r := by
  have hfailed : (markFailed tx txs).get id = some r := by
    rw [markFailed, get_modify_ne _ _ _ hne, hr]
  cases decision with
  | wait => exact hr
  | confirmed => rw [confirmTransaction, markConfirmed, get_modify_ne _ _ _ hne, hr]
  | failed interval =>
    rw [confirmTransaction, failAndRetry]
    split
    · exact get_insert_old rfl hfailed
    · exact hfailed

def SenderWrites (s s' : ChainState) (id : Nat) : Prop :=
  ∃ tx stage, s.sending = some ⟨tx, stage⟩ ∧ stage ≠ .finished ∧ tx.id = id ∧ s'.sender = s.sender ∧
    s'.sending = some ⟨tx, .finished⟩

def WorkerWrites (s s' : ChainState) (id : Nat) : Prop :=
  ∃ i tx, s.confirming[i]? = some ⟨tx, false⟩ ∧ tx.id = id ∧ s'.confirmer = s.confirmer ∧
    s'.confirming = s.confirming.set i ⟨tx, true⟩

/-- **a row changes only under a service that works on a copy of it.** -/
theorem TableStep.row (h : TableStep s s') (hr : s.txs.get id = some r) :
    s'.txs.get id = some r ∨ SenderWrites s s' id ∨ WorkerWrites s s' id := by
  cases h with
  | same ht _ => exact .inl (ht ▸ hr)
  | queued payload maxRetries ht _ =>
    rw [ht]
    exact .inl (get_insert_old rfl hr)
  | failed tx stage hst hne hs hj ht _ =>
    by_cases hid : id = tx.id
    · exact .inr (.inl ⟨tx, stage, hst, hne, hid.symm, hs, hj⟩)
    · rw [ht, markFailed, get_modify_ne _ _ _ hid]
      exact .inl hr
  | sent tx stage txHash nonce hst hne hs hj ht _ =>
    by_cases hid : id = tx.id
    · exact .inr (.inl ⟨tx, stage, hst, hne, hid.symm, hs, hj⟩)
    · rw [ht, markSent, get_modify_ne _ _ _ hid]
      exact .inl hr
  | confirmed i tx decision hi hc hj ht _ =>
    by_cases hid : id = tx.id
    · exact .inr (.inr ⟨i, tx, hi, hid.symm, hc, hj⟩)
    · rw [ht]
      exact .inl (get_confirmTransaction_ne hr hid s.now decision)

/-- a row that a step creates: an original, or the retry of a copy that a worker has. -/
structure NewRow (s : ChainState) (id : Nat) (r : BlockchainTransaction) : Prop where
  createdAt : r.createdAt = s.now
  root : (r.root = id ∧ s.txs.get id = none) ∨
    ∃ (i : Nat) (tx : BlockchainTransaction), s.confirming[i]? = some ⟨tx, false⟩ ∧ r.root = tx.root

lemma TableStep.created (h : TableStep s s') {r' : BlockchainTransaction}
    (hr' : s'.txs.get id = some r') :
    (∃ r, s.txs.get id = some r ∧ SameAttempt r r') ∨ NewRow s id r' := by
  cases h with
  | same ht _ => exact .inl ⟨r', ht ▸ hr', SameAttempt.refl r'⟩
  | queued payload maxRetries ht _ =>
    rw [ht] at hr'
    rcases get_insert_cases rfl hr' with ⟨rfl, rfl⟩ | ⟨-, hold⟩
    · exact .inr ⟨rfl, .inl ⟨rfl, get_nextID s.txs⟩⟩
    · exact .inl ⟨r', hold, SameAttempt.refl r'⟩
  | failed tx stage hst hne hs hj ht _ => exact .inl (rowsFrom_markFailed tx s.txs id r' (ht ▸ hr'))
  | sent tx stage txHash nonce hst hne hs hj ht _ =>
    exact .inl (rowsFrom_markSent s.now tx s.txs txHash nonce id r' (ht ▸ hr'))
  | confirmed i tx decision hi hc hj ht _ =>
    rw [ht] at hr'
    cases decision with
    | wait => exact .inl ⟨r', hr', SameAttempt.refl r'⟩
    | confirmed => exact .inl (rowsFrom_markConfirmed tx s.txs id r' hr')
    | failed interval =>
      rw [confirmTransaction, failAndRetry] at hr'
      split at hr'
      · rcases get_insert_cases rfl hr' with ⟨-, rfl⟩ | ⟨-, hold⟩
        · exact .inr ⟨rfl, .inr ⟨i, tx, hi, rfl⟩⟩
        · exact .inl (rowsFrom_markFailed tx s.txs id r' hold)
      · exact .inl (rowsFrom_markFailed tx s.txs id r' hr')

end rows

/-! ## copies -/

inductive SendCopy (s : ChainState) (tx : BlockchainTransaction) : Prop
  | polled (h : tx ∈ s.sender.polled)
  | queue (h : tx ∈ s.sender.queue)
  | job (stage : SendStage) (h : s.sending = some ⟨tx, stage⟩)

inductive ConfirmCopy (s : ChainState) (tx : BlockchainTransaction) : Prop
  | polled (h : tx ∈ s.confirmer.polled)
  | queue (h : tx ∈ s.confirmer.queue)
  | worker (finished : Bool) (h : ⟨tx, finished⟩ ∈ s.confirming)

inductive SendHeld (s : ChainState) (tx : BlockchainTransaction) : Prop
  | queue (h : tx ∈ s.sender.queue)
  | job (stage : SendStage) (h : s.sending = some ⟨tx, stage⟩) (hs : stage ≠ .finished)

inductive ConfirmHeld (s : ChainState) (tx : BlockchainTransaction) : Prop
  | queue (h : tx ∈ s.confirmer.queue)
  | worker (h : ⟨tx, false⟩ ∈ s.confirming)

lemma Poller.step_polled (h : tx ∈ (p.step txs status).polled) : tx ∈ p.polled ∨ tx ∈ txs.rows := by
  rcases p.step_eq txs status with ⟨c, rest, -, hpolled, -, hstep⟩ | ⟨-, -, hmem⟩
  · rw [hstep] at h
    rw [hpolled]
    exact .inl (mem_cons_of_mem c h)
  · exact (hmem tx h).imp id And.left

lemma Poller.step_queue (h : tx ∈ (p.step txs status).queue) :
    tx ∈ p.queue ∨ (tx ∈ p.polled ∧ p.claimed = some tx) := by
  rcases p.step_eq txs status with ⟨c, rest, hclaim, hpolled, -, hstep⟩ | ⟨-, hqueue, -⟩
  · rw [hstep] at h
    rcases mem_append.1 h with h | h
    · exact .inl h
    · rw [mem_singleton.1 h, hpolled]
      exact .inr ⟨mem_cons_self, hclaim⟩
  · rw [hqueue] at h
    exact .inl h

section copies
variable {op : ChainOp} {s s' : ChainState}

lemma SendCopy.of_step (hstep : SenderStep op s s') (h : SendCopy s' tx) :
    SendCopy s tx ∨ tx ∈ s.txs.rows := by
  cases hstep with
  | polled hop hs hj =>
    cases h with
    | polled h => exact (Poller.step_polled (hs ▸ h)).imp .polled id
    | queue h =>
      rcases Poller.step_queue (hs ▸ h) with h | ⟨h, -⟩
      · exact .inl (.queue h)
      · exact .inl (.polled h)
    | job stage h => exact .inl (.job stage (hj ▸ h))
  | _ => cases h <;> grind [SendCopy, Poller.release]

lemma ConfirmCopy.of_step (hstep : ConfirmerStep op s s') (h : ConfirmCopy s' tx) :
    ConfirmCopy s tx ∨ tx ∈ s.txs.rows := by
  cases hstep with
  | polled hop hc hj =>
    cases h with
    | polled h => exact (Poller.step_polled (hc ▸ h)).imp .polled id
    | queue h =>
      rcases Poller.step_queue (hc ▸ h) with h | ⟨h, -⟩
      · exact .inl (.queue h)
      · exact .inl (.polled h)
    | worker f h => exact .inl (.worker f (hj ▸ h))
  | handled i t hi hc hj =>
    cases h with
    | worker f h =>
      rw [hj] at h
      rcases mem_or_eq_of_mem_set h with h | heq
      · exact .inl (.worker f h)
      · cases heq
        exact .inl (.worker false (mem_of_getElem? hi))
    | _ => grind [ConfirmCopy]
  | released i t hi hc hj =>
    cases h with
    | worker f h => exact .inl (.worker f (mem_of_mem_eraseIdx (hj ▸ h)))
    | _ => grind [ConfirmCopy, Poller.release]
  | _ => cases h <;> grind [ConfirmCopy]

lemma SendHeld.of_step (hstep : SenderStep op s s') (h : SendHeld s' tx) :
    SendHeld s tx ∨ (op = .pollPending ∧ s.sender.claimed = some tx) := by
  cases hstep with
  | polled hop hs hj =>
    cases h with
    | queue h =>
      rcases Poller.step_queue (hs ▸ h) with h | ⟨-, h⟩
      · exact .inl (.queue h)
      · exact .inr ⟨hop, h⟩
    | job stage h hne => exact .inl (.job stage (hj ▸ h) hne)
  | _ => cases h <;> grind [SendHeld, Poller.release]

lemma ConfirmHeld.of_step (hstep : ConfirmerStep op s s') (h : ConfirmHeld s' tx) :
    ConfirmHeld s tx ∨ (op = .pollSent ∧ s.confirmer.claimed = some tx) := by
  cases hstep with
  | polled hop hc hj =>
    cases h with
    | queue h =>
      rcases Poller.step_queue (hc ▸ h) with h | ⟨-, h⟩
      · exact .inl (.queue h)
      · exact .inr ⟨hop, h⟩
    | worker h => exact .inl (.worker (hj ▸ h))
  | handled i t hi hc hj =>
    cases h with
    | queue h => exact .inl (.queue (hc ▸ h))
    | worker h =>
      rw [hj] at h
      rcases mem_or_eq_of_mem_set h with h | heq
      · exact .inl (.worker h)
      · cases heq
  | released i t hi hc hj =>
    cases h with
    | worker h => exact .inl (.worker (mem_of_mem_eraseIdx (hj ▸ h)))
    | queue h => grind [ConfirmHeld, Poller.release]
  | _ => cases h <;> grind [ConfirmHeld]

end copies

end CrynuxRelay
