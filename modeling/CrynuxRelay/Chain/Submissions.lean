import CrynuxRelay.Chain.Attempts

/-!
# A transaction is submitted once

* `Poller.step_eq` -- a poller claims a copy, or leaves its claims and its queue as they are;
* `SendInv` -- rows that were submitted are no longer pending, except for the one that the sender has
  just submitted; copies that are claimed and not yet sent were not submitted;
* `submitted_once` -- **if every copy is claimed while its row is still pending, every row is submitted at
  most once**;
* `submitted_twice` -- a copy that is polled before its row is sent, and claimed after that.
-/

namespace CrynuxRelay

open List Table RowsStay Poller

variable {s : ChainState} {tx : BlockchainTransaction} {s' : ChainState}

/-! ## pollers -/

lemma Poller.step_eq (txs : TransactionTable) (status : TransactionStatus) (p : Poller) :
    (∃ tx rest, p.claimed = some tx ∧ p.polled = tx :: rest ∧ tx.id ∉ p.claims ∧ p.step txs status =
        { p with polled := rest, claims := tx.id :: p.claims, queue := p.queue ++ [tx] }) ∨
    (p.step txs status).claims = p.claims ∧ (p.step txs status).queue = p.queue ∧
      ∀ tx ∈ (p.step txs status).polled, tx ∈ p.polled ∨ tx ∈ txs.rows ∧ tx.status = status := by
  by_cases hread : p.reading = true
  · refine .inr ?_
    rw [step, if_pos hread]
    split
    · exact ⟨rfl, rfl, fun tx htx => .inl htx⟩
    · refine ⟨rfl, rfl, fun tx htx => ?_⟩
      rcases mem_append.1 htx with htx | htx
      · exact .inl htx
      · have hrow := mem_of_mem_drop (mem_of_mem_take htx)
        exact .inr ⟨(mem_filter.1 hrow).1, of_decide_eq_true (mem_filter.1 hrow).2⟩
  · cases hp : p.polled with
    | nil =>
      have hstep : p.step txs status = { p with reading := true } := by
        simp only [step, if_neg hread, hp]
      refine .inr ?_
      rw [hstep]
      exact ⟨rfl, rfl, fun tx htx => .inl (hp ▸ htx)⟩
    | cons tx rest =>
      by_cases hc : tx.id ∈ p.claims
      · have hstep : p.step txs status = { p with polled := rest } := by
          simp only [step, if_neg hread, hp, if_pos hc]
        refine .inr ?_
        rw [hstep]
        exact ⟨rfl, rfl, fun t ht => .inl (mem_cons_of_mem tx ht)⟩
      · by_cases hq : p.queue.length ≤ queueCapacity
        · refine .inl ⟨tx, rest, ?_, rfl, hc, ?_⟩
          · simp only [claimed, if_neg hread, hp, hc, false_or, if_neg (Nat.not_lt.2 hq)]
          · simp only [step, if_neg hread, hp, if_neg hc, if_pos hq]
        · have hstep : p.step txs status = p := by
            simp only [step, if_neg hread, hp, if_neg hc, if_neg hq]
          refine .inr ?_
          rw [hstep]
          exact ⟨rfl, rfl, fun t ht => .inl (hp ▸ ht)⟩

/-! ## the invariant -/

def jobIDs (s : ChainState) : List Nat :=
  s.sender.queue.map (·.id) ++ (s.sending.map (·.tx.id)).toList

def submitted (s : ChainState) : List Nat := s.submissions.map Prod.fst

structure SendInv (s : ChainState) : Prop where
  claimed : ∀ id ∈ jobIDs s, id ∈ s.sender.claims
  nodup : (jobIDs s).Nodup
  rows : ∀ tx ∈ s.sender.polled ++ s.sender.queue, (s.txs.get tx.id).isSome = true
  row : ∀ job, s.sending = some job → (s.txs.get job.tx.id).isSome = true
  waiting : ∀ tx ∈ s.sender.queue, tx.id ∉ submitted s
  unsent : ∀ tx, s.sending = some ⟨tx, .dequeued⟩ ∨ s.sending = some ⟨tx, .checked⟩ →
    tx.id ∉ submitted s
  once : (submitted s).Nodup
  done : ∀ id ∈ submitted s, (∃ r, s.txs.get id = some r ∧ r.status ≠ .pending) ∨
    ∃ tx nonce, s.sending = some ⟨tx, .submitted nonce⟩ ∧ tx.id = id

lemma SendInv.of_rowsStay (h : SendInv s) (hk : RowsStay s.txs s'.txs)
    (hsender : s'.sender = s.sender) (hsending : s'.sending = s.sending)
    (hsub : s'.submissions = s.submissions) : SendInv s' := by
  have hjobs : jobIDs s' = jobIDs s := by rw [jobIDs, jobIDs, hsender, hsending]
  have hsubm : submitted s' = submitted s := by rw [submitted, submitted, hsub]
  refine ⟨?_, ?_, ?_, ?_, ?_, ?_, ?_, ?_⟩
  · rw [hjobs, hsender]
    exact h.claimed
  · rw [hjobs]
    exact h.nodup
  · rw [hsender]
    exact fun tx htx => hk.isSome (h.rows tx htx)
  · rw [hsending]
    exact fun job hjob => hk.isSome (h.row job hjob)
  · rw [hsender, hsubm]
    exact h.waiting
  · rw [hsending, hsubm]
    exact h.unsent
  · rw [hsubm]
    exact h.once
  · rw [hsubm, hsending]
    intro id hid
    rcases h.done id hid with ⟨r, hr, hs⟩ | hjob
    · obtain ⟨r', hr', -, hs'⟩ := hk id r hr
      exact .inl ⟨r', hr', hs' hs⟩
    · exact .inr hjob

/-! ## the steps -/

/-- the copy that is claimed is of a row that is still pending. -/
def ChainOp.ClaimsPending (s : ChainState) : ChainOp → Prop
  | .pollPending => ∀ tx, s.sender.claimed = some tx →
      ∃ r, s.txs.get tx.id = some r ∧ r.status = .pending
  | _ => True

/-- **a claim of a pending row is of one that was not submitted.** -/
theorem SendInv.not_submitted (h : SendInv s) {id : Nat} {r : BlockchainTransaction}
    (hid : id ∉ s.sender.claims) (hr : s.txs.get id = some r) (hp : r.status = .pending) :
    id ∉ submitted s := by
  intro hsub
  rcases h.done id hsub with ⟨r', hr', hs⟩ | ⟨tx, nonce, hjob, rfl⟩
  · rw [hr] at hr'
    cases hr'
    exact hs hp
  · refine hid (h.claimed _ ?_)
    rw [jobIDs, hjob]
    exact mem_append_right _ (mem_singleton.2 rfl)

lemma SendInv.pollPending (h : SendInv s) (hop : ChainOp.pollPending.ClaimsPending s) :
    SendInv { s with sender := s.sender.step s.txs .pending } := by
  rcases step_eq s.txs .pending s.sender with ⟨tx, rest, hclaim, hpolled, hfree, hstep⟩ |
    ⟨hclaims, hqueue, hmem⟩
  · rw [hstep]
    obtain ⟨r, hr, hp⟩ := hop tx hclaim
    have hnew : tx.id ∉ jobIDs s := fun hid => hfree (h.claimed _ hid)
    have hperm : (jobIDs { s with sender := { s.sender with
        polled := rest, claims := tx.id :: s.sender.claims, queue := s.sender.queue ++ [tx] } }).Perm
          (tx.id :: jobIDs s) := by
      simp only [jobIDs, map_append, map_cons, map_nil, append_assoc]
      exact perm_middle
    refine ⟨fun id hid => ?_, ?_, fun t ht => ?_, h.row, fun t ht => ?_, h.unsent, h.once, h.done⟩
    · rcases mem_cons.1 (hperm.subset hid) with rfl | hid
      · exact mem_cons_self
      · exact mem_cons_of_mem _ (h.claimed id hid)
    · exact hperm.nodup_iff.2 (nodup_cons.2 ⟨hnew, h.nodup⟩)
    · have hold : ∀ t ∈ rest ++ s.sender.queue, (s.txs.get t.id).isSome = true := by
        intro t ht
        refine h.rows t ?_
        rw [hpolled]
        exact mem_cons_of_mem tx ht
      rcases mem_append.1 ht with ht | ht
      · exact hold t (mem_append_left _ ht)
      · rcases mem_append.1 ht with ht | ht
        · exact hold t (mem_append_right _ ht)
        · rw [mem_singleton.1 ht, hr]
          rfl
    · rcases mem_append.1 ht with ht | ht
      · exact h.waiting t ht
      · rw [mem_singleton.1 ht]
        exact h.not_submitted hfree hr hp
  · have hjobs : jobIDs { s with sender := s.sender.step s.txs .pending } = jobIDs s := by
      simp only [jobIDs, hqueue]
    refine ⟨?_, ?_, fun t ht => ?_, h.row, ?_, h.unsent, h.once, h.done⟩
    · rw [hjobs]
      simp only [hclaims]
      exact h.claimed
    · rw [hjobs]
      exact h.nodup
    · simp only [hqueue] at ht
      rcases mem_append.1 ht with ht | ht
      · rcases hmem t ht with ht | ⟨hrow, -⟩
        · exact h.rows t (mem_append_left _ ht)
        · rw [mem_rows.1 hrow]
          rfl
      · exact h.rows t (mem_append_right _ ht)
    · simp only [hqueue]
      exact h.waiting

lemma SendInv.dequeue (h : SendInv s) {rest : List BlockchainTransaction}
    (hnone : s.sending = none) (hq : s.sender.queue = tx :: rest) : SendInv { s with
      sender := { s.sender with queue := rest }, sending := some ⟨tx, .dequeued⟩ } := by
  have hjobs : jobIDs s = tx.id :: rest.map (·.id) := by
    rw [jobIDs, hq, hnone]
    exact append_nil _
  have hperm : (jobIDs { s with
      sender := { s.sender with queue := rest }, sending := some ⟨tx, .dequeued⟩ }).Perm (jobIDs s) := by
    rw [hjobs]
    exact perm_append_singleton _ _
  refine ⟨fun id hid => h.claimed id (hperm.subset hid), hperm.nodup_iff.2 h.nodup, fun t ht => ?_,
    fun job hjob => ?_, fun t ht => ?_, fun t ht => ?_, h.once, fun id hid => ?_⟩
  · refine h.rows t ?_
    rw [hq]
    rcases mem_append.1 ht with ht | ht
    · exact mem_append_left _ ht
    · exact mem_append_right _ (mem_cons_of_mem tx ht)
  · cases hjob
    refine h.rows tx (mem_append_right _ ?_)
    rw [hq]
    exact mem_cons_self
  · refine h.waiting t ?_
    rw [hq]
    exact mem_cons_of_mem tx ht
  · have htx : t = tx := by
      rcases ht with ht | ht
      · cases ht
        rfl
      · cases ht
    rw [htx]
    refine h.waiting tx ?_
    rw [hq]
    exact mem_cons_self
  · rcases h.done id hid with hdone | ⟨tx', nonce, hjob, -⟩
    · exact .inl hdone
    · rw [hnone] at hjob
      cases hjob

lemma SendInv.stage (h : SendInv s) {stage stage' : SendStage} (hjob : s.sending = some ⟨tx, stage⟩)
    (hjob' : s'.sending = some ⟨tx, stage'⟩) (hk : RowsStay s.txs s'.txs)
    (hsender : s'.sender = s.sender) (hsub : s'.submissions = s.submissions)
    (hunsent : stage' = .dequeued ∨ stage' = .checked → stage = .dequeued ∨ stage = .checked)
    (hdone : ∀ nonce, stage = .submitted nonce → ∃ r, s'.txs.get tx.id = some r ∧
    r.status ≠ .pending) : SendInv s' := by
  have hjobs : jobIDs s' = jobIDs s := by rw [jobIDs, jobIDs, hsender, hjob, hjob']; rfl
  have hsubm : submitted s' = submitted s := by rw [submitted, submitted, hsub]
  refine ⟨?_, ?_, ?_, fun job hj => ?_, ?_, fun t ht => ?_, ?_, fun id hid => ?_⟩
  · rw [hjobs, hsender]
    exact h.claimed
  · rw [hjobs]
    exact h.nodup
  · rw [hsender]
    exact fun t ht => hk.isSome (h.rows t ht)
  · rw [hjob'] at hj
    cases hj
    exact hk.isSome (h.row ⟨tx, stage⟩ hjob)
  · rw [hsender, hsubm]
    exact h.waiting
  · rw [hsubm]
    rw [hjob'] at ht
    have hstage : tx = t ∧ (stage' = .dequeued ∨ stage' = .checked) := by
      rcases ht with ht | ht
      · cases ht
        exact ⟨rfl, .inl rfl⟩
      · cases ht
        exact ⟨rfl, .inr rfl⟩
    refine h.unsent t ?_
    rw [hjob, ← hstage.1]
    rcases hunsent hstage.2 with rfl | rfl
    · exact .inl rfl
    · exact .inr rfl
  · rw [hsubm]
    exact h.once
  · rw [hsubm] at hid
    rcases h.done id hid with ⟨r, hr, hs⟩ | ⟨t, nonce, ht, rfl⟩
    · obtain ⟨r', hr', -, hs'⟩ := hk id r hr
      exact .inl ⟨r', hr', hs' hs⟩
    · rw [hjob] at ht
      cases ht
      exact .inl (hdone nonce rfl)

lemma SendInv.submit (h : SendInv s) {nonce : Nat} (hjob : s.sending = some ⟨tx, .checked⟩) :
    SendInv { s with
      sending := some ⟨tx, .submitted nonce⟩, submissions := s.submissions ++ [(tx.id, nonce)] } := by
  have hnew : tx.id ∉ submitted s := h.unsent tx (.inr hjob)
  have hjobs : jobIDs { s with
      sending := some ⟨tx, .submitted nonce⟩, submissions := s.submissions ++ [(tx.id, nonce)] } =
        jobIDs s := by
    rw [jobIDs, jobIDs, hjob]
    rfl
  have hsubm : submitted { s with
      sending := some ⟨tx, .submitted nonce⟩, submissions := s.submissions ++ [(tx.id, nonce)] } =
        submitted s ++ [tx.id] := by
    rw [submitted, submitted, map_append]
    rfl
  refine ⟨?_, ?_, h.rows, fun job hj => ?_, fun t ht => ?_, fun t ht => ?_, ?_, fun id hid => ?_⟩
  · rw [hjobs]
    exact h.claimed
  · rw [hjobs]
    exact h.nodup
  · cases hj
    exact h.row ⟨tx, .checked⟩ hjob
  · rw [hsubm]
    intro hid
    rcases mem_append.1 hid with hid | hid
    · exact h.waiting t ht hid
    · -- the copy that was submitted is no longer in the queue
      have hnodup := h.nodup
      rw [jobIDs, hjob] at hnodup
      refine (nodup_append.1 hnodup).2.2 t.id (mem_map.2 ⟨t, ht, rfl⟩) tx.id
        (mem_singleton.2 rfl) (mem_singleton.1 hid)
  · rcases ht with ht | ht
    · cases ht
    · cases ht
  · rw [hsubm]
    refine nodup_append.2 ⟨h.once, nodup_singleton _, fun a ha b hb hab => ?_⟩
    rw [hab, mem_singleton.1 hb] at ha
    exact hnew ha
  · rw [hsubm] at hid
    rcases mem_append.1 hid with hid | hid
    · rcases h.done id hid with hdone | ⟨t, n, ht, -⟩
      · exact .inl hdone
      · rw [hjob] at ht
        cases ht
    · exact .inr ⟨tx, nonce, rfl, (mem_singleton.1 hid).symm⟩

lemma SendInv.release (h : SendInv s) (hjob : s.sending = some ⟨tx, .finished⟩) :
    SendInv { s with sender := s.sender.release tx.id, sending := none } := by
  have hnodup := h.nodup
  rw [jobIDs, hjob] at hnodup
  obtain ⟨hq, -, hne⟩ := nodup_append.1 hnodup
  have hjobs : jobIDs { s with sender := s.sender.release tx.id, sending := none } =
      s.sender.queue.map (·.id) := append_nil _
  refine ⟨fun id hid => ?_, ?_, h.rows, fun job hj => (by cases hj), h.waiting, fun t ht => ?_, h.once,
    fun id hid => ?_⟩
  · rw [hjobs] at hid
    have hold : id ∈ jobIDs s := mem_append_left _ hid
    refine mem_filter.2 ⟨h.claimed id hold, decide_eq_true ?_⟩
    exact hne id hid tx.id (mem_singleton.2 rfl)
  · rwa [hjobs]
  · rcases ht with ht | ht
    · cases ht
    · cases ht
  · rcases h.done id hid with hdone | ⟨t, n, ht, -⟩
    · exact .inl hdone
    · rw [hjob] at ht
      cases ht

lemma SendInv.exec {cfg : ChainConfig} (h : SendInv s) (op : ChainOp) (hop : op.ClaimsPending s) :
    SendInv (op.exec cfg s) := by
  cases op with
  | queue payload maxRetries => exact h.of_rowsStay (insert _ rfl) rfl rfl rfl
  | pollPending => exact h.pollPending hop
  | dequeue =>
    rw [ChainOp.exec]
    split
    · next tx rest hnone hq => exact h.dequeue hnone hq
    · exact h
  | check =>
    rw [ChainOp.exec]
    split
    · next tx hjob =>
      split
      · exact h.stage hjob rfl (refl _) rfl rfl (by simp) (by simp)
      · exact h.stage hjob rfl (rowsStay_markFailed tx s.txs) rfl rfl (by simp) (by simp)
      · exact h.stage hjob rfl (refl _) rfl rfl (by simp) (by simp)
    · exact h
  | submit nonce accepted =>
    rw [ChainOp.exec]
    split
    · next tx hjob =>
      split
      · exact h.submit hjob
      · exact h.stage hjob rfl (refl _) rfl rfl (by simp) (by simp)
    · exact h
  | markSent txHash =>
    rw [ChainOp.exec]
    split
    · next tx nonce hjob =>
      have hstay := rowsStay_markSent s.now tx s.txs txHash nonce
      refine h.stage hjob rfl hstay rfl rfl (by simp) fun n hn => ?_
      obtain ⟨r, hr⟩ := Option.isSome_iff_exists.1 (h.row ⟨tx, .submitted nonce⟩ hjob)
      refine ⟨{ r with
        status := .sent, txHash := some txHash, nonce := some nonce, sentAt := some s.now }, ?_, by simp⟩
      show (markSent s.now tx txHash nonce s.txs).get tx.id = _
      rw [markSent, get_modify_self, hr]
      rfl
    · exact h
  | release =>
    rw [ChainOp.exec]
    split
    · next tx hjob => exact h.release hjob
    · exact h
  | startWorker =>
    rw [ChainOp.exec]
    split
    · split
      · exact h.of_rowsStay (refl _) rfl rfl rfl
      · exact h
    · exact h
  | confirm i receipt =>
    rw [ChainOp.exec]
    split
    · exact h.of_rowsStay (rowsStay_confirmTransaction _ _ _ _) rfl rfl rfl
    · exact h
  | releaseWorker i =>
    rw [ChainOp.exec]
    split
    · exact h.of_rowsStay (refl _) rfl rfl rfl
    · exact h
  | _ => exact h.of_rowsStay (refl _) rfl rfl rfl

lemma sendInv_init (txs : TransactionTable) : SendInv { txs := txs } where
  claimed := nofun
  nodup := nodup_nil
  rows := nofun
  row := fun job hjob => by cases hjob
  waiting := nofun
  unsent := fun tx htx => by rcases htx with h | h <;> cases h
  once := nodup_nil
  done := nofun

/-- **every row is submitted at most once, under one nonce**, in every run in which each copy is claimed
while its row is still pending. -/
theorem submitted_once (cfg : ChainConfig) (txs : TransactionTable) (ops : List ChainOp)
    (h : Along (ChainOp.exec cfg) (fun s op => op.ClaimsPending s) ops { txs := txs }) (id : Nat) :
    ((run (ChainOp.exec cfg) ops { txs := txs }).submissions.filter fun p => p.1 = id).length ≤ 1 := by
  have hinv : SendInv (run (ChainOp.exec cfg) ops { txs := txs }) :=
    run_invariant (fun s op hs hop => hs.exec op hop) ops _ h (sendInv_init txs)
  have hcount := nodup_iff_count_le_one.1 hinv.once id
  rwa [submitted, List.count, countP_map, countP_eq_length_filter] at hcount

/-! ## a copy from before -/

def chainConfig : ChainConfig where
  blockchains := fun _ =>
    some { sendWaitTime := 600, receiptWaitTime := 600, retryInterval := 60,
           sentTransactionCountLimit := 10 }

def slashPayload : TransactionPayload where
  network := ['n']
  fromAddress := ['r']
  toAddress := ['c']
  value := ['0']
  data := none

def claimRun : List ChainOp := [.queue slashPayload 1, .pollPending, .pollPending, .pollPending]

def sendRun (nonce : Nat) (txHash : Text) : List ChainOp :=
  [.dequeue, .check, .submit nonce true, .markSent txHash, .release]

theorem submitted_once_at_sendRun : ((run (ChainOp.exec chainConfig) (claimRun ++ sendRun 7 ['h'])
      { txs := Table.empty }).submissions.filter fun p => p.1 = 1).length ≤ 1 := by
  refine submitted_once chainConfig Table.empty _ ?_ 1
  have hnone : ∀ tx : BlockchainTransaction, (none : Option BlockchainTransaction) = some tx →
      ∀ s : ChainState, ∃ r, s.txs.get tx.id = some r ∧ r.status = .pending := fun tx h => by cases h
  refine ⟨trivial, fun tx h => hnone tx h _, fun tx h => hnone tx h _, fun tx h => ?_, trivial, trivial,
    trivial, trivial, trivial, trivial⟩
  cases h
  exact ⟨_, rfl, rfl⟩

/-- **a row is submitted under two nonces**: it is polled again before it is marked as sent, and that
copy is claimed after the first claim was released. -/
theorem submitted_twice : (run (ChainOp.exec chainConfig)
      (claimRun ++ [.pollPending, .pollPending] ++ sendRun 7 ['h'] ++ [.pollPending, .pollPending] ++
        [.dequeue, .check, .submit 8 true]) { txs := Table.empty }).submissions = [(1, 7), (1, 8)] := by
  decide +kernel

end CrynuxRelay
