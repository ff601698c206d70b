import CrynuxRelay.Accounts.Backing
import CrynuxRelay.Tasks.Contract

/-!
# The three views of the money agree

The events, the rows of the accounts and the cache, after any sequence of operations and rounds of
the projector.

* `AccountsInv` -- the ledger of the state is coherent, every pending event is backed, and none of the
  new events is invalid; `due` lists the events whose increment of the cache is outstanding;
* `run_coherent` -- the views agree in every state that a run reaches;
* `run_audited` -- the log explains every balance.
-/

namespace CrynuxRelay

open List Option Table Tx Ledger

variable {db db' : Db} {u : Unit} {env : Env} {id : Nat} {s : RelayState}
  {unit : Text → Set Text} {deposits : ConfirmedDeposits} {base : Text → Int} {first : Nat}
  {due ds : List EventDraft} {known : List Text} {w w' : World} {op : RelayOp}

/-! ## the invariant -/

variable (deposits base first) in
/-- events up to `first` are older than the run, and `base` is what they have left; `due` are the events
whose increments are outstanding, and `known` are accounts in the cache. -/
structure AccountsInv (due : List EventDraft) (known : List Text) (w : World) : Prop where
  coherent : ((ledger w).owe (due.map (·.posting))).Coherent
  credits : ∀ d ∈ due, 0 ≤ d.posting.amount
  booked : ∀ a, projectedBalance w.db a + pendingSum w.db a =
    base a + total ((logOf w.db).map (·.posting)) a
  loaded : ∀ e ∈ pendingEvents w.db, Loaded w e.address ∨ e.draft ∈ due
  backed : ∀ e ∈ pendingEvents w.db, FundsBacked deposits w.db e.draft
  records : RecordsOk w.db
  cached : ∀ a ∈ known, Loaded w a
  named : ∀ d ∈ (logOf w.db).drop first, Named deposits d
  valid : ∀ e ∈ w.db.relayAccountEvents.rows, first < e.id → e.status ≠ .invalid

lemma queue_appends (h : Appends ds db db') : (pendingEvents db').map (·.posting) =
      (pendingEvents db).map (·.posting) ++ ds.map (·.posting) := by
  obtain ⟨es, hpend, hes⟩ := h.pendingEvents
  rw [hpend, map_append, ← hes, List.map_map]
  rfl

lemma SameCharges.keeps (h : SameCharges db.withdrawRecords db'.withdrawRecords) :
    KeepsWithdrawals db db' := by
  intro id r hr
  have hid := h id
  rw [hr] at hid
  obtain ⟨r', hr', -⟩ := map_eq_some_iff.1 hid
  exact ⟨r', hr'⟩

lemma FundsBacked.congr {d : EventDraft} (h : FundsBacked deposits db d)
    (hw : KeepsWithdrawals db db') (hv : SameTerms db.vestingRecords db'.vestingRecords) :
    FundsBacked deposits db' d := by
  refine h.mono hw fun _ hrel => ?_
  obtain ⟨id, hrel⟩ := hrel
  exact ⟨id, hrel.congr (hv id)⟩

lemma RecordsOk.congr (h : RecordsOk db) (ht : db'.tasks = db.tasks)
    (hw : SameCharges db.withdrawRecords db'.withdrawRecords)
    (hv : SameTerms db.vestingRecords db'.vestingRecords) : RecordsOk db' where
  fees := fun c t hc => h.fees c t (by rw [← ht]; exact hc)
  commitments := fun c t hc => h.commitments c t (by rw [← ht]; exact hc)
  withdrawals := fun id x hx => h.withdrawals id x (by rw [← hw id]; exact hx)
  vestings := fun id a x y hx => h.vestings id a x y (by rw [← hv id]; exact hx)

section
variable (h : AccountsInv deposits base first due known w)
include h

lemma AccountsInv.owed_nonneg (a : Text) : 0 ≤ total (due.map (·.posting)) a := by
  refine total_nonneg (fun p hp => ?_) a
  obtain ⟨d, hd, rfl⟩ := mem_map.1 hp
  exact h.credits d hd

/-- **new events** that are affordable and backed, and leave the others backed; each is in the cache
already or its increment becomes due. -/
theorem AccountsInv.append {due' : List EventDraft}
    (happ : Appends ds w.db w'.db) (hacc : w'.db.relayAccounts = w.db.relayAccounts)
    (hledger : (ledger w').owe (due'.map (·.posting)) =
      ((ledger w).owe (due.map (·.posting))).post (ds.map (·.posting)))
    (haff : ((ledger w).owe (due.map (·.posting))).Affordable (ds.map (·.posting)))
    (hcred : ∀ d ∈ due', 0 ≤ d.posting.amount) (hkeep : ∀ a, Loaded w a → Loaded w' a)
    (hdue : ∀ d ∈ due, d ∈ due') (hload : ∀ d ∈ ds, Loaded w' d.address ∨ d ∈ due')
    (hrec : RecordsOk w'.db) (hnew : ∀ d ∈ ds, FundsBacked deposits w'.db d)
    (hold : ∀ e ∈ pendingEvents w.db, FundsBacked deposits w.db e.draft →
      FundsBacked deposits w'.db e.draft) : AccountsInv deposits base first due' known w' := by
  obtain ⟨es, hpend, hes⟩ := happ.pendingEvents
  have hmem : ∀ e ∈ es, e.draft ∈ ds := by
    intro e he
    rw [← hes]
    exact mem_map_of_mem he
  refine ⟨?_, hcred, fun a => ?_, fun e he => ?_, fun e he => ?_, hrec,
    fun a ha => hkeep a (h.cached a ha), fun d hd => ?_, fun e he hlt => ?_⟩
  · rw [hledger]
    exact coherent_post h.coherent haff
  · have hproj : projectedBalance w'.db a = projectedBalance w.db a := by
      rw [projectedBalance, hacc, projectedBalance]
    have hsum : pendingSum w'.db a = pendingSum w.db a + total (ds.map (·.posting)) a := by
      rw [pendingSum, queue_appends happ, total_append]
      rfl
    rw [hproj, hsum, happ.logOf, map_append, total_append, ← add_assoc, ← add_assoc, h.booked]
  · rw [hpend] at he
    rcases mem_append.1 he with he | he
    · exact (h.loaded e he).imp (hkeep e.address) (hdue e.draft)
    · exact hload e.draft (hmem e he)
  · rw [hpend] at he
    rcases mem_append.1 he with he | he
    · exact hold e he (h.backed e he)
    · exact hnew e.draft (hmem e he)
  · rw [happ.logOf, drop_append] at hd
    rcases mem_append.1 hd with hd | hd
    · exact h.named d hd
    · exact (hnew d (mem_of_mem_drop hd)).named
  · obtain ⟨es', hrows, -, hpending⟩ := happ
    rw [hrows] at he
    rcases mem_append.1 he with he | he
    · exact h.valid e he hlt
    · rw [hpending e he]
      decide

lemma AccountsInv.post (hp : Posts ds w w')
    (haff : ((ledger w).owe (due.map (·.posting))).Affordable (ds.map (·.posting)))
    (hrec : RecordsOk w'.db) (hnew : ∀ d ∈ ds, FundsBacked deposits w'.db d)
    (hold : ∀ e ∈ pendingEvents w.db, FundsBacked deposits w.db e.draft →
      FundsBacked deposits w'.db e.draft) : AccountsInv deposits base first due known w' :=
  h.append hp.appends hp.accounts (by rw [hp.ledger_eq, owe_post]) haff h.credits
    hp.keeps_loaded (fun d hd => hd) (fun d hd => .inl (hp.loads d hd)) hrec hnew hold

/-! ## operations that are not about tasks -/

/-- an operation on money that leaves the charges and the vestings as they are. -/
lemma AccountsInv.funds (he : FundsEffect ds w w')
    (hw : SameCharges w.db.withdrawRecords w'.db.withdrawRecords)
    (hv : SameTerms w.db.vestingRecords w'.db.vestingRecords) (hpos : ∀ d ∈ ds, 0 ≤ d.posting.amount)
    (hnew : ∀ d ∈ ds, FundsBacked deposits w'.db d) : AccountsInv deposits base first due known w' := by
  refine h.post he.posts ?_ (h.records.congr he.tasks hw hv) hnew fun e _ hb => hb.congr hw.keeps hv
  refine affordable_of_nonneg h.coherent fun p hp => ?_
  obtain ⟨d, hd, rfl⟩ := mem_map.1 hp
  exact hpos d hd

lemma AccountsInv.undone (hu : Undone w w') : AccountsInv deposits base first due known w' :=
  h.funds hu.fundsEffect (fun id => by rw [hu.db]) (fun id => by rw [hu.db]) (by simp) (by simp)

/-- an operation whose success keeps the invariant, and whose failure is undone. -/
lemma accountsInv_of_ok {α : Type} {x : Relay α} [hf : Tx.KeptOnFail Undone x]
    (hok : ∀ a w', Ok x w a w' → AccountsInv deposits base first due known w') :
    AccountsInv deposits base first due known (after x w) := by
  rcases ok_or_fails x w with ⟨a, hx⟩ | ⟨e, hx⟩
  · exact hok a _ hx
  · exact h.undone (hf.onFail w e _ hx)

lemma deposit_accountsInv {successful : Bool} {txHash network : Text} {d : DepositTxData}
    (hd : successful = true → deposits.deposit txHash network = some d)
    (hok : Ok (processDeposit successful txHash network d) w u w') :
    AccountsInv deposits base first due known w' := by
  cases successful with
  | false =>
    rw [processDeposit, ok_getDb_bind] at hok
    rcases ok_when.1 hok with ⟨hc, -⟩ | ⟨-, rfl⟩
    · exact absurd (of_decide_eq_true hc).1 (by decide)
    · exact h
  | true =>
    rcases processDeposit_ok hok with rfl | ⟨heff, hw, hv⟩
    · exact h
    · refine h.funds heff (fun id => by rw [hw]) (fun id => by rw [hv]) (fun x hx => ?_)
        fun x hx => ?_
      · rw [mem_singleton.1 hx]
        exact (deposits.positive _ _ _ (hd rfl)).le
      · rw [mem_singleton.1 hx]
        exact ⟨txHash, network, d, hd rfl, rfl⟩

lemma withdraw_accountsInv {userAddress : Text} {input : CreateWithdrawInput}
    (hok : Ok (createWithdrawRequest env userAddress input) w id w') :
    AccountsInv deposits base first due known w' := by
  obtain ⟨amount, fee, eventID, hamount, hfee, hid, hfresh, hle, heff, hget, hv⟩ :=
    createWithdrawRequest_ok hok
  have hkeep : KeepsWithdrawals w.db w'.db := by
    intro j r hr
    have hj : j ≠ id := by
      rintro rfl
      rw [hfresh] at hr
      cases hr
    exact ⟨r, by rw [hget, if_neg hj]; exact hr⟩
  have hrec : RecordsOk w'.db := by
    refine ⟨fun c t hc => h.records.fees c t (by rw [← heff.tasks]; exact hc),
      fun c t hc => h.records.commitments c t (by rw [← heff.tasks]; exact hc), fun j x hx => ?_,
      fun j a x y hx => h.records.vestings j a x y (by rw [← hv]; exact hx)⟩
    rw [hget] at hx
    split at hx
    · next e =>
      have hx : amount + fee = x := some.inj hx
      exact ⟨e ▸ hid, by omega⟩
    · exact h.records.withdrawals j x hx
  refine h.post heff.posts ?_ hrec (fun d hd => ?_) fun e _ hb => hb.congr hkeep fun j => by rw [hv]
  · refine affordable_single h.coherent input.address (-(amount + fee)) ?_
    have howed := h.owed_nonneg input.address
    show 0 ≤ cachedBalance w input.address + total (due.map (·.posting)) input.address +
      -(amount + fee)
    omega
  · rw [mem_singleton.1 hd]
    exact ⟨id, _, by rw [hget, if_pos rfl], rfl⟩

lemma resolve_accountsInv {r : WithdrawRecord}
    (hget : w.db.withdrawRecords.get id = some r) (heff : FundsEffect ds w w')
    (hw : SameCharges w.db.withdrawRecords w'.db.withdrawRecords)
    (hv : w'.db.vestingRecords = w.db.vestingRecords) (hds : ∀ d ∈ ds, 0 ≤ d.posting.amount ∧
      (d.type = .withdrawRefund ∨ d.type = .withdrawFeeIncome) ∧
      d.reason = reason2 d.type (Text.decimal id)) :
    AccountsInv deposits base first due known w' := by
  obtain ⟨r', hr'⟩ := hw.keeps id r hget
  refine h.funds heff hw (fun j => by rw [hv]) (fun d hd => (hds d hd).1) fun d hd => ?_
  obtain ⟨-, ht, hreason⟩ := hds d hd
  have hb : WithdrawBacked w'.db d := ⟨id, r', hr', hreason⟩
  unfold FundsBacked
  rcases ht with ht | ht
  · rwa [ht]
  · rwa [ht]

end

/-! ## vesting releases -/

/-- the pending releases are for vestings that the round will not visit. -/
def ReleasedBefore (ids : List Nat) (db : Db) : Prop :=
  ∀ e ∈ pendingEvents db, e.type = .vestingRelease → ∃ id, id ∉ ids ∧ ReleaseBacked db id e.draft

section
variable (h : AccountsInv deposits base first due known w)
include h

/-- one release of a round: the vesting has no pending release, so none loses its backing. -/
lemma release_accountsInv {ids : List Nat} (hnd : (id :: ids).Nodup)
    (hfree : ReleasedBefore (id :: ids) w.db) (hok : Ok (processSingleVestingRelease env id) w u w') :
    AccountsInv deposits base first due known w' ∧ ReleasedBefore ids w'.db := by
  obtain ⟨hw, ⟨heff, hv⟩ | ⟨v, toReleased, hget, hrel⟩⟩ := processSingleVestingRelease_ok hok
  · refine ⟨h.funds heff (fun j => by rw [hw]) hv (by simp) (by simp), fun e he ht => ?_⟩
    obtain ⟨es, hpend, hes⟩ := heff.posts.appends.pendingEvents
    rw [hpend, map_eq_nil_iff.1 hes, append_nil] at he
    obtain ⟨j, hj, hb⟩ := hfree e he ht
    exact ⟨j, fun hm => hj (mem_cons_of_mem id hm), hb.congr (hv j)⟩
  · obtain ⟨hmore, hle, heff, hterms⟩ := hrel
    have hid : v.id = id := key_of_get hget
    rw [hid] at hterms
    obtain ⟨hlt, hpos⟩ := h.records.vestings id v.address v.totalAmount v.releasedAmount
      (by rw [hget]; rfl)
    have hnew : ReleaseBacked w'.db id (vestingReleaseDraft v toReleased) := by
      refine ⟨v.address, v.totalAmount, v.releasedAmount, toReleased, ?_, hpos, hmore, hle, ?_⟩
      · rw [hterms, if_pos rfl]
      · rw [vestingReleaseDraft, hid]
    have hold : ∀ {j d}, j ∉ id :: ids → ReleaseBacked w.db j d → ReleaseBacked w'.db j d := by
      intro j d hj hb
      refine hb.congr ?_
      rw [hterms, if_neg]
      rintro rfl
      exact hj mem_cons_self
    refine ⟨h.post heff.posts ?_ ?_ (fun d hd => ?_) fun e he hb => ?_, fun e he ht => ?_⟩
    · refine affordable_of_nonneg h.coherent fun p hp => ?_
      rw [map_singleton, mem_singleton] at hp
      rw [hp]
      show 0 ≤ toReleased - v.releasedAmount
      omega
    · refine ⟨fun c t hc => h.records.fees c t (by rw [← heff.tasks]; exact hc),
        fun c t hc => h.records.commitments c t (by rw [← heff.tasks]; exact hc),
        fun j x hx => h.records.withdrawals j x (by rw [← hw]; exact hx), fun j a x y hx => ?_⟩
      rw [hterms] at hx
      split at hx
      · next e =>
        cases hx
        exact ⟨e ▸ hlt, by omega⟩
      · exact h.records.vestings j a x y hx
    · rw [mem_singleton.1 hd]
      exact ⟨id, hnew⟩
    · refine hb.mono (fun j r hr => ⟨r, by rw [hw]; exact hr⟩) fun ht _ => ?_
      obtain ⟨j, hj, hb⟩ := hfree e he ht
      exact ⟨j, hold hj hb⟩
    · obtain ⟨es, hpend, hes⟩ := heff.posts.appends.pendingEvents
      rw [hpend] at he
      rcases mem_append.1 he with he | he
      · obtain ⟨j, hj, hb⟩ := hfree e he ht
        exact ⟨j, fun hm => hj (mem_cons_of_mem id hm), hold hj hb⟩
      · have hd : e.draft ∈ [vestingReleaseDraft v toReleased] := by
          rw [← hes]
          exact mem_map_of_mem he
        rw [mem_singleton.1 hd]
        exact ⟨id, (nodup_cons.1 hnd).1, hnew⟩

/-- **a round of releases** starts when no release is pending and visits every vesting once. -/
theorem releases_accountsInv (env : Env) :
    AccountsInv deposits base first due known (after (processDueVestingReleases env) w) := by
  show AccountsInv deposits base first due known (after (Tx.when
    (hasPendingVestingReleaseEvent w.db = false)
    (Tx.each (processSingleVestingRelease env) (dueVestingIDs w.db))) w)
  cases hc : hasPendingVestingReleaseEvent w.db with
  | true => exact h
  | false =>
    have hnone : ReleasedBefore (dueVestingIDs w.db) w.db := by
      intro e he ht
      obtain ⟨hm, hp⟩ := mem_filter.1 he
      have hany : hasPendingVestingReleaseEvent w.db = true :=
        any_eq_true.2 ⟨e, hm, decide_eq_true ⟨ht, of_decide_eq_true hp⟩⟩
      rw [hc] at hany
      cases hany
    have hnd : (dueVestingIDs w.db).Nodup :=
      (nodup_map_key_rows w.db.vestingRecords).sublist (filter_sublist.map _)
    refine each_invariant (fun ids w => AccountsInv deposits base first due known w ∧
      ids.Nodup ∧ ReleasedBefore ids w.db) ?_ ?_ (fun w h => h.1) _ w ⟨h, hnd, hnone⟩
    · intro id ids w w' hinv hok
      obtain ⟨h, hnd, hfree⟩ := hinv
      obtain ⟨h', hfree'⟩ := release_accountsInv h hnd hfree hok
      exact ⟨h', (nodup_cons.1 hnd).2, hfree'⟩
    · intro id ids w e w' hinv hfail
      exact hinv.1.undone (Tx.KeptOnFail.onFail w e w' hfail)

/-! ## tasks -/

lemma AccountsInv.task (he : TaskEffect ds w w') : AccountsInv deposits base first due known w' := by
  have hterms := he.vestingRecords.sameTerms
  have hrec : RecordsOk w'.db := by
    refine ⟨he.feesNonneg h.records.fees, fun c t' ht' => ?_,
      fun id x hx => h.records.withdrawals id x (by rw [← he.withdrawRecords]; exact hx),
      fun id a x y hx => h.records.vestings id a x y (by rw [← hterms id]; exact hx)⟩
    cases ht : w.db.tasks.get c with
    | none =>
      rw [he.absent c ht] at ht'
      cases ht'
    | some t => exact h.records.commitments c t ht
  refine h.post he.posts ?_ hrec (fun d hd =>
    fundsBacked_of_task (he.types d hd) (he.accounted d hd)) fun e _ hb =>
    hb.congr (fun id r hr => ⟨r, by rw [he.withdrawRecords]; exact hr⟩) hterms
  refine affordable_of_nonneg h.coherent fun p hp => ?_
  obtain ⟨d, hd, rfl⟩ := mem_map.1 hp
  obtain ⟨hcredit, hpos⟩ := he.credits h.records.fees d hd
  rwa [EventDraft.posting, hcredit]

lemma AccountsInv.proceeds
    (hp : Proceeds unit w w') : AccountsInv deposits base first due known w' := by
  obtain ⟨-, ds, he⟩ := hp
  exact h.task he

lemma create_accountsInv {t : NewTask}
    (hfee : 0 ≤ t.task.taskFee) (hplain : '-' ∉ t.task.taskIDCommitment)
    (hok : Ok (createTask env t.task) w u w') : AccountsInv deposits base first due known w' := by
  obtain ⟨hle, hnew, hr, rfl⟩ := createTask_ok hok
  have hposts : Posts [paymentDraft t.task] w (afterCreate env t.task w) := posts_afterCreate hr
  have hrec : RecordsOk (afterCreate env t.task w).db := by
    refine ⟨fun c u hu => ?_, fun c u hu => ?_, h.records.withdrawals, h.records.vestings⟩
    · rw [get_afterCreate hnew] at hu
      split at hu
      · cases hu
        exact hfee
      · exact h.records.fees c u hu
    · rw [get_afterCreate hnew] at hu
      split at hu
      · next e =>
        rwa [e]
      · exact h.records.commitments c u hu
  refine h.post hposts ?_ hrec (fun d hd => ?_) fun e _ hb =>
    hb.congr (fun id r hr => ⟨r, hr⟩) fun _ => rfl
  · refine affordable_single h.coherent t.task.creator (-t.task.taskFee) ?_
    have howed := h.owed_nonneg t.task.creator
    show 0 ≤ cachedBalance w t.task.creator + total (due.map (·.posting)) t.task.creator +
      -t.task.taskFee
    omega
  · rw [mem_singleton.1 hd]
    exact ⟨t.task.taskIDCommitment, rfl⟩

end

/-! ## the projector -/

/-- the cached balance of an account without events in the batch is not affected. -/
lemma ledger_projectBatch (limit : Nat)
    (hl : ∀ e ∈ (pendingEvents w.db).take limit, Loaded w e.address) :
    ledger ⟨projectBatch ((pendingEvents w.db).take limit) w.db, w.mem⟩ =
      (ledger w).settle limit := by
  have hqueue : ((pendingEvents w.db).take limit).map (·.posting) =
      (ledger w).queue.take limit := map_take
  have hsettled : projectedBalance (projectBatch ((pendingEvents w.db).take limit) w.db) =
      fun a => projectedBalance w.db a + total ((ledger w).queue.take limit) a := by
    funext a
    rw [projectedBalance_projectBatch, hqueue]
  have hcached : cachedBalance ⟨projectBatch ((pendingEvents w.db).take limit) w.db, w.mem⟩ =
      cachedBalance w := by
    funext a
    rw [cachedBalance, cachedBalance]
    cases hc : w.mem.relayAccountCache a with
    | some b => rfl
    | none =>
      show projectedBalance (projectBatch ((pendingEvents w.db).take limit) w.db) a = _
      rw [projectedBalance_projectBatch, total_of_not_mem, add_zero]
      · rfl
      · intro p hp ha
        obtain ⟨e, he, rfl⟩ := mem_map.1 hp
        have hload := hl e he
        rw [show e.address = a from ha, Loaded, hc] at hload
        cases hload
  rw [ledger, hsettled, hcached, pendingEvents_projectBatch, map_drop]
  rfl

/-- **an accepted batch** moves a prefix of the queue to the rows. -/
theorem AccountsInv.projectBatch (h : AccountsInv deposits base first due known w) (limit : Nat)
    (hl : ∀ e ∈ (pendingEvents w.db).take limit, Loaded w e.address) :
    AccountsInv deposits base first due known
      ⟨CrynuxRelay.projectBatch ((pendingEvents w.db).take limit) w.db, w.mem⟩ := by
  have hcharges : SameCharges w.db.withdrawRecords
      (CrynuxRelay.projectBatch ((pendingEvents w.db).take limit) w.db).withdrawRecords :=
    SameWithdrawals.charges fun id => (sameWithdrawals_markRecords _ [] _ _ id).trans
      (sameWithdrawals_markRecords _ [] _ w.db id)
  have hsub : ∀ e ∈ pendingEvents (CrynuxRelay.projectBatch ((pendingEvents w.db).take limit) w.db),
      e ∈ pendingEvents w.db := by
    intro e he
    rw [pendingEvents_projectBatch] at he
    exact mem_of_mem_drop he
  have hlog : logOf (CrynuxRelay.projectBatch ((pendingEvents w.db).take limit) w.db) =
      logOf w.db := (logOf_mark _ _ _).trans (logOf_mark _ _ _)
  refine ⟨?_, h.credits, fun a => ?_, fun e he => h.loaded e (hsub e he), fun e he => ?_,
    h.records.congr rfl hcharges fun _ => rfl, h.cached, by rw [hlog]; exact h.named,
    fun e he hlt => ?_⟩
  · rw [ledger_projectBatch limit hl]
    exact coherent_settle h.coherent limit
  · rw [projectedBalance_projectBatch, hlog, ← h.booked, pendingSum, pendingEvents_projectBatch,
      add_assoc, pendingSum_take_add_drop]
  · exact (h.backed e (hsub e he)).congr hcharges.keeps fun _ => rfl
  · obtain ⟨e0, he0, rfl⟩ := mem_map.1 he
    have hrows : e0 ∈ w.db.relayAccountEvents.rows := by
      rw [← markInvalid_nil_events]
      exact he0
    split
    · exact RelayAccountEventStatus.noConfusion
    · exact h.valid e0 hrows (by split at hlt <;> exact hlt)

/-- **a round of the projector**, wherever the batch ends. -/
theorem AccountsInv.project (h : AccountsInv deposits base first due known w) (hbooks : Books w.db)
    {chain : Chain} (hchain : chain.Confirms deposits) (limit : Nat)
    (hl : ∀ e ∈ (pendingEvents w.db).take limit, Loaded w e.address) :
    AccountsInv deposits base first due known (after (projectPending chain limit) w) := by
  show AccountsInv deposits base first due known (after (Tx.when
    ((pendingEvents w.db).take limit ≠ [])
    (processPendingRelayAccountEvents chain ((pendingEvents w.db).take limit))) w)
  by_cases hne : (pendingEvents w.db).take limit = []
  · rw [Tx.when, if_neg (by rw [decide_eq_true_eq, not_not]; exact hne)]
    exact h
  rw [Tx.when, if_pos (decide_eq_true hne)]
  have hpend : ∀ e ∈ (pendingEvents w.db).take limit, e ∈ pendingEvents w.db :=
    fun e he => mem_of_mem_take he
  have hv := validatePending_backed h.records hchain ((pendingEvents w.db).take limit)
    (fun e he => hbooks.accounted e.draft
      (mem_map_of_mem (mem_filter.1 (hpend e he)).1))
    (fun e he => h.backed e (hpend e he)) (fun n a => by
      rw [map_take, take_take]
      exact h.coherent.covered (min n limit) a)
  rcases hv with hv | ⟨x, hv⟩
  · rw [((processPending_ok (u := ())).2 ⟨_, _, hv, hne, rfl⟩).after_eq]
    exact h.projectBatch limit hl
  · have hfail : Fails (processPendingRelayAccountEvents chain ((pendingEvents w.db).take limit)) w x w := by
      rw [processPendingRelayAccountEvents, fails_getDb_bind, hv]
      exact fails_fail.2 ⟨rfl, rfl⟩
    rwa [hfail.after_eq]

/-! ## the operations -/

variable (unit deposits) in
/-- the assumptions on an operation: those on the tasks, fees that are not negative, commitments that
are hashes in hex, deposits that the chains have confirmed and confirm again, and validations of
groups that run to their end. -/
def RelayOp.Sound (s : RelayState) (op : RelayOp) : Prop :=
  op.Admissible unit s ∧ match op with
    | .create _ t => 0 ≤ t.task.taskFee ∧ '-' ∉ t.task.taskIDCommitment
    | .validateGroup .. => ∃ u w', Ok (op.tx s.flights) s.world u w'
    | .deposit successful txHash network d =>
      successful = true → deposits.deposit txHash network = some d
    | .project chain _ => chain.Confirms deposits
    | _ => True

/-- **every operation** keeps the accounts; the projector must not come before the cache. -/
theorem step_accountsInv (hinv : RelayInv unit s)
    (h : AccountsInv deposits base first due known s.world) (hop : op.Sound unit deposits s)
    (hproj : ∀ chain limit, op = .project chain limit →
      ∀ e ∈ (pendingEvents s.world.db).take limit, Loaded s.world e.address) :
    AccountsInv deposits base first due known (op.exec s).world := by
  obtain ⟨hadm, hop⟩ := hop
  cases op with
  | create env t =>
    exact accountsInv_of_ok (x := createTask env t.task) h fun u w' hok =>
      create_accountsInv h hop.1 hop.2 hok
  | read c => exact h
  | sync i => exact h
  | request op => exact h.task (taskEffect_of_nodeSide (nodeSide_nodeOp hadm s.world))
  | deposit successful txHash network d =>
    exact accountsInv_of_ok (x := processDeposit successful txHash network d) h fun u w' hok =>
      deposit_accountsInv h hop hok
  | withdraw env userAddress input =>
    refine accountsInv_of_ok (x := createWithdrawRequest env userAddress input >>= fun _ => pure ()) h
      fun u w' hok => ?_
    obtain ⟨id, w1, hreq, hpure⟩ := ok_bind.1 hok
    rw [(ok_pure.1 hpure).2]
    exact withdraw_accountsInv h hreq
  | fulfill env id txHash =>
    refine accountsInv_of_ok (x := fulfillWithdraw env id txHash) h fun u w' hok => ?_
    obtain ⟨r, ds, hget, hds, heff, hw, hv⟩ := fulfillWithdraw_ok hok
    refine resolve_accountsInv h hget heff hw.charges hv fun d hd => ?_
    rcases hds with ⟨rfl, -⟩ | ⟨hfee, rfl⟩
    · cases hd
    · rw [mem_singleton.1 hd, ← key_of_get hget]
      exact ⟨hfee.le, .inr rfl, rfl⟩
  | reject id =>
    refine accountsInv_of_ok (x := rejectWithdraw id) h fun u w' hok => ?_
    obtain ⟨r, ds, hget, hds, heff, hw, hv⟩ := rejectWithdraw_ok hok
    have hcharge := (h.records.withdrawals id r.charge (by rw [hget]; rfl)).2
    refine resolve_accountsInv h hget heff hw.charges hv fun d hd => ?_
    rcases hds with ⟨rfl, -⟩ | rfl
    · cases hd
    · rw [mem_singleton.1 hd, ← key_of_get hget]
      exact ⟨hcharge, .inl rfl, rfl⟩
  | releaseVestings env => exact releases_accountsInv h env
  | project chain limit => exact h.project hinv.books hop limit (hproj chain limit rfl)
  | validateGroup env i j k taskID vrfProof publicKey =>
    rcases (taskWork_exec rfl s).proceeds hinv hadm with hp | ⟨env, t, he, -⟩ | ⟨-, ⟨e, hf⟩, -⟩
    · exact h.proceeds hp
    · cases he
    · obtain ⟨u, w', hok⟩ := hop
      exact absurd hf hok.not_fails
  | _ =>
    rcases (taskWork_exec rfl s).proceeds hinv hadm with hp | ⟨env, t, he, -⟩ | ⟨hg, -, -⟩
    · exact h.proceeds hp
    · cases he
    · obtain ⟨env, i, j, k, taskID, proof, key, he⟩ := hg
      cases he

variable (unit deposits base first) in
/-- the tasks, and the accounts with no increment outstanding. -/
structure MoneyInv (s : RelayState) : Prop where
  relay : RelayInv unit s
  accounts : AccountsInv deposits base first [] [] s.world

lemma step_moneyInv (h : MoneyInv unit deposits base first s)
    (hop : op.Sound unit deposits s) : MoneyInv unit deposits base first (op.exec s) := by
  obtain ⟨hinv, h⟩ := h
  refine ⟨step_relayInv hinv hop.1, step_accountsInv hinv h hop fun chain limit _ e he => ?_⟩
  rcases h.loaded e (mem_of_mem_take he) with hl | hd
  · exact hl
  · cases hd

/-! ## runs -/

variable (unit) in
/-- nothing is pending, the cache holds what the rows hold, and no balance is negative. -/
structure Settled (s : RelayState) : Prop where
  relay : RelayInv unit s
  queue : pendingEvents s.world.db = []
  cache : ∀ a, cachedBalance s.world a = projectedBalance s.world.db a
  balances : ∀ a, 0 ≤ projectedBalance s.world.db a
  records : RecordsOk s.world.db

/-- what the events of a settled state have left, besides their amounts. -/
def openingBalance (db : Db) (a : Text) : Int :=
  projectedBalance db a - total ((logOf db).map (·.posting)) a

lemma Settled.accountsInv (h : Settled unit s) :
    AccountsInv deposits (openingBalance s.world.db) s.world.db.relayAccountEvents.rows.length []
      [] s.world := by
  have hqueue : (ledger s.world).queue = [] := by
    show (pendingEvents s.world.db).map _ = []
    rw [h.queue]
    rfl
  have hnone : ∀ e, e ∉ pendingEvents s.world.db := by
    intro e he
    rw [h.queue] at he
    cases he
  refine ⟨?_, by simp, fun a => ?_, fun e he => absurd he (hnone e),
    fun e he => absurd he (hnone e), h.records, by simp, fun d hd => ?_, fun e he hlt => ?_⟩
  · rw [map_nil, owe_nil]
    refine ⟨fun a => ?_, fun n a => ?_⟩
    · rw [hqueue, total_nil, add_zero]
      exact h.cache a
    · rw [hqueue, take_nil, total_nil, add_zero]
      exact h.balances a
  · rw [openingBalance, pendingSum, h.queue, map_nil, total_nil]
    omega
  · have hlen : (logOf s.world.db).length = s.world.db.relayAccountEvents.rows.length :=
      length_map _
    rw [← hlen, drop_length] at hd
    cases hd
  · -- ids count up to the number of rows
    have hid : e.id ∈ s.world.db.relayAccountEvents.rows.map (·.id) := mem_map_of_mem he
    rw [s.world.db.relayAccountEvents.ids_eq, mem_range'_1] at hid
    omega

/-- **coherence**: after every run from a settled state, the cached balance of every address is its
projected balance and the sum of its pending events, neither is negative, and the projector has
marked no event of the run as invalid. -/
theorem run_coherent (unit : Text → Set Text) (deposits : ConfirmedDeposits) (ops : List RelayOp)
    (s : RelayState) (hs : Settled unit s)
    (hops : Along RelayOp.exec (RelayOp.Sound unit deposits) ops s) :
    (∀ a, cachedBalance (run RelayOp.exec ops s).world a =
        projectedBalance (run RelayOp.exec ops s).world.db a +
          pendingSum (run RelayOp.exec ops s).world.db a ∧
      0 ≤ cachedBalance (run RelayOp.exec ops s).world a ∧
      0 ≤ projectedBalance (run RelayOp.exec ops s).world.db a) ∧
    ∀ e ∈ (run RelayOp.exec ops s).world.db.relayAccountEvents.rows,
      s.world.db.relayAccountEvents.rows.length < e.id → e.status ≠ .invalid := by
  obtain ⟨-, h⟩ := run_invariant (fun s' op h hop => step_moneyInv h hop) ops s hops
    ⟨hs.relay, hs.accountsInv⟩
  have hcoh := h.coherent
  rw [map_nil, owe_nil] at hcoh
  exact ⟨fun a => ⟨hcoh.balance a, hcoh.cached_nonneg a, hcoh.settled_nonneg a⟩, h.valid⟩

/-- **the log explains every balance.**  A run only adds events to it, every cached balance has moved by
the new events of its account, and every new event is backed by its task and, for a deposit, by a
confirmed one. -/
theorem run_audited (unit : Text → Set Text) (deposits : ConfirmedDeposits) (ops : List RelayOp)
    (s : RelayState) (hs : Settled unit s)
    (hops : Along RelayOp.exec (RelayOp.Sound unit deposits) ops s) :
    ∃ ds, logOf (run RelayOp.exec ops s).world.db = logOf s.world.db ++ ds ∧
      (∀ a, cachedBalance (run RelayOp.exec ops s).world a =
        cachedBalance s.world a + total (ds.map (·.posting)) a) ∧
      ∀ d ∈ ds, Accounted (run RelayOp.exec ops s).world.db d ∧ Named deposits d := by
  obtain ⟨-, hbooks, -, ds, hds⟩ :=
    run_taskStep hs.relay (Along.mono (fun _ _ hop => hop.1) ops s hops)
  obtain ⟨-, h⟩ := run_invariant (fun s' op h hop => step_moneyInv h hop) ops s hops
    ⟨hs.relay, hs.accountsInv⟩
  have hcoh := h.coherent
  rw [map_nil, owe_nil] at hcoh
  refine ⟨ds, hds, fun a => ?_, fun d hd => ⟨hbooks.accounted d ?_, h.named d ?_⟩⟩
  · have hbooked := h.booked a
    rw [hds, map_append, total_append, openingBalance] at hbooked
    have hcached : cachedBalance _ a = projectedBalance _ a + pendingSum _ a := hcoh.balance a
    rw [hcached, hbooked, hs.cache]
    omega
  · rw [hds]
    exact mem_append_right _ hd
  · rw [hds, drop_left']
    · exact hd
    · exact length_map _

def fiveDeposited : DepositTxData := ⟨"0xa2".toList, 5⟩

def oneDeposit : ConfirmedDeposits where
  deposit := fun txHash _ => if txHash = "0xd1".toList then some fiveDeposited else none
  plain := fun txHash network d h => by
    split at h
    · next e =>
      rw [e]
      decide
    · cases h
  positive := fun txHash network d h => by
    split at h
    · cases h
      decide
    · cases h

def confirmingChain : Chain where
  hasClient := fun _ => true
  receiptStatus := fun _ _ => .ok (some true)
  fundingTokenType := fun _ => some .native
  transactionTransfer := fun _ _ => .ok (some ⟨"0xa2".toList, true, 5, []⟩)
  erc20Deposit := fun _ _ => none

/-- a payment and a deposit are projected in two batches, and a refund is pending. -/
def mixedRun : List RelayOp :=
  [.create {} feeThreeTask, .deposit true "0xd1".toList "n".toList fiveDeposited,
    .project confirmingChain 1, .read "0xc1".toList, .attempt {} 0 .cancel,
    .project confirmingChain 1]

lemma freshRelay_settled : Settled (fun _ => ∅) freshRelay := by
  have hfresh : Fresh freshRelay := ⟨fun _ => rfl, by decide, fun _ => rfl, rfl⟩
  refine ⟨hfresh.relayInv, rfl, fun _ => rfl, fun a => ?_, ⟨?_, ?_, ?_, ?_⟩⟩
  · show 0 ≤ (if a = "0xa1".toList then some (10 : Int) else none).getD 0
    split
    · decide
    · decide
  · exact fun c t ht => nomatch ht
  · exact fun c t ht => nomatch ht
  · exact fun id x hx => nomatch hx
  · exact fun id a x y hx => nomatch hx

lemma confirmingChain_confirms : confirmingChain.Confirms oneDeposit := by
  intro txHash network d r hd hr
  have hd : (if txHash = "0xd1".toList then some fiveDeposited else none) = some d := hd
  split at hd
  · rw [← hd]
    exact (Except.ok.inj hr).symm
  · cases hd

lemma mixedRun_sound : Along RelayOp.exec (RelayOp.Sound (fun _ => ∅) oneDeposit) mixedRun freshRelay :=
  ⟨⟨trivial, by decide, by decide⟩, ⟨trivial, fun _ => rfl⟩, ⟨trivial, confirmingChain_confirms⟩,
    ⟨trivial, trivial⟩, ⟨fun _ _ => trivial, trivial⟩, ⟨trivial, confirmingChain_confirms⟩, trivial⟩

theorem run_coherent_at_mixed :
    (run RelayOp.exec mixedRun freshRelay).world.db.relayAccountEvents.rows.map (·.status) =
        [.processed, .processed, .pending] ∧
      ∀ a, cachedBalance (run RelayOp.exec mixedRun freshRelay).world a =
          projectedBalance (run RelayOp.exec mixedRun freshRelay).world.db a +
            pendingSum (run RelayOp.exec mixedRun freshRelay).world.db a ∧
        0 ≤ cachedBalance (run RelayOp.exec mixedRun freshRelay).world a ∧
        0 ≤ projectedBalance (run RelayOp.exec mixedRun freshRelay).world.db a := by
  refine ⟨by decide +kernel, ?_⟩
  exact (run_coherent (fun _ => ∅) oneDeposit mixedRun freshRelay freshRelay_settled mixedRun_sound).1

theorem run_audited_at_mixed :
    (logOf (run RelayOp.exec mixedRun freshRelay).world.db).length = 3 ∧
      ∀ d ∈ logOf (run RelayOp.exec mixedRun freshRelay).world.db, Named oneDeposit d := by
  obtain ⟨ds, hlog, -, h⟩ := run_audited (fun _ => ∅) oneDeposit mixedRun freshRelay freshRelay_settled
    mixedRun_sound
  refine ⟨by decide +kernel, fun d hd => (h d ?_).2⟩
  rw [hlog] at hd
  exact hd

end CrynuxRelay
