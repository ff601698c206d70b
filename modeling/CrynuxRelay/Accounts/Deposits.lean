import CrynuxRelay.Accounts.Coherence
import CrynuxRelay.Model.DepositSteps

/-!
# A deposit is credited once

* `steps_eq_processDeposit` -- the steps of a deposit without anything between them are
  `processDeposit`;
* `run_depositedOnce` -- when no step fails after the commit of the event, and the projector does not
  come before the cache entry of the depositor, a processed deposit is in both balances exactly once.
-/

namespace CrynuxRelay

open List Tx DepositOp EventDraft

variable {w w' : World} {s : DepositState} {ds l₁ l₂ : List EventDraft}
  {txHash network : Text} {d : DepositTxData} {i : Nat} {f : DepositFlight}
    {l : List DepositFlight}

variable {unit : Text → Set Text} {deposits : ConfirmedDeposits} {base : Text → Int} {first : Nat}

/-! ## the steps in a row -/

def depositInserted (txHash network : Text) (d : DepositTxData) (w : World) : World :=
  withDepositRecord txHash network d (w.db.relayAccountEvents.rows.length + 1)
    (appendEvent (depositDraft txHash network d) w)

lemma createDeposit_run (h : ¬ Recorded w.db (depositReason txHash network)) :
    createDeposit txHash d.fromAddress d.amount network w =
      (.ok (), depositInserted txHash network d w) := by
  rcases ok_or_fails (createDeposit txHash d.fromAddress d.amount network) w with
    ⟨u, hok⟩ | ⟨e, hfail⟩
  · have hw := (createDeposit_ok hok).2
    rwa [hw] at hok
  · obtain ⟨w1, hfail, -⟩ := fails_transaction.1 hfail
    rcases fails_bind.1 hfail with hfail | ⟨n, w2, -, hfail⟩
    · have hr : Recorded w.db (depositReason txHash network) :=
        (fails_createRelayAccountEventWithID (d := depositDraft txHash network d)).1 hfail |>.1
      exact absurd hr h
    · exact absurd hfail fails_modifyDb

lemma after_getRelayAccountFromCache (a : Text) (w : World) :
    after (getRelayAccountFromCache a) w = loadAccount a w :=
  (ok_getRelayAccountFromCache.2 ⟨rfl, rfl⟩).after_eq

lemma processDeposit_run (h : ¬ Recorded w.db (depositReason txHash network)) :
    Ok (processDeposit true txHash network d) w () (applyPostings [⟨d.fromAddress, d.amount⟩]
        (loadAccount d.fromAddress (depositInserted txHash network d w))) := by
  have hevent : hasDepositEvent w.db txHash network = false := not_recorded_iff.2 h
  have hcreate : Ok (createDeposit txHash d.fromAddress d.amount network) w () _ :=
    createDeposit_run h
  have hload : Ok (getRelayAccountFromCache d.fromAddress) (depositInserted txHash network d w)
      _ _ := ok_getRelayAccountFromCache.2 ⟨rfl, rfl⟩
  have hdeposit : Ok (depositRelayAccount txHash d.fromAddress d.amount network) w
      [⟨d.fromAddress, d.amount⟩] _ :=
    ok_bind.2 ⟨(), _, hcreate, ok_bind.2 ⟨_, _, hload, ok_pure.2 ⟨rfl, rfl⟩⟩⟩
  rw [processDeposit, ok_getDb_bind, ok_when]
  exact .inl ⟨by simp [hevent], ok_bind.2 ⟨_, _, hdeposit, ok_runCommitFunc.2 rfl⟩⟩

lemma processDeposit_skip (h : Recorded w.db (depositReason txHash network))
    (d : DepositTxData) : Ok (processDeposit true txHash network d) w () w := by
  have hevent : hasDepositEvent w.db txHash network = true := h
  rw [processDeposit, ok_getDb_bind, ok_when, hevent]
  exact .inr ⟨by simp, rfl⟩

lemma exec_check_new (h : ¬ Recorded s.world.db (depositReason txHash network))
    (d : DepositTxData) : (check txHash network d).exec s =
      s.move s.world (s.deposits ++ [⟨txHash, network, d, .checked⟩]) := if_neg h

lemma exec_check_recorded
    (h : Recorded s.world.db (depositReason txHash network)) (d : DepositTxData) :
    (check txHash network d).exec s = s.finish txHash network := if_pos h

lemma insertDeposit_new (h : ¬ Recorded s.world.db (depositReason f.txHash f.network)) :
    insertDeposit s i f = s.move (depositInserted f.txHash f.network f.deposit s.world)
      (s.deposits.set i { f with phase := .inserted }) := by
  rw [insertDeposit, createDeposit_run h]

lemma insertDeposit_recorded (h : Recorded s.world.db (depositReason f.txHash f.network)) :
    insertDeposit s i f = s.move s.world (s.deposits.eraseIdx i) := by
  have hinsert : Fails (createRelayAccountEventWithID .deposit
      (depositReason f.txHash f.network) f.deposit.fromAddress f.deposit.amount) s.world
      .duplicateKey s.world :=
    (fails_createRelayAccountEventWithID (d := depositDraft f.txHash f.network f.deposit)).2
      ⟨h, rfl, rfl⟩
  have hfail : Fails (createDeposit f.txHash f.deposit.fromAddress f.deposit.amount f.network)
      s.world .duplicateKey s.world :=
    fails_transaction.2 ⟨s.world, fails_bind.2 (.inl hinsert), rfl⟩
  have hrun : createDeposit f.txHash f.deposit.fromAddress f.deposit.amount f.network s.world =
      (.error .duplicateKey, s.world) := hfail
  rw [insertDeposit, hrun]

/-- **the steps are the function**: with nothing between them, they do what `processDeposit` does. -/
theorem steps_eq_processDeposit (s : DepositState) (hs : s.deposits = []) (txHash network : Text)
    (d : DepositTxData) :
    (run exec [.check txHash network d, .insert 0, .load 0, .commit 0] s).world =
      after (processDeposit true txHash network d) s.world := by
  by_cases hr : Recorded s.world.db (depositReason txHash network)
  · have hskip := (processDeposit_skip hr d).after_eq
    have hnil : (s.finish txHash network).deposits[0]? = none := by
      show s.deposits[0]? = none
      rw [hs]
      rfl
    rw [hskip, run_cons, exec_check_recorded hr]
    simp only [run_cons, exec, hnil]
    rfl
  · have hinsert : (insert 0).exec (s.move s.world [⟨txHash, network, d, .checked⟩]) =
        s.move (depositInserted txHash network d s.world) [⟨txHash, network, d, .inserted⟩] :=
      insertDeposit_new (s := s.move s.world [⟨txHash, network, d, .checked⟩]) (i := 0)
        (f := ⟨txHash, network, d, .checked⟩) hr
    rw [(processDeposit_run hr).after_eq, run_cons, exec_check_new hr, hs, nil_append, run_cons, hinsert]
    show after (runCommitFunc [⟨d.fromAddress, d.amount⟩])
      (after (getRelayAccountFromCache d.fromAddress)
        (depositInserted txHash network d s.world)) = _
    rw [(ok_runCommitFunc (u := ()).2 rfl).after_eq, after_getRelayAccountFromCache]

/-! ## the cache lags behind -/

def DepositFlight.draft (f : DepositFlight) : EventDraft := depositDraft f.txHash f.network f.deposit

/-- the events that are committed, with their increments outstanding. -/
def dueDrafts (l : List DepositFlight) : List EventDraft :=
  (l.filter fun f => f.phase ≠ .checked).map (·.draft)

def loadedDepositors (l : List DepositFlight) : List Text :=
  (l.filter fun f => f.phase = .loaded).map (·.deposit.fromAddress)

section
variable {due due' : List EventDraft} {known known' : List Text}

lemma AccountsInv.transfer (h : AccountsInv deposits base first due known w) (hdb : w'.db = w.db)
    (hledger : (ledger w').owe (due'.map (·.posting)) = (ledger w).owe (due.map (·.posting)))
    (hdue : ∀ d ∈ due', d ∈ due)
    (hloaded : ∀ e ∈ pendingEvents w.db, Loaded w e.address ∨ e.draft ∈ due →
      Loaded w' e.address ∨ e.draft ∈ due')
    (hknown : ∀ a ∈ known', Loaded w' a) : AccountsInv deposits base first due' known' w' where
  coherent := by rw [hledger]; exact h.coherent
  credits := fun d hd => h.credits d (hdue d hd)
  booked := by rw [hdb]; exact h.booked
  loaded := by rw [hdb]; exact fun e he => hloaded e he (h.loaded e he)
  backed := by rw [hdb]; exact h.backed
  records := by rw [hdb]; exact h.records
  cached := hknown
  named := by rw [hdb]; exact h.named
  valid := by rw [hdb]; exact h.valid

lemma ledger_loadAccount (a : Text) (w : World) : ledger (loadAccount a w) = ledger w := by
  rw [ledger, ledger, db_loadAccount, show cachedBalance (loadAccount a w) = cachedBalance w from
    funext (cachedBalance_loadAccount a w)]

lemma AccountsInv.forget (h : AccountsInv deposits base first due known w) :
    AccountsInv deposits base first due [] w :=
  h.transfer rfl rfl (fun _ hd => hd) (fun _ _ hl => hl) fun _ ha => absurd ha not_mem_nil

lemma AccountsInv.loadDue (h : AccountsInv deposits base first due [] w) (a : Text) :
    AccountsInv deposits base first due [] (loadAccount a w) :=
  h.transfer rfl (by rw [ledger_loadAccount]) (fun d hd => hd)
    (fun e _ hl => hl.imp_left fun hl => loaded_loadAccount.2 (.inr hl))
    fun b hb => absurd hb not_mem_nil

lemma total_due_insert (l₁ l₂ : List EventDraft) (d : EventDraft) (a : Text) :
    total ((l₁ ++ d :: l₂).map (·.posting)) a =
      total ((l₁ ++ l₂).map (·.posting)) a + total [d.posting] a := by
  rw [map_append, map_append, total_append, total_append, map_cons, total_cons, total_cons, total_nil]
  omega

lemma AccountsInv.commitDue {d : EventDraft}
    (h : AccountsInv deposits base first (l₁ ++ d :: l₂) [] w)
    (hl : Loaded w d.address) (hd : d.type.isDebit = false) :
    AccountsInv deposits base first (l₁ ++ l₂) [] (addPosting ⟨d.address, d.amount⟩ w) := by
  have hp : d.posting = ⟨d.address, d.amount⟩ := by
    rw [posting, hd]
    rfl
  refine h.transfer rfl ?_ (fun x hx => mem_middle.2 (.inr hx)) (fun e he hx => ?_)
    fun b hb => absurd hb not_mem_nil
  · rw [← hp, Ledger.owe, Ledger.owe]
    congr 1
    funext a
    show cachedBalance (addPosting d.posting w) a + _ = cachedBalance w a + _
    rw [hp, cachedBalance_addPosting hl, ← hp, total_due_insert]
    omega
  · rcases hx with hx | hx
    · exact .inl (loaded_addPosting.2 (.inr hx))
    · rcases mem_middle.1 hx with hx | hx
      · exact .inl (loaded_addPosting.2 (.inl (congrArg address hx)))
      · exact .inr hx

lemma AccountsInv.insertDue {x : DepositTxData}
    (h : AccountsInv deposits base first (l₁ ++ l₂) known w)
    (hx : deposits.deposit txHash network = some x)
    (hr : ¬ Recorded w.db (depositReason txHash network)) :
    AccountsInv deposits base first (l₁ ++ depositDraft txHash network x :: l₂) known
      (depositInserted txHash network x w) := by
  have happ : Appends [depositDraft txHash network x] w.db
      (depositInserted txHash network x w).db := appends_appendEvent (not_recorded_iff.2 hr)
  have hpos : 0 < x.amount := deposits.positive _ _ _ hx
  have hledger : (ledger (depositInserted txHash network x w)).owe
      ((l₁ ++ depositDraft txHash network x :: l₂).map (·.posting)) =
      ((ledger w).owe ((l₁ ++ l₂).map (·.posting))).post
        ([depositDraft txHash network x].map (·.posting)) := by
    rw [Ledger.owe, Ledger.post, ledger, queue_appends happ]
    congr 1
    funext a
    rw [total_due_insert, ← add_assoc]
    rfl
  refine h.append happ rfl hledger ?_ (fun d hd => ?_) (fun a ha => ha) (fun d hd => ?_)
    (fun d hd => ?_) (h.records.congr rfl (fun _ => rfl) fun _ => rfl) (fun d hd => ?_)
    fun e he hb => hb.congr (fun id r hr => ⟨r, hr⟩) fun _ => rfl
  · refine Ledger.affordable_of_nonneg h.coherent fun p hp => ?_
    rw [map_singleton, mem_singleton] at hp
    rw [hp]
    exact hpos.le
  · rcases mem_middle.1 hd with rfl | hd
    · exact hpos.le
    · exact h.credits d hd
  · exact mem_middle.2 (.inr hd)
  · rw [mem_singleton.1 hd]
    exact .inr (mem_append_right _ mem_cons_self)
  · rw [mem_singleton.1 hd]
    exact ⟨txHash, network, x, hx, rfl⟩

end

/-! ## the invariant -/

variable (unit deposits base first) in
/-- `start` is the log before the run. -/
structure DepositInv (start : List EventDraft) (s : DepositState) : Prop where
  relay : RelayInv unit s.relay
  accounts : AccountsInv deposits base first (dueDrafts s.deposits) (loadedDepositors s.deposits)
    s.world
  confirmed : ∀ f ∈ s.deposits, deposits.deposit f.txHash f.network = some f.deposit
  inserted : ∀ f ∈ s.deposits, f.phase ≠ .checked →
    Recorded s.world.db (depositReason f.txHash f.network)
  processed : ∀ p ∈ s.processed, Recorded s.world.db (depositReason p.1 p.2)
  history : ∃ ds, logOf s.world.db = start ++ ds

variable (unit deposits) in
/-- the assumptions on a step: those on the operations of the relay, and deposits that the chains have
confirmed. -/
def DepositOp.Sound (s : DepositState) : DepositOp → Prop
  | .relay op => op.Sound unit deposits s.relay
  | .check txHash network d => deposits.deposit txHash network = some d
  | _ => True

/-- no step fails after the commit of the event; no batch takes the event of a deposit in flight
before the depositor is in the cache. -/
def DepositOp.Orderly (s : DepositState) : DepositOp → Prop
  | .relay (.project _ limit) => ∀ e ∈ (pendingEvents s.world.db).take limit,
      ∀ f ∈ s.deposits, e.reason = depositReason f.txHash f.network →
        Loaded s.world f.deposit.fromAddress
  | .fail i => ∀ f, s.deposits[i]? = some f → f.phase = .checked
  | _ => True

lemma dueDrafts_append (l₁ l₂ : List DepositFlight) :
    dueDrafts (l₁ ++ l₂) = dueDrafts l₁ ++ dueDrafts l₂ := by
  rw [dueDrafts, filter_append, map_append]
  rfl

lemma dueDrafts_at (h : l[i]? = some f) : ∃ d1 d2, dueDrafts l = d1 ++ (dueDrafts [f] ++ d2) ∧
      (∀ g, dueDrafts (l.set i g) = d1 ++ (dueDrafts [g] ++ d2)) ∧
      dueDrafts (l.eraseIdx i) = d1 ++ d2 := by
  obtain ⟨l₁, l₂, hl, hset, herase⟩ := split_at_thread h
  have hcons : ∀ g, dueDrafts (l₁ ++ g :: l₂) = dueDrafts l₁ ++ (dueDrafts [g] ++ dueDrafts l₂) :=
    fun g => by rw [dueDrafts_append, ← singleton_append, dueDrafts_append]
  refine ⟨dueDrafts l₁, dueDrafts l₂, ?_, fun g => ?_, ?_⟩
  · rw [hl, hcons]
  · rw [hset, hcons]
  · rw [herase, dueDrafts_append]

lemma dueDrafts_singleton (f : DepositFlight) :
    dueDrafts [f] = if f.phase = .checked then [] else [f.draft] := by
  by_cases h : f.phase = .checked
  all_goals simp [h, dueDrafts]

lemma mem_loadedDepositors {a : Text} :
    a ∈ loadedDepositors l ↔ ∃ f ∈ l, f.phase = .loaded ∧ f.deposit.fromAddress = a := by
  simp [loadedDepositors, and_assoc]

section
variable {start : List EventDraft}

lemma recorded_of_log {db db' : Db} {reason : Text}
    (hlog : logOf db' = logOf db ++ ds) (h : Recorded db reason) : Recorded db' reason := by
  obtain ⟨d, hd, hr⟩ := recorded_iff_log.1 h
  exact recorded_iff_log.2 ⟨d, by rw [hlog]; exact mem_append_left _ hd, hr⟩

def DepositFlight.Sound (deposits : ConfirmedDeposits) (w : World) (f : DepositFlight) : Prop :=
  deposits.deposit f.txHash f.network = some f.deposit ∧
    (f.phase ≠ .checked → Recorded w.db (depositReason f.txHash f.network)) ∧
    (f.phase = .loaded → Loaded w f.deposit.fromAddress)

section
variable (h : DepositInv unit deposits base first start s)
include h

lemma DepositInv.sound (hf : f ∈ s.deposits) : f.Sound deposits s.world :=
  ⟨h.confirmed f hf, h.inserted f hf,
    fun hphase => h.accounts.cached _ (mem_loadedDepositors.2 ⟨f, hf, hphase, rfl⟩)⟩

lemma DepositInv.move (ha : Aside s.world w') (hloaded : ∀ a, Loaded s.world a → Loaded w' a)
    (hacc : AccountsInv deposits base first (dueDrafts l) [] w')
    (hl : ∀ f ∈ l, f ∈ s.deposits ∨ f.Sound deposits w') :
    DepositInv unit deposits base first start (s.move w' l) := by
  obtain ⟨ds, hlog, -⟩ := ha.log
  obtain ⟨ds0, hstart⟩ := h.history
  have hsound : ∀ f ∈ l, f.Sound deposits w' := by
    intro f hf
    rcases hl f hf with hf | hf
    · obtain ⟨hconf, hins, hload⟩ := h.sound hf
      exact ⟨hconf, fun hphase => recorded_of_log hlog (hins hphase),
        fun hphase => hloaded _ (hload hphase)⟩
    · exact hf
  refine ⟨h.relay.aside ha, ?_, fun f hf => (hsound f hf).1, fun f hf => (hsound f hf).2.1,
    fun p hp => recorded_of_log hlog (h.processed p hp), ds0 ++ ds, ?_⟩
  · refine hacc.transfer rfl rfl (fun d hd => hd) (fun e _ hx => hx) fun a ha => ?_
    obtain ⟨f, hf, hphase, rfl⟩ := mem_loadedDepositors.1 ha
    exact (hsound f hf).2.2 hphase
  · rwa [← append_assoc, ← hstart]

lemma DepositInv.finish (hr : Recorded s.world.db (depositReason txHash network)) :
    DepositInv unit deposits base first start (s.finish txHash network) := by
  refine ⟨h.relay, h.accounts, h.confirmed, h.inserted, fun p hp => ?_, h.history⟩
  rcases mem_cons.1 hp with rfl | hp
  · exact hr
  · exact h.processed p hp

lemma relay_depositInv {op : RelayOp}
    (hsound : op.Sound unit deposits s.relay) (hord : (relay op).Orderly s) :
    DepositInv unit deposits base first start ((relay op).exec s) := by
  obtain ⟨ds, hlog⟩ := (exec_taskStep h.relay hsound.1).log
  obtain ⟨ds0, hstart⟩ := h.history
  refine ⟨step_relayInv h.relay hsound.1, ?_, h.confirmed,
    fun f hf hphase => recorded_of_log hlog (h.inserted f hf hphase),
    fun p hp => recorded_of_log hlog (h.processed p hp), ds0 ++ ds, ?_⟩
  · refine step_accountsInv h.relay h.accounts hsound fun chain limit hop e he => ?_
    subst hop
    rcases h.accounts.loaded e (mem_of_mem_take he) with hl | hd
    · exact hl
    · obtain ⟨f, hf, hdraft⟩ := mem_map.1 hd
      have hreason : e.reason = depositReason f.txHash f.network := congrArg reason hdraft.symm
      have haddr : e.address = f.deposit.fromAddress := congrArg address hdraft.symm
      rw [haddr]
      exact hord e he f (mem_filter.1 hf).1 hreason
  · rwa [← append_assoc, ← hstart]

lemma check_depositInv (hd : deposits.deposit txHash network = some d) :
    DepositInv unit deposits base first start ((check txHash network d).exec s) := by
  by_cases hr : Recorded s.world.db (depositReason txHash network)
  · rw [exec_check_recorded hr]
    exact h.finish hr
  · rw [exec_check_new hr]
    refine h.move (aside_of_db_eq rfl) (fun _ ha => ha) ?_ fun f hf => ?_
    · have hdue : dueDrafts (s.deposits ++ [⟨txHash, network, d, .checked⟩]) =
          dueDrafts s.deposits := by
        rw [dueDrafts_append]
        exact append_nil _
      rw [hdue]
      exact h.accounts.forget
    · refine (mem_append.1 hf).imp_right fun hf => ?_
      rw [mem_singleton.1 hf]
      exact ⟨hd, fun hphase => absurd rfl hphase, fun hphase => by cases hphase⟩

lemma drop_depositInv (hf : s.deposits[i]? = some f) (hphase : f.phase = .checked) :
    DepositInv unit deposits base first start (s.move s.world (s.deposits.eraseIdx i)) := by
  obtain ⟨d1, d2, hdue, -, herase⟩ := dueDrafts_at hf
  rw [dueDrafts_singleton, if_pos hphase, nil_append] at hdue
  refine h.move (aside_of_db_eq rfl) (fun _ ha => ha) ?_ fun g hg => .inl (mem_of_mem_eraseIdx hg)
  rw [herase, ← hdue]
  exact h.accounts.forget

lemma insert_depositInv (hf : s.deposits[i]? = some f) (hphase : f.phase = .checked) :
    DepositInv unit deposits base first start (insertDeposit s i f) := by
  by_cases hr : Recorded s.world.db (depositReason f.txHash f.network)
  · rw [insertDeposit_recorded hr]
    exact drop_depositInv h hf hphase
  · rw [insertDeposit_new hr]
    obtain ⟨d1, d2, hdue, hset, -⟩ := dueDrafts_at hf
    have hx : deposits.deposit f.txHash f.network = some f.deposit :=
      h.confirmed f (mem_of_getElem? hf)
    have hlog : logOf (depositInserted f.txHash f.network f.deposit s.world).db =
        logOf s.world.db ++ [f.draft] := (appends_appendEvent (not_recorded_iff.2 hr)).logOf
    refine h.move ?_ (fun _ ha => ha) ?_ fun g hg => (mem_or_eq_of_mem_set hg).imp_right ?_
    · refine ⟨rfl, fun _ _ hc => hc, [f.draft], hlog, fun d hd => ?_⟩
      rw [mem_singleton.1 hd]
      rfl
    · have hacc := h.accounts.forget
      rw [hdue, dueDrafts_singleton, if_pos hphase] at hacc
      rw [hset]
      exact hacc.insertDue hx hr
    · rintro rfl
      refine ⟨hx, fun _ => recorded_iff_log.2 ⟨f.draft, ?_, rfl⟩, fun hphase => by cases hphase⟩
      rw [hlog]
      exact mem_append_right _ mem_cons_self

lemma load_depositInv (hf : s.deposits[i]? = some f) (hphase : f.phase = .inserted) :
    DepositInv unit deposits base first start (loadDeposit s i f) := by
  obtain ⟨d1, d2, hdue, hset, -⟩ := dueDrafts_at hf
  have hne : f.phase ≠ .checked := by rw [hphase]; decide
  rw [loadDeposit, after_getRelayAccountFromCache]
  refine h.move (aside_of_db_eq rfl) (fun a ha => loaded_loadAccount.2 (.inr ha)) ?_
    fun g hg => (mem_or_eq_of_mem_set hg).imp_right ?_
  · have hacc := h.accounts.forget.loadDue f.deposit.fromAddress
    rwa [hdue, dueDrafts_singleton, if_neg hne, ← show dueDrafts [{ f with phase := .loaded }] =
      [f.draft] from rfl, ← hset] at hacc
  · rintro rfl
    exact ⟨h.confirmed f (mem_of_getElem? hf), fun _ => h.inserted f (mem_of_getElem? hf) hne,
      fun _ => loaded_loadAccount.2 (.inl rfl)⟩

lemma commit_depositInv (hf : s.deposits[i]? = some f) (hphase : f.phase = .loaded) :
    DepositInv unit deposits base first start (commitDeposit s i f) := by
  obtain ⟨d1, d2, hdue, -, herase⟩ := dueDrafts_at hf
  have hne : f.phase ≠ .checked := by rw [hphase]; decide
  obtain ⟨-, hins, hload⟩ := h.sound (mem_of_getElem? hf)
  refine DepositInv.finish (h.move (aside_of_db_eq rfl)
    (fun a ha => loaded_addPosting.2 (.inr ha)) ?_
    fun g hg => .inl (mem_of_mem_eraseIdx hg)) (hins hne)
  have hacc := h.accounts.forget
  rw [hdue, dueDrafts_singleton, if_neg hne] at hacc
  rw [herase]
  exact hacc.commitDue (hload hphase) rfl

end

theorem step_depositInv {op : DepositOp} (h : DepositInv unit deposits base first start s)
    (hsound : op.Sound unit deposits s) (hord : op.Orderly s) :
    DepositInv unit deposits base first start (op.exec s) := by
  cases op with
  | relay op => exact relay_depositInv h hsound hord
  | check txHash network d => exact check_depositInv h hsound
  | insert i | load i | commit i =>
    rw [exec]
    split
    · next f hf =>
      split
      · next hphase =>
        first
        | exact insert_depositInv h hf hphase
        | exact load_depositInv h hf hphase
        | exact commit_depositInv h hf hphase
      · exact h
    · exact h
  | fail i =>
    show DepositInv unit deposits base first start (s.move s.world (s.deposits.eraseIdx i))
    cases hf : s.deposits[i]? with
    | none =>
      rwa [eraseIdx_of_length_le (List.getElem?_eq_none_iff.1 hf)]
    | some f => exact drop_depositInv h hf (hord f hf)

end

/-! ## runs -/

lemma DepositInv.event {db0 : Db}
    (h : DepositInv unit deposits base db0.relayAccountEvents.rows.length (logOf db0) s)
    (hd : deposits.deposit txHash network = some d)
    (hnew : ¬ Recorded db0 (depositReason txHash network)) (hdone : (txHash, network) ∈ s.processed) :
    ∃ before after, logOf s.world.db =
        logOf db0 ++ (before ++ depositDraft txHash network d :: after) ∧
      ∀ x ∈ before ++ after, x.reason ≠ depositReason txHash network := by
  obtain ⟨ds, hlog⟩ := h.history
  obtain ⟨x, hx, hr⟩ := recorded_iff_log.1 (h.processed _ hdone)
  have hmem : x ∈ ds := by
    rw [hlog] at hx
    rcases mem_append.1 hx with hx | hx
    · exact absurd (recorded_iff_log.2 ⟨x, hx, hr⟩) hnew
    · exact hx
  have hlen : db0.relayAccountEvents.rows.length = (logOf db0).length := (length_map _).symm
  have hnamed : Named deposits x := by
    refine h.accounts.named x ?_
    rw [hlog, hlen, drop_left]
    exact hmem
  rw [hnamed.deposit_eq hd hr] at hmem
  obtain ⟨before, after, rfl⟩ := append_of_mem hmem
  refine ⟨before, after, hlog, fun y hy hyr => ?_⟩
  -- no two events have the same reason
  have hnd : ((logOf s.world.db).map (·.reason)).Nodup := by
    rw [logOf, map_map]
    exact s.world.db.relayAccountEvents.reasons_nodup
  rw [hlog, map_append, map_append, map_cons] at hnd
  have hmid := (nodup_middle.1 (nodup_append.1 hnd).2.1)
  rw [← map_append] at hmid
  exact (nodup_cons.1 hmid).1 (mem_map.2 ⟨y, hy, hyr⟩)

/-- **a deposit is credited once**: when no step fails between the commit of an event and its
increment, and no batch takes the event of a deposit in flight before the depositor is in the cache,
then the log of the run holds one event for a processed deposit, and at the end both balances have
grown by the amount of that event, next to the other events of the run. -/
theorem run_depositedOnce (unit : Text → Set Text) (deposits : ConfirmedDeposits)
    (ops : List DepositOp) (s : DepositState) (hs : Settled unit s.relay)
    (hidle : s.deposits = [] ∧ s.processed = [])
    (hops : Along DepositOp.exec (fun s op => op.Sound unit deposits s ∧ op.Orderly s) ops s)
    (txHash network : Text) (d : DepositTxData) (hd : deposits.deposit txHash network = some d)
    (hnew : ¬ Recorded s.world.db (depositReason txHash network))
    (hdone : (txHash, network) ∈ (run DepositOp.exec ops s).processed)
    (hend : (run DepositOp.exec ops s).deposits = [])
    (hqueue : pendingEvents (run DepositOp.exec ops s).world.db = []) :
    ∃ before after, logOf (run DepositOp.exec ops s).world.db =
        logOf s.world.db ++ (before ++ depositDraft txHash network d :: after) ∧
      (∀ x ∈ before ++ after, x.reason ≠ depositReason txHash network) ∧
      ∀ a, cachedBalance (run DepositOp.exec ops s).world a =
          projectedBalance (run DepositOp.exec ops s).world.db a ∧
        projectedBalance (run DepositOp.exec ops s).world.db a =
          projectedBalance s.world.db a + (if a = d.fromAddress then d.amount else 0) +
            total ((before ++ after).map (·.posting)) a := by
  have hinit : DepositInv unit deposits (openingBalance s.world.db)
      s.world.db.relayAccountEvents.rows.length (logOf s.world.db) s := by
    refine ⟨hs.relay, ?_, ?_, ?_, ?_, [], (append_nil _).symm⟩
    · rw [hidle.1]
      exact hs.accountsInv
    · rw [hidle.1]
      exact fun f hf => nomatch hf
    · rw [hidle.1]
      exact fun f hf => nomatch hf
    · rw [hidle.2]
      exact fun p hp => nomatch hp
  have h : DepositInv _ _ _ _ _ (run exec ops s) :=
    run_invariant (fun s' op h hop => step_depositInv h hop.1 hop.2) ops s hops hinit
  obtain ⟨before, after, hlog, hothers⟩ := h.event hd hnew hdone
  refine ⟨before, after, hlog, hothers, fun a => ⟨?_, ?_⟩⟩
  · -- nothing is due or pending
    have hcoh := h.accounts.coherent
    rw [hend] at hcoh
    have hbal : cachedBalance (run exec ops s).world a + 0 = projectedBalance (run exec ops s).world.db a +
        total ((pendingEvents (run exec ops s).world.db).map (·.posting)) a := hcoh.balance a
    rw [hqueue, map_nil, total_nil] at hbal
    omega
  have hbooked := h.accounts.booked a
  have hsum : pendingSum (run exec ops s).world.db a = 0 := by
    rw [pendingSum, hqueue]
    rfl
  have hone : total [(depositDraft txHash network d).posting] a =
      if a = d.fromAddress then d.amount else 0 := by
    rw [total_cons, total_nil, add_zero]
    exact if_congr eq_comm rfl rfl
  rw [hsum, hlog, map_append, total_append, total_due_insert, hone, openingBalance] at hbooked
  omega

def uncachedDepositor : DepositState where
  relay := freshRelay

/-- the deposit of 5, processed with a round of the projector after the increment. -/
def orderlyDeposit : List DepositOp :=
  [.check "0xd1".toList "n".toList fiveDeposited, .insert 0, .load 0, .commit 0,
    .relay (.project confirmingChain 50)]

theorem run_depositedOnce_at_orderly :
    ∃ before after, logOf (run DepositOp.exec orderlyDeposit uncachedDepositor).world.db =
        before ++ depositDraft "0xd1".toList "n".toList fiveDeposited :: after ∧
      ∀ a, cachedBalance (run DepositOp.exec orderlyDeposit uncachedDepositor).world a =
          projectedBalance (run DepositOp.exec orderlyDeposit uncachedDepositor).world.db a ∧
        projectedBalance (run DepositOp.exec orderlyDeposit uncachedDepositor).world.db a =
          projectedBalance uncachedDepositor.world.db a + (if a = "0xa2".toList then 5 else 0) +
            total ((before ++ after).map (·.posting)) a := by
  have hops : Along exec (fun s op => op.Sound (fun _ => ∅) oneDeposit s ∧ op.Orderly s)
      orderlyDeposit uncachedDepositor :=
    ⟨⟨rfl, trivial⟩, ⟨trivial, trivial⟩, ⟨trivial, trivial⟩, ⟨trivial, trivial⟩,
      ⟨⟨trivial, confirmingChain_confirms⟩, fun e he f hf => nomatch hf⟩, trivial⟩
  obtain ⟨before, after, hlog, -, hbal⟩ := run_depositedOnce (fun _ => ∅) oneDeposit orderlyDeposit
    uncachedDepositor freshRelay_settled ⟨rfl, rfl⟩ hops "0xd1".toList "n".toList fiveDeposited rfl
    (by decide) mem_cons_self rfl (by decide +kernel)
  exact ⟨before, after, hlog, hbal⟩

def unaffordableTask : NewTask where
  task := { taskIDCommitment := "0xc2".toList, creator := "0xa2".toList, taskFee := 3 }
  queued := rfl
  unselected := rfl
  unrevealed := rfl

/-- the load fails after the commit of the event; the balance is loaded by another handler, and the
second pass over the block skips the deposit. -/
def interruptedDeposit : List DepositOp :=
  [.check "0xd1".toList "n".toList fiveDeposited, .insert 0, .fail 0,
    .relay (.create {} unaffordableTask), .check "0xd1".toList "n".toList fiveDeposited,
    .relay (.project confirmingChain 50)]

/-- the projector takes the event before the balance is loaded. -/
def overtakenDeposit : List DepositOp :=
  [.check "0xd1".toList "n".toList fiveDeposited, .insert 0, .relay (.project confirmingChain 50),
    .load 0, .commit 0]

/-- **the cache misses a deposit, or takes it twice**: both runs process the deposit of 5 and leave
nothing in flight or pending, and the cached balance ends at 0, and at 10. -/
theorem deposit_lost_or_doubled :
    (Along DepositOp.exec (DepositOp.Sound (fun _ => ∅) oneDeposit) interruptedDeposit
        uncachedDepositor ∧ (run DepositOp.exec interruptedDeposit uncachedDepositor).processed =
        [("0xd1".toList, "n".toList)] ∧
      (run DepositOp.exec interruptedDeposit uncachedDepositor).deposits = [] ∧
      pendingEvents (run DepositOp.exec interruptedDeposit uncachedDepositor).world.db = [] ∧
      projectedBalance (run DepositOp.exec interruptedDeposit uncachedDepositor).world.db
        "0xa2".toList = 5 ∧
      cachedBalance (run DepositOp.exec interruptedDeposit uncachedDepositor).world
        "0xa2".toList = 0) ∧
    Along DepositOp.exec (DepositOp.Sound (fun _ => ∅) oneDeposit) overtakenDeposit
        uncachedDepositor ∧ (run DepositOp.exec overtakenDeposit uncachedDepositor).processed =
        [("0xd1".toList, "n".toList)] ∧
      (run DepositOp.exec overtakenDeposit uncachedDepositor).deposits = [] ∧
      pendingEvents (run DepositOp.exec overtakenDeposit uncachedDepositor).world.db = [] ∧
      projectedBalance (run DepositOp.exec overtakenDeposit uncachedDepositor).world.db
        "0xa2".toList = 5 ∧
      cachedBalance (run DepositOp.exec overtakenDeposit uncachedDepositor).world
        "0xa2".toList = 10 := by
  refine ⟨⟨?_, rfl, rfl, ?_, ?_, ?_⟩, ?_, rfl, rfl, ?_, ?_, ?_⟩
  · exact ⟨rfl, trivial, trivial, ⟨trivial, by decide, by decide⟩, rfl,
      ⟨trivial, confirmingChain_confirms⟩, trivial⟩
  · decide +kernel
  · decide +kernel
  · decide +kernel
  · exact ⟨rfl, trivial, ⟨trivial, confirmingChain_confirms⟩, trivial, trivial, trivial⟩
  all_goals decide +kernel

end CrynuxRelay
