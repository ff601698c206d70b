import CrynuxRelay.Accounts.Projection

/-!
# What the writers do to the three views

* `loadAccount`, `appendEvent`, `applyPostings` -- the three effects of the writers as functions on
  states, with the `Ok` rule of each writer;
* `Loaded` -- an account whose balance is in the cache: increments reach such accounts only;
* `Posts` -- a completed writer: events appended, the same amounts added to the cache;
* `Posts.ledger_eq` -- a completed writer is one `Ledger.post` of the abstract ledger.
-/

namespace CrynuxRelay

open Function List Option Tx

variable {a b : Text} {w w' : World} {e : Err} {d : EventDraft} {u : Unit} {p : Posting Text Int}
    {l : CommitFunc} {db db' : Db} {ds : List EventDraft} {ds' : List EventDraft}

/-! ## the effects -/

def loadAccount (a : Text) (w : World) : World :=
  ⟨w.db, { w.mem with
    relayAccountCache := Function.update w.mem.relayAccountCache a (some (cachedBalance w a)) }⟩

def appendEvent (d : EventDraft) (w : World) : World :=
  ⟨{ w.db with
      relayAccountEvents := w.db.relayAccountEvents.append d.type d.reason d.address d.amount },
    w.mem⟩

def addPosting (p : Posting Text Int) (w : World) : World :=
  ⟨w.db, { w.mem with
    relayAccountCache := Function.update w.mem.relayAccountCache p.account
      (some ((w.mem.relayAccountCache p.account).getD 0 + p.amount)) }⟩

def applyPostings (l : CommitFunc) (w : World) : World := l.foldl (fun w p => addPosting p w) w

def Loaded (w : World) (a : Text) : Prop := (w.mem.relayAccountCache a).isSome = true

@[simp] lemma db_loadAccount (a : Text) (w : World) : (loadAccount a w).db = w.db := rfl

@[simp] lemma db_addPosting (p : Posting Text Int) (w : World) : (addPosting p w).db = w.db := rfl

@[simp] lemma db_applyPostings (l : CommitFunc) (w : World) : (applyPostings l w).db = w.db := by
  induction l generalizing w with
  | nil => rfl
  | cons p l ih => exact (ih (addPosting p w)).trans rfl

lemma loadAccount_of_loaded {b : Int} (h : w.mem.relayAccountCache a = some b) :
    loadAccount a w = w := by
  have hb : cachedBalance w a = b := by rw [cachedBalance, h, getD_some]
  rw [loadAccount, hb, ← h, update_eq_self]

/-! ## outcomes of the writers -/

lemma ok_getRelayAccountFromCache {b : Int} : Ok (getRelayAccountFromCache a) w b w' ↔
      b = cachedBalance w a ∧ w' = loadAccount a w := by
  simp only [getRelayAccountFromCache, ok_bind, ok_getMem]
  cases h : w.mem.relayAccountCache a with
  | some x =>
    rw [loadAccount_of_loaded h, cachedBalance, h]
    constructor
    · rintro ⟨m, w1, ⟨rfl, rfl⟩, h'⟩
      rw [h] at h'
      exact ok_pure.1 h'
    · rintro ⟨rfl, rfl⟩
      refine ⟨_, _, ⟨rfl, rfl⟩, ?_⟩
      rw [h]
      exact ok_pure.2 ⟨rfl, rfl⟩
  | none =>
    rw [loadAccount, cachedBalance, h]
    constructor
    · rintro ⟨m, w1, ⟨rfl, rfl⟩, h'⟩
      rw [h] at h'
      obtain ⟨db, w2, ⟨rfl, rfl⟩, u, w3, rfl, rfl, rfl⟩ := h'
      exact ⟨rfl, rfl⟩
    · rintro ⟨rfl, rfl⟩
      refine ⟨_, _, ⟨rfl, rfl⟩, ?_⟩
      rw [h]
      simp only [ok_bind, ok_getDb, ok_modifyMem, ok_pure]
      exact ⟨_, _, ⟨rfl, rfl⟩, (), _, rfl, rfl, rfl⟩

lemma fails_getRelayAccountFromCache : ¬ Fails (getRelayAccountFromCache a) w e w' :=
  (ok_getRelayAccountFromCache.2 ⟨rfl, rfl⟩).not_fails

lemma ok_createRelayAccountEventWithID {n : Nat} :
    Ok (createRelayAccountEventWithID d.type d.reason d.address d.amount) w n w' ↔
      w.db.relayAccountEvents.reasonTaken d.reason = false ∧
        n = w.db.relayAccountEvents.rows.length + 1 ∧ w' = appendEvent d w := by
  simp only [createRelayAccountEventWithID, ok_bind, ok_getDb, ok_require, ok_modifyDb, ok_pure]
  constructor
  · rintro ⟨db, w1, ⟨rfl, rfl⟩, u, w2, ⟨hr, rfl⟩, u', w3, rfl, rfl, rfl⟩
    exact ⟨hr, rfl, rfl⟩
  · rintro ⟨hr, rfl, rfl⟩
    exact ⟨_, _, ⟨rfl, rfl⟩, (), _, ⟨hr, rfl⟩, (), _, rfl, rfl, rfl⟩

lemma fails_createRelayAccountEventWithID :
    Fails (createRelayAccountEventWithID d.type d.reason d.address d.amount) w e w' ↔
      w.db.relayAccountEvents.reasonTaken d.reason = true ∧ e = .duplicateKey ∧ w' = w := by
  simp only [createRelayAccountEventWithID, fails_bind, ok_getDb, fails_getDb,
    fails_require, fails_modifyDb, fails_pure, false_or, or_false, and_false,
    exists_false, Bool.not_eq_false]
  constructor
  · rintro ⟨db, w1, ⟨rfl, rfl⟩, h⟩
    exact h
  · intro h
    exact ⟨_, _, ⟨rfl, rfl⟩, h⟩

lemma ok_createRelayAccountEvent :
    Ok (createRelayAccountEvent d.type d.reason d.address d.amount) w u w' ↔
      w.db.relayAccountEvents.reasonTaken d.reason = false ∧ w' = appendEvent d w := by
  simp only [createRelayAccountEvent, ok_bind, ok_createRelayAccountEventWithID, ok_pure]
  constructor
  · rintro ⟨n, w1, ⟨hr, -, rfl⟩, -, rfl⟩
    exact ⟨hr, rfl⟩
  · rintro ⟨hr, rfl⟩
    exact ⟨_, _, ⟨hr, rfl, rfl⟩, trivial, rfl⟩

lemma fails_createRelayAccountEvent :
    Fails (createRelayAccountEvent d.type d.reason d.address d.amount) w e w' ↔
      w.db.relayAccountEvents.reasonTaken d.reason = true ∧ e = .duplicateKey ∧ w' = w := by
  simp only [createRelayAccountEvent, fails_bind, fails_createRelayAccountEventWithID,
    fails_pure, and_false, exists_false, or_false]

lemma ok_addToCache : Ok (addToCache p) w u w' ↔ w' = addPosting p w := by
  rw [addToCache, ok_modifyMem]
  rfl

lemma ok_runCommitFunc : Ok (runCommitFunc l) w u w' ↔ w' = applyPostings l w := by
  rw [runCommitFunc]
  induction l generalizing w with
  | nil => rw [ok_each_nil]; rfl
  | cons p l ih =>
    rw [ok_each_cons]
    constructor
    · rintro ⟨w1, h1, h2⟩
      rw [ok_addToCache] at h1
      subst h1
      exact ih.1 h2
    · rintro rfl
      exact ⟨_, ok_addToCache.2 rfl, ih.2 rfl⟩

instance : Tx.Sure (runCommitFunc l) := ⟨fun _ _ _ => (ok_runCommitFunc (u := ()).2 rfl).not_fails⟩

lemma ok_creditRelayAccount {f : CommitFunc} :
    Ok (creditRelayAccount d.type d.reason d.address d.amount) w f w' ↔
      w.db.relayAccountEvents.reasonTaken d.reason = false ∧ f = [⟨d.address, d.amount⟩] ∧
        w' = loadAccount d.address (appendEvent d w) := by
  simp only [creditRelayAccount, ok_bind, ok_createRelayAccountEvent,
    ok_getRelayAccountFromCache, ok_pure]
  constructor
  · rintro ⟨u, w1, ⟨hr, rfl⟩, b, w2, ⟨rfl, rfl⟩, rfl, rfl⟩
    exact ⟨hr, rfl, rfl⟩
  · rintro ⟨hr, rfl, rfl⟩
    exact ⟨(), _, ⟨hr, rfl⟩, _, _, ⟨rfl, rfl⟩, rfl, rfl⟩

/-! ## the cache -/

@[simp] lemma cachedBalance_loadAccount (a : Text) (w : World) (b : Text) :
    cachedBalance (loadAccount a w) b = cachedBalance w b := by
  show (update w.mem.relayAccountCache a (some (cachedBalance w a)) b).getD _ = _
  by_cases h : b = a
  · subst h
    rw [update_self, getD_some]
  · rw [update_of_ne h]
    rfl

@[simp] lemma cachedBalance_appendEvent (d : EventDraft) (w : World) (b : Text) :
    cachedBalance (appendEvent d w) b = cachedBalance w b := rfl

lemma loaded_loadAccount : Loaded (loadAccount a w) b ↔ b = a ∨ Loaded w b := by
  show (update w.mem.relayAccountCache a (some (cachedBalance w a)) b).isSome = true ↔ _
  by_cases h : b = a
  · subst h
    simp
  · rw [update_of_ne h]
    simp [h, Loaded]

lemma loaded_addPosting : Loaded (addPosting p w) b ↔ b = p.account ∨ Loaded w b := by
  show (update w.mem.relayAccountCache p.account _ b).isSome = true ↔ _
  by_cases h : b = p.account
  · subst h
    simp
  · rw [update_of_ne h]
    simp [h, Loaded]

lemma loaded_applyPostings (h : Loaded w b) : Loaded (applyPostings l w) b := by
  induction l generalizing w with
  | nil => exact h
  | cons p l ih => exact ih (loaded_addPosting.2 (.inr h))

lemma cachedBalance_addPosting (h : Loaded w p.account) (b : Text) :
    cachedBalance (addPosting p w) b = cachedBalance w b + total [p] b := by
  obtain ⟨x, hx⟩ := isSome_iff_exists.1 h
  rw [total_cons, total_nil, add_zero]
  show (update w.mem.relayAccountCache p.account _ b).getD _ = _
  by_cases hb : b = p.account
  · subst hb
    rw [update_self, if_pos rfl, cachedBalance, hx]
    rfl
  · rw [update_of_ne hb, if_neg fun e => hb e.symm, add_zero]
    rfl

/-- **the increments reach the cached balances** of loaded accounts. -/
theorem cachedBalance_applyPostings (h : ∀ p ∈ l, Loaded w p.account) (b : Text) :
    cachedBalance (applyPostings l w) b = cachedBalance w b + total l b := by
  induction l generalizing w with
  | nil =>
    rw [total_nil, add_zero]
    rfl
  | cons p l ih =>
    have hp := h p mem_cons_self
    have hl := ih (w := addPosting p w) fun q hq =>
      loaded_addPosting.2 (.inr (h q (mem_cons_of_mem p hq)))
    show cachedBalance (applyPostings l (addPosting p w)) b = _
    rw [hl, cachedBalance_addPosting hp, add_assoc, ← total_append]
    rfl

/-! ## the log -/

def EventDraft.posting (d : EventDraft) : Posting Text Int :=
  ⟨d.address, if d.type.isDebit then -d.amount else d.amount⟩

def RelayAccountEvent.draft (e : RelayAccountEvent) : EventDraft :=
  ⟨e.type, e.reason, e.address, e.amount⟩

lemma EventLog.rows_append (log : EventLog) (h : log.reasonTaken d.reason = false) :
    (log.append d.type d.reason d.address d.amount).rows =
      log.rows ++ [⟨log.rows.length + 1, d.address, d.amount, .pending, d.reason, d.type⟩] := by
  rw [EventLog.append, dif_neg (by rw [h]; simp)]

/-- the log of `w'` is the log of `w` and then pending events with the given contents. -/
def Appends (drafts : List EventDraft) (db db' : Db) : Prop :=
  ∃ es, db'.relayAccountEvents.rows = db.relayAccountEvents.rows ++ es ∧
    es.map (·.draft) = drafts ∧ ∀ e ∈ es, e.status = .pending

lemma Appends.nil (h : db'.relayAccountEvents = db.relayAccountEvents) :
    Appends [] db db' := ⟨[], by rw [h, append_nil], rfl, by simp⟩

lemma Appends.trans {db'' : Db} (h : Appends ds db db')
    (h' : Appends ds' db' db'') : Appends (ds ++ ds') db db'' := by
  obtain ⟨es, hr, hd, hp⟩ := h
  obtain ⟨es', hr', hd', hp'⟩ := h'
  refine ⟨es ++ es', by rw [hr', hr, append_assoc], by rw [map_append, hd, hd'], ?_⟩
  intro e he
  rcases mem_append.1 he with he | he
  · exact hp e he
  · exact hp' e he

lemma appends_appendEvent (h : w.db.relayAccountEvents.reasonTaken d.reason = false) :
    Appends [d] w.db (appendEvent d w).db :=
  ⟨_, w.db.relayAccountEvents.rows_append h, rfl, by simp⟩

lemma Appends.pendingEvents (h : Appends ds db db') :
    ∃ es, CrynuxRelay.pendingEvents db' = CrynuxRelay.pendingEvents db ++ es ∧
      es.map (·.draft) = ds := by
  obtain ⟨es, hr, hd, hp⟩ := h
  refine ⟨es, ?_, hd⟩
  rw [CrynuxRelay.pendingEvents, hr, filter_append]
  congr 1
  apply filter_eq_self.2
  intro e he
  exact decide_eq_true (hp e he)

/-! ## completed writers -/

/-- the events are in the log, their amounts in the cache, and the rows of the accounts unchanged. -/
structure Posts (drafts : List EventDraft) (w w' : World) : Prop where
  appends : Appends drafts w.db w'.db
  accounts : w'.db.relayAccounts = w.db.relayAccounts
  cached : ∀ a, cachedBalance w' a = cachedBalance w a + total (drafts.map (·.posting)) a
  keeps_loaded : ∀ a, Loaded w a → Loaded w' a
  loads : ∀ d ∈ drafts, Loaded w' d.address

lemma Posts.ledger_eq (h : Posts ds w w') : ledger w' = (ledger w).post (ds.map (·.posting)) := by
  obtain ⟨es, hp, hd⟩ := h.appends.pendingEvents
  have hs : projectedBalance w'.db = projectedBalance w.db := by
    funext a
    rw [projectedBalance, h.accounts, projectedBalance]
  have hq : (pendingEvents w'.db).map (·.posting) =
      (pendingEvents w.db).map (·.posting) ++ ds.map (·.posting) := by
    rw [hp, map_append, ← hd, List.map_map]
    rfl
  rw [ledger, hs, hq, funext h.cached]
  rfl

lemma Posts.trans {w'' : World} (h : Posts ds w w')
    (h' : Posts ds' w' w'') : Posts (ds ++ ds') w w'' where
  appends := h.appends.trans h'.appends
  accounts := h'.accounts.trans h.accounts
  cached := fun a => by rw [h'.cached, h.cached, map_append, total_append, add_assoc]
  keeps_loaded := fun a ha => h'.keeps_loaded a (h.keeps_loaded a ha)
  loads := fun d hd => by
    rcases mem_append.1 hd with hd | hd
    · exact h'.keeps_loaded _ (h.loads d hd)
    · exact h'.loads d hd

/-- a credit that is committed at once: the event, the load, the increment. -/
def credit (d : EventDraft) (w : World) : World :=
  addPosting ⟨d.address, d.amount⟩ (loadAccount d.address (appendEvent d w))

lemma ok_credit : Ok (do
      let f ← creditRelayAccount d.type d.reason d.address d.amount
      runCommitFunc f) w u w' ↔
      w.db.relayAccountEvents.reasonTaken d.reason = false ∧ w' = credit d w := by
  rw [ok_bind]
  constructor
  · rintro ⟨f, w1, hf, h⟩
    obtain ⟨hr, rfl, rfl⟩ := ok_creditRelayAccount.1 hf
    exact ⟨hr, ok_runCommitFunc.1 h⟩
  · rintro ⟨hr, rfl⟩
    exact ⟨_, _, ok_creditRelayAccount.2 ⟨hr, rfl, rfl⟩, ok_runCommitFunc.2 rfl⟩

lemma posts_credit (hd : d.type.isDebit = false)
    (hr : w.db.relayAccountEvents.reasonTaken d.reason = false) : Posts [d] w (credit d w) where
  appends := appends_appendEvent hr
  accounts := rfl
  cached := fun a => by
    have hl : Loaded (loadAccount d.address (appendEvent d w)) d.address :=
      loaded_loadAccount.2 (.inl rfl)
    have hp : d.posting = ⟨d.address, d.amount⟩ := by rw [EventDraft.posting, hd]; rfl
    rw [credit, cachedBalance_addPosting hl, cachedBalance_loadAccount, cachedBalance_appendEvent,
      map_singleton, hp]
  keeps_loaded := fun a ha => loaded_addPosting.2 (.inr (loaded_loadAccount.2 (.inr ha)))
  loads := fun d' hd' => by
    rw [mem_singleton.1 hd']
    exact loaded_addPosting.2 (.inl rfl)

end CrynuxRelay
