import CrynuxRelay.Accounts.Projection

/-!
# The cache after a restart

`InitRelayAccountCache` fills the cache from the `relay_accounts` rows and then drains the queue of
pending events into those rows; the drain does not touch the cache.

* `AcceptedInBatches` -- the validator accepts every batch of the drain;
* `drain_ok` -- the drain then ends with an empty queue, and every row has taken its events;
* `initRelayAccountCache_coherent_iff` -- **the cache agrees with the rows exactly when the pending
  events of every account that has a row sum to zero**.
-/

namespace CrynuxRelay

open List Option Tx

/-- the validator rejects nothing, batch after batch, for `fuel` batches. -/
def AcceptedInBatches (chain : Chain) : Nat → Db → Prop
  | 0, _ => True
  | fuel + 1, db =>
    (pendingEvents db).take 50 = [] ∨
      (validatePendingRelayAccountEvents chain db ((pendingEvents db).take 50) =
          .ok ((pendingEvents db).take 50, []) ∧
        AcceptedInBatches chain fuel (projectBatch ((pendingEvents db).take 50) db))

/-- cached balance = projected balance + pending events, for every address. -/
def CacheCoherent (w : World) : Prop :=
  ∀ a, cachedBalance w a = projectedBalance w.db a + pendingSum w.db a

lemma getPending_ok (n : Nat) (s : World) :
    Ok (getPendingRelayAccountEvents n) s ((pendingEvents s.db).take n) s := by
  simp [getPendingRelayAccountEvents]

/-! ## the drain -/

lemma drain_ok (chain : Chain) (fuel : Nat) (s : World)
    (hfuel : (pendingEvents s.db).length ≤ fuel) (hacc : AcceptedInBatches chain fuel s.db) :
    ∃ db', Ok (drainPendingRelayAccountEvents chain fuel) s () ⟨db', s.mem⟩ ∧ pendingEvents db' = [] ∧
      ∀ a, projectedBalance db' a = projectedBalance s.db a + pendingSum s.db a := by
  induction fuel generalizing s with
  | zero =>
    have hnil : pendingEvents s.db = [] := eq_nil_of_length_eq_zero (by omega)
    refine ⟨s.db, ?_, hnil, ?_⟩
    · rw [drainPendingRelayAccountEvents, ok_pure]
      exact ⟨rfl, rfl⟩
    · intro a
      rw [pendingSum, hnil, map_nil, total_nil, add_zero]
  | succ fuel ih =>
    rw [drainPendingRelayAccountEvents]
    by_cases hb : (pendingEvents s.db).take 50 = []
    · have hnil : pendingEvents s.db = [] := by simpa using hb
      refine ⟨s.db, ?_, hnil, ?_⟩
      · rw [ok_bind]
        refine ⟨_, s, getPending_ok 50 s, ?_⟩
        rw [if_pos hb, ok_pure]
        exact ⟨rfl, rfl⟩
      · intro a
        rw [pendingSum, hnil, map_nil, total_nil, add_zero]
    · obtain ⟨hv, hrest⟩ := hacc.resolve_left hb
      -- the rest of the queue is strictly shorter
      have hpend := pendingEvents_projectBatch s.db 50
      have hlen : (pendingEvents (projectBatch ((pendingEvents s.db).take 50) s.db)).length ≤
          fuel := by
        rw [hpend, length_drop]
        omega
      obtain ⟨db', hok, hnil, hproj⟩ :=
        ih ⟨projectBatch ((pendingEvents s.db).take 50) s.db, s.mem⟩ hlen hrest
      refine ⟨db', ?_, hnil, ?_⟩
      · rw [ok_bind]
        refine ⟨_, s, getPending_ok 50 s, ?_⟩
        rw [if_neg hb, ok_bind]
        exact ⟨(), _, processPending_ok.2 ⟨_, _, hv, hb, rfl⟩, hok⟩
      · intro a
        rw [hproj, projectedBalance_projectBatch, pendingSum, hpend, add_assoc,
          pendingSum_take_add_drop]

lemma initRelayAccountCache_ok (chain : Chain) (w : World)
    (hacc : AcceptedInBatches chain (pendingEvents w.db).length w.db) :
    ∃ w', Ok (initRelayAccountCache chain) w () w' ∧ pendingEvents w'.db = [] ∧
      (∀ a, projectedBalance w'.db a = projectedBalance w.db a + pendingSum w.db a) ∧
      w'.mem.relayAccountCache = loadRelayAccounts w.db w.mem.relayAccountCache := by
  obtain ⟨db', hok, hnil, hproj⟩ := drain_ok chain (pendingEvents w.db).length
    ⟨w.db, { w.mem with relayAccountCache := loadRelayAccounts w.db w.mem.relayAccountCache }⟩
    (le_refl _) hacc
  refine ⟨⟨db', { w.mem with
    relayAccountCache := loadRelayAccounts w.db w.mem.relayAccountCache }⟩, ?_, hnil, hproj, rfl⟩
  simp only [initRelayAccountCache, ok_bind, ok_getDb, ok_modifyMem]
  exact ⟨w.db, w, ⟨rfl, rfl⟩, (), _, rfl, hok⟩

/-! ## coherence after the start -/

/-- **Restart.**  From an empty cache, whatever the rows and the pending events that the validator
accepts: the start returns, and it leaves a coherent cache exactly when the pending events of every
address with a `relay_accounts` row sum to zero. -/
theorem initRelayAccountCache_coherent_iff (chain : Chain) (w : World)
    (hcache : ∀ a, w.mem.relayAccountCache a = none)
    (hacc : AcceptedInBatches chain (pendingEvents w.db).length w.db) :
    ∃ w', Ok (initRelayAccountCache chain) w () w' ∧ (CacheCoherent w' ↔
        ∀ a, (w.db.relayAccounts a).isSome = true → pendingSum w.db a = 0) := by
  obtain ⟨w', hok, hnil, hproj, hload⟩ := initRelayAccountCache_ok chain w hacc
  refine ⟨w', hok, ?_⟩
  have hpend : ∀ a, pendingSum w'.db a = 0 := by
    intro a
    rw [pendingSum, hnil, map_nil, total_nil]
  have hcached : ∀ a, w'.mem.relayAccountCache a = w.db.relayAccounts a := by
    intro a
    rw [hload, loadRelayAccounts, hcache a]
  constructor
  · intro hco a ha
    obtain ⟨b, hb⟩ := isSome_iff_exists.1 ha
    have hpb : projectedBalance w.db a = b := by rw [projectedBalance, hb, getD_some]
    have := hco a
    rw [cachedBalance, hcached, hb, getD_some, hpend, hproj, hpb] at this
    omega
  · intro hz a
    rw [cachedBalance, hcached, hpend, add_zero]
    cases hb : w.db.relayAccounts a with
    | none => rfl
    | some b =>
      have hpb : projectedBalance w.db a = b := by rw [projectedBalance, hb, getD_some]
      rw [getD_some, hproj, hpb, hz a (by rw [hb]; rfl), add_zero]

/-! ## a restart with one unprojected payment -/

def silentChain : Chain where
  hasClient := fun _ => false
  receiptStatus := fun _ _ => .ok none
  fundingTokenType := fun _ => none
  transactionTransfer := fun _ _ => .ok none
  erc20Deposit := fun _ _ => none

def restartDb : Db where
  tasks := Table.empty.insert
    { taskIDCommitment := "0xc1".toList, creator := "0xa1".toList, taskFee := 3 }
  relayAccounts := fun a => if a = "0xa1".toList then some 10 else none
  relayAccountEvents := EventLog.empty.append .taskPayment
    (reason2 .taskPayment "0xc1".toList) "0xa1".toList 3

theorem initRelayAccountCache_coherent_iff_at_payment :
    ∃ w', Ok (initRelayAccountCache silentChain) ⟨restartDb, {}⟩ () w' ∧ (CacheCoherent w' ↔
        ∀ a, (restartDb.relayAccounts a).isSome = true → pendingSum restartDb a = 0) :=
  initRelayAccountCache_coherent_iff silentChain ⟨restartDb, {}⟩ (fun _ => rfl)
    (.inr ⟨rfl, trivial⟩)

theorem initRelayAccountCache_stale :
    ∃ w', Ok (initRelayAccountCache silentChain) ⟨restartDb, {}⟩ () w' ∧ ¬ CacheCoherent w' := by
  obtain ⟨w', hok, hnil, hproj, hload⟩ :=
    initRelayAccountCache_ok silentChain ⟨restartDb, {}⟩ (.inr ⟨rfl, trivial⟩)
  refine ⟨w', hok, fun hco => ?_⟩
  have h := hco "0xa1".toList
  have hp : projectedBalance w'.db "0xa1".toList = 7 := (hproj _).trans (by decide)
  have hc : w'.mem.relayAccountCache "0xa1".toList = some 10 := by rw [hload]; decide
  have hz : pendingSum w'.db "0xa1".toList = 0 := by rw [pendingSum, hnil]; rfl
  rw [cachedBalance, hc, hp, hz] at h
  exact absurd h (by decide)

end CrynuxRelay
