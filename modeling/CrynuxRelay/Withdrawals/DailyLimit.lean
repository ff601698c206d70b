import CrynuxRelay.Accounts.Funding
import CrynuxRelay.Model.WithdrawSteps

/-!
# The daily limit of withdrawals

* `LimitsKept` -- on every network, no address and no benefit address has more withdrawals on the day
  than the limit;
* `serial_withdraw` -- a call that is alone with its addresses keeps the limits;
* `countBy_withdraw` -- the transaction of `withdraw`, run alone, is such a call;
* `daily_limit` -- **so does every run in which calls with a common address do not overlap**;
* `limit_exceeded` -- two calls that overlap exceed a limit of one.
-/

namespace CrynuxRelay

open List Table Tx

variable {field : WithdrawRecord → Text} {r : WithdrawRecord}
  {env : Env} {day : Time} {network : Text}

/-- the withdrawals of the day that were not rejected, by address and by benefit address. -/
def countBy (db : Db) (day : Time) (network : Text) (field : WithdrawRecord → Text) (a : Text) : Nat :=
  todayCount db day network fun r => field r = a

def LimitsKept (env : Env) (day : Time) (db : Db) : Prop :=
  ∀ network networkConfig, env.fundingNetwork network = some networkConfig → ∀ a,
    countBy db day network (·.address) a ≤ networkConfig.maxWithdrawalsPerDay ∧
      countBy db day network (·.benefitAddress) a ≤ networkConfig.maxWithdrawalsPerDay

/-- the limits of the two calls have a count in common. -/
def SharesLimit (c c' : WithdrawRequest) : Prop :=
  c.network = c'.network ∧ (c.address = c'.address ∨ c.benefitAddress = c'.benefitAddress)

/-- the counts of a call have not gone up since its snapshot. -/
structure CountsHold (day : Time) (c : WithdrawRequest) (snapshot db : Db) : Prop where
  address : countBy db day c.network (·.address) c.address ≤
    countBy snapshot day c.network (·.address) c.address
  benefit : countBy db day c.network (·.benefitAddress) c.benefitAddress ≤
    countBy snapshot day c.network (·.benefitAddress) c.benefitAddress

/-! ## counts -/

lemma dayStart_dayStart (now : Time) : dayStart (dayStart now) = dayStart now := by
  have hday : (86400 : Int) * 10 ^ 9 = 86400000000000 := rfl
  have hmod : ∀ n : Int, n - n % 86400000000000 - (n - n % 86400000000000) % 86400000000000 =
      n - n % 86400000000000 := by
    omega
  exact hmod now

lemma todayCount_of_day {now : Time} (h : dayStart now = day) (db : Db) (network : Text)
    (p : WithdrawRecord → Bool) : todayCount db now network p = todayCount db day network p := by
  rw [todayCount, todayCount, ← h, dayStart_dayStart]

def counts (day : Time) (network : Text) (field : WithdrawRecord → Text) (a : Text)
    (r : WithdrawRecord) : Bool :=
  decide (field r = a) && decide (r.network = network ∧ dayStart day ≤ r.createdAt ∧ r.status ≠ .failed)

lemma countBy_resolve_le (e : WithdrawResolution) (db : Db) (network : Text)
    (hfield : ∀ r, field (resolveRecord e.fulfilled r) = field r) (a : Text) :
    countBy (resolveWithdraw e db) day network field a ≤ countBy db day network field a := by
  refine db.withdrawRecords.count_modify_le e.withdrawID _ (id_resolveRecord e.fulfilled) fun r hr => ?_
  simp only [Bool.and_eq_true, decide_eq_true_eq] at hr ⊢
  obtain ⟨hf, hn, ht, hs⟩ := hr
  rw [hfield] at hf
  rw [resolveRecord] at hn ht hs
  split at hs
  · next hp =>
    rw [if_pos hp] at hn ht
    refine ⟨hf, hn, ht, ?_⟩
    rw [hp]
    decide
  · next hp =>
    rw [if_neg hp] at hn ht
    exact ⟨hf, hn, ht, hs⟩

lemma address_resolveRecord (b : Bool) (r : WithdrawRecord) :
    (resolveRecord b r).address = r.address := by
  rw [resolveRecord]
  split
  · rfl
  · rfl

lemma benefitAddress_resolveRecord (b : Bool) (r : WithdrawRecord) :
    (resolveRecord b r).benefitAddress = r.benefitAddress := by
  rw [resolveRecord]
  split
  · rfl
  · rfl

lemma countBy_insert (db : Db) (hid : r.id = nextWithdrawID db) (network : Text)
    (field : WithdrawRecord → Text) (a : Text) :
    countBy { db with withdrawRecords := db.withdrawRecords.insert r } day network field a =
      countBy db day network field a + (counts day network field a r).toNat :=
  db.withdrawRecords.count_insert r (hid ▸ get_nextWithdrawID db) _

lemma counts_eq_false {a : Text} (h : r.network = network → field r ≠ a) :
    counts day network field a r = false := by
  rw [counts, Bool.and_eq_false_iff]
  by_cases hf : field r = a
  · refine .inr (decide_eq_false fun hc => h hc.1 hf)
  · exact .inl (decide_eq_false hf)

/-- a new record keeps a bound that it does not count for, or that is not reached. -/
lemma countBy_insert_le {db : Db} (hid : r.id = nextWithdrawID db) {a : Text}
    {n : Nat} (hle : countBy db day network field a ≤ n)
    (hlt : r.network = network → field r = a → countBy db day network field a < n) :
    countBy { db with withdrawRecords := db.withdrawRecords.insert r } day network field a ≤ n := by
  rw [countBy_insert db hid]
  cases hc : counts day network field a r with
  | false => exact hle
  | true =>
    rw [counts, Bool.and_eq_true, decide_eq_true_eq, decide_eq_true_eq] at hc
    exact hlt hc.2.1 hc.1

/-- **what a commit does**: nothing, or one record after both counts of the snapshot were below the
limit. -/
theorem commitWithdraw_cases (c : WithdrawRequest) (m : WithdrawMoment day) (snapshot db : Db) :
    commitWithdraw env c m snapshot db = db ∨
      ∃ networkConfig r, env.fundingNetwork c.network = some networkConfig ∧
        countBy snapshot day c.network (·.address) c.address < networkConfig.maxWithdrawalsPerDay ∧
        countBy snapshot day c.network (·.benefitAddress) c.benefitAddress <
          networkConfig.maxWithdrawalsPerDay ∧
        r.id = nextWithdrawID db ∧ r.network = c.network ∧ r.address = c.address ∧
        r.benefitAddress = c.benefitAddress ∧ commitWithdraw env c m snapshot db =
          { db with withdrawRecords := db.withdrawRecords.insert r } := by
  cases hn : env.fundingNetwork c.network with
  | none =>
    refine .inl ?_
    rw [commitWithdraw, hn]
  | some networkConfig =>
    by_cases hc : withinDailyLimit networkConfig c m.now snapshot ∧ m.charged = true
    · refine .inr ⟨networkConfig, c.record env networkConfig (nextWithdrawID db) m.createdAt, rfl,
        ?_, ?_, rfl, rfl, rfl, rfl, ?_⟩
      · have := hc.1.1
        rwa [todayCount_of_day m.now_day] at this
      · have := hc.1.2
        rwa [todayCount_of_day m.now_day] at this
      · simp only [commitWithdraw, hn, if_pos hc]
    · refine .inl ?_
      simp only [commitWithdraw, hn, if_neg hc]

/-! ## calls -/

theorem serial_withdraw (env : Env) (day : Time) :
    Snapshot.Serial (commitWithdraw env : WithdrawRequest → WithdrawMoment day → Db → Db → Db)
      resolveWithdraw SharesLimit (CountsHold day)
      (LimitsKept env day) where
  symm := fun c c' h => ⟨h.1.symm, h.2.imp Eq.symm Eq.symm⟩
  refl := fun c d => ⟨le_rfl, le_rfl⟩
  keep_write := fun c c' m d d' db hshare h => by
    rcases commitWithdraw_cases c m d db with he | ⟨_, r, _, _, _, hid, hnet, haddr, hben, he⟩
    · rwa [he]
    · have ha : counts day c'.network (·.address) c'.address r = false :=
        counts_eq_false fun hn hf => hshare ⟨hnet ▸ hn, .inl (haddr ▸ hf)⟩
      have hb : counts day c'.network (·.benefitAddress) c'.benefitAddress r = false :=
        counts_eq_false fun hn hf => hshare ⟨hnet ▸ hn, .inr (hben ▸ hf)⟩
      rw [he]
      refine ⟨?_, ?_⟩
      · rw [countBy_insert db hid, ha]
        exact h.address
      · rw [countBy_insert db hid, hb]
        exact h.benefit
  keep_step := fun c e d db _ h =>
    ⟨(countBy_resolve_le e db _ (address_resolveRecord _) _).trans h.address,
      (countBy_resolve_le e db _ (benefitAddress_resolveRecord _) _).trans h.benefit⟩
  holds_write := fun c m d db _ h hdb => by
    rcases commitWithdraw_cases c m d db with
      he | ⟨networkConfig, r, hcfg, ha, hb, hid, hnet, haddr, hben, he⟩
    · rwa [he]
    · rw [he]
      intro network cfg hn a
      obtain ⟨h1, h2⟩ := hdb network cfg hn a
      have hsame : r.network = network → cfg = networkConfig := by
        intro he
        rw [← he, hnet, hcfg] at hn
        exact (Option.some.inj hn).symm
      refine ⟨countBy_insert_le hid h1 fun hn' hf => ?_, countBy_insert_le hid h2 fun hn' hf => ?_⟩
      · rw [hsame hn', ← hn', ← hf, hnet, haddr]
        exact h.address.trans_lt ha
      · rw [hsame hn', ← hn', ← hf, hnet, hben]
        exact h.benefit.trans_lt hb
  holds_step := fun e db hdb network cfg hn a =>
    ⟨(countBy_resolve_le e db _ (address_resolveRecord _) _).trans (hdb network cfg hn a).1,
      (countBy_resolve_le e db _ (benefitAddress_resolveRecord _) _).trans (hdb network cfg hn a).2⟩

/-- **a call of `withdraw` alone** commits what its transaction writes from a snapshot that is up to
date. -/
theorem countBy_withdraw {w w' : World} {c : WithdrawRequest} {id : Nat}
    (h : Ok (withdraw env c.address c.benefitAddress c.amount c.network) w id w')
    (network : Text) (hfield : field = (·.address) ∨ field = (·.benefitAddress)) (a : Text) :
    countBy w'.db (dayStart env.now) network field a =
      countBy (commitWithdraw env c ⟨env.now, rfl, env.now, rfl, true⟩ w.db w.db) (dayStart env.now)
        network field a := by
  obtain ⟨net, fee, eventID, hnet, hfee, -, hfresh, -, -, hrows, -⟩ := withdraw_ok h
  have hlimit : withinDailyLimit net c env.now w.db := by
    rw [withdraw, ok_orFail_bind] at h
    obtain ⟨net', hnet', h⟩ := h
    rw [hnet] at hnet'
    cases hnet'
    rw [ok_transaction, ok_getDb_bind, ok_require_bind, ok_require_bind] at h
    exact ⟨h.1, h.2.1⟩
  have hcommit : commitWithdraw env c ⟨env.now, rfl, env.now, rfl, true⟩ w.db w.db = { w.db with
        withdrawRecords := w.db.withdrawRecords.insert
          (c.record env net (nextWithdrawID w.db) env.now) } := by
    simp only [commitWithdraw, hnet]
    exact if_pos ⟨hlimit, trivial⟩
  have hinsert : ∀ j, w'.db.withdrawRecords.get j = (w.db.withdrawRecords.insert
      (newWithdrawRecord env id c.address c.benefitAddress c.amount c.network fee eventID)).get j := by
    intro j
    rw [hrows, get_insert _ _ _ hfresh]
    rfl
  have hcount : countBy w'.db (dayStart env.now) network field a = (w.db.withdrawRecords.insert
      (newWithdrawRecord env id c.address c.benefitAddress c.amount c.network fee eventID)).count
        (counts (dayStart env.now) network field a) :=
    count_congr fun j => congrArg (Option.any _) (hinsert j)
  rw [hcommit, countBy_insert _ rfl, hcount, Table.count_insert _ _ hfresh]
  -- the two records differ in the ids only
  rcases hfield with rfl | rfl
  · rfl
  · rfl

/-- **the daily limit**, in every run in which calls with a common address do not overlap. -/
theorem daily_limit (env : Env) (day : Time) (db : Db) (hdb : LimitsKept env day db)
    (ops : List (WithdrawOp day))
    (halone : Along (WithdrawOp.exec env) (Snapshot.Op.Alone SharesLimit) ops ⟨db, []⟩) :
    LimitsKept env day (run (WithdrawOp.exec env) ops ⟨db, []⟩).db :=
  (serial_withdraw env day).run db hdb ops halone

/-! ## two runs -/

def oneADay : Env where
  fundingNetwork := fun _ => some { withdrawalFee := 0, withdrawalMin := 0, maxWithdrawalsPerDay := 1 }

def firstMoment : WithdrawMoment 0 := ⟨0, rfl, 0, rfl, true⟩

def withdrawOfA : WithdrawRequest := ⟨['a'], ['b'], 1, ['n']⟩

def oneByOne : List (WithdrawOp 0) :=
  [.call withdrawOfA, .read 0, .commit 0 firstMoment, .call withdrawOfA, .read 0,
    .commit 0 firstMoment]

/-- both calls take their snapshots before the first commit. -/
def overlapping : List (WithdrawOp 0) :=
  [.call withdrawOfA, .call withdrawOfA, .read 0, .read 1, .commit 0 firstMoment,
    .commit 0 firstMoment]

lemma limitsKept_empty (env : Env) (day : Time) : LimitsKept env day {} :=
  fun _ _ _ _ => ⟨Nat.zero_le _, Nat.zero_le _⟩

/-- **two calls at a time exceed the limit**: both count no withdrawal, and both commit one. -/
theorem limit_exceeded : LimitsKept oneADay 0 {} ∧
      ¬ LimitsKept oneADay 0 (run (WithdrawOp.exec oneADay) overlapping ⟨{}, []⟩).db := by
  refine ⟨limitsKept_empty _ _, fun h => ?_⟩
  have hle := (h ['n'] _ rfl ['a']).1
  have htwo : countBy (run (WithdrawOp.exec oneADay) overlapping ⟨{}, []⟩).db 0 ['n'] (·.address)
      ['a'] = 2 := by
    decide +kernel
  exact absurd hle (by decide)

theorem daily_limit_at_oneByOne :
    LimitsKept oneADay 0 (run (WithdrawOp.exec oneADay) oneByOne ⟨{}, []⟩).db :=
  daily_limit oneADay 0 {} (limitsKept_empty _ _) oneByOne ⟨trivial, fun _ _ _ hy => absurd hy not_mem_nil,
    trivial, trivial, fun _ _ _ hy => absurd hy not_mem_nil, trivial, trivial⟩

end CrynuxRelay
