import CrynuxRelay.Accounts.LedgerFlights

/-!
# The cache under every interleaving

* `validateEvents_nonneg` -- a batch never takes a projected balance below zero;
* `MutexOk` -- the transaction that holds the mutex is a task creation between its check and its
  subtraction, and the account it has checked still covers the fee;
* `Performed`, `perform_cases` -- what an instruction does: it waits, it is rejected, or it goes through;
* `LedgerInv`, `LedgerInv.exec` -- no cached and no projected balance is negative, in every state of
  every run.
-/

namespace CrynuxRelay

open List LedgerState Instr Thread Option

variable {balances : Text → Option Int} {f : Thread} {instr : Instr} {rest : List Instr} {b : Int}
  {e : RelayAccountEvent} {a : Text} {cached : Text → Prop} {ds : List EventDraft} {x : Int}

/-! ## the validator -/

lemma isSome_addToBalance (h : (balances a).isSome = true) :
    (addToBalance balances e a).isSome = true := by
  simp only [addToBalance]
  cases he : balances e.address with
  | none => exact h
  | some x =>
    show (Function.update balances e.address _ a).isSome = true
    by_cases ha : a = e.address
    · rw [ha, Function.update_self]
      rfl
    · rwa [Function.update_of_ne ha]

lemma validateEvents_nonneg (rule : RelayAccountEvent → Bool) {l : List RelayAccountEvent}
    (hamount : ∀ e ∈ l, 0 ≤ e.amount) {base : Text → Int}
    (hb : Tracks balances base) (hbase : ∀ a, 0 ≤ base a)
    (hdebit : ∀ e ∈ l, e.type.isDebit = true → (balances e.address).isSome = true) (a : Text) :
    0 ≤ base a + total ((validateEvents rule balances l).1.map (·.posting)) a := by
  induction l generalizing balances base with
  | nil =>
    show 0 ≤ base a + total [] a
    rw [total_nil, add_zero]
    exact hbase a
  | cons e l ih =>
    have hamount' : ∀ x ∈ l, 0 ≤ x.amount := fun x hx => hamount x (mem_cons_of_mem e hx)
    rw [validateEvents]
    split
    · next hyes =>
      have hcov := (Bool.and_eq_true_iff.1 hyes).2
      have hbase' : ∀ b, 0 ≤ base b + total [e.posting] b := by
        intro b
        rw [total_cons, total_nil, add_zero]
        split
        · next he =>
          have he : e.address = b := he
          have hs : e.posting.amount = e.signed := rfl
          rw [hs, RelayAccountEvent.signed]
          split
          · next hd =>
            obtain ⟨x, hx⟩ := isSome_iff_exists.1 (hdebit e mem_cons_self hd)
            have hle : e.amount ≤ x := by
              rw [debitCovered, hx] at hcov
              exact of_decide_eq_true hcov hd
            have := hb _ _ hx
            rw [he] at this
            omega
          · have := hbase b
            have := hamount e mem_cons_self
            omega
        · have := hbase b
          omega
      have htail := ih hamount' (hb.addToBalance e) hbase' fun x hx hd =>
        isSome_addToBalance (hdebit x (mem_cons_of_mem e hx) hd)
      show 0 ≤ base a + total (e.posting :: _) a
      rwa [total_cons, total_nil, add_zero, add_assoc] at htail
    · exact ih hamount' hb hbase fun x hx hd => hdebit x (mem_cons_of_mem e hx) hd

namespace LedgerState

variable {s : LedgerState}

def Cached (s : LedgerState) (a : Text) : Prop := (s.cache a).isSome = true

lemma mem_batch (h : e ∈ s.batch) : e ∈ s.pending :=
  (mem_insertionSort _).1 (mem_of_mem_take h)

lemma tracks_batch (s : LedgerState) :
    Tracks (fun a => if a ∈ balanceAddressSet s.batch then some (s.projected a) else none)
      s.projected := by
  intro a b h
  simp only at h
  split at h
  · exact (some.inj h).symm
  · cases h

end LedgerState

/-! ## the mutex -/

def Instr.isSubtract : Instr → Bool
  | .subtract _ _ => true
  | _ => false

def Instr.isLockCheck : Instr → Bool
  | .lockCheck _ _ => true
  | _ => false

/-- between the check and the subtraction of `CreateTask`. -/
def Thread.critical (f : Thread) : Bool := f.todo.any Instr.isSubtract && !f.todo.any Instr.isLockCheck

lemma ThreadOk.of_critical (h : ThreadOk cached f) (hc : f.critical = true) :
    ∃ c a fee, f.tx = .createTask c a fee ∧
      (f.todo = [.insert (LedgerTx.createTask c a fee).drafts, .commit, .subtract a fee] ∨
        f.todo = [.commit, .subtract a fee] ∨ f.todo = [.subtract a fee]) := by
  have hsuffix := h.suffix
  rw [critical, Bool.and_eq_true_iff] at hc
  obtain ⟨instr, hmem, hsub⟩ := any_eq_true.1 hc.1
  cases instr with
  | subtract a fee =>
    obtain ⟨l, rest, htodo⟩ := append_of_mem hmem
    obtain ⟨c, htx, -⟩ := LedgerTx.before_of_suffix ((htodo ▸ suffix_append l _).trans hsuffix)
    rw [htx] at hsuffix ⊢
    refine ⟨c, a, fee, rfl, ?_⟩
    rcases LedgerTx.suffix_createTask hsuffix with ht | ht | ht | ht | ht | ht <;> rw [ht] at hc ⊢
    · exact absurd hc.2 Bool.false_ne_true
    · exact absurd hc.2 Bool.false_ne_true
    · exact .inl rfl
    · exact .inr (.inl rfl)
    · exact .inr (.inr rfl)
    · exact absurd hc.1 Bool.false_ne_true
  | _ => cases hsub

structure MutexOk (s : LedgerState) : Prop where
  holder : ∀ i, s.mutex = some i → ∃ f c a fee b, s.flights[i]? = some f ∧ f.critical = true ∧
    f.tx = .createTask c a fee ∧ s.cache a = some b ∧ fee ≤ b
  held : ∀ i f, s.flights[i]? = some f → f.critical = true → s.mutex = some i

variable {s s' : LedgerState} {i : Nat} {f' : Thread}

section
variable (h : MutexOk s) (hget : s.flights[i]? = some f)
include h hget

/-- a step that leaves the critical sections alone, and the cache while the mutex is held. -/
lemma MutexOk.frame (hflights : s'.flights = s.flights.set i f') (htx : f'.tx = f.tx)
    (hcritical : f'.critical = f.critical) (hmutex : s'.mutex = s.mutex)
    (hcache : ∀ j, s.mutex = some j → ∀ a b, s.cache a = some b → s'.cache a = some b) :
    MutexOk s' := by
  refine ⟨fun j hj => ?_, fun j g hg hc => ?_⟩
  · obtain ⟨g, c, a, fee, b, hg, hc, hgtx, hb, hle⟩ := h.holder j (hmutex ▸ hj)
    have hb' := hcache j (hmutex ▸ hj) a b hb
    by_cases hij : i = j
    · exact ⟨f', c, a, fee, b, by grind, by grind, by grind, hb', hle⟩
    · exact ⟨g, c, a, fee, b, by grind, hc, hgtx, hb', hle⟩
  · have hheld := h.held j
    grind

/-- the mutex is not held, or by someone else, before the check of a task creation. -/
lemma MutexOk.free (hc : f.critical = false) (hfree : s.mutexFree i = true) : s.mutex = none := by
  rcases of_decide_eq_true hfree with hn | hs
  · exact hn
  · obtain ⟨g, -, -, -, -, hg, hgc, -⟩ := h.holder i hs
    rw [hget] at hg
    cases hg
    rw [hc] at hgc
    cases hgc

lemma MutexOk.release (hflights : s'.flights = s.flights.set i f')
    (hmutex' : s'.mutex = if s.mutex = some i then none else s.mutex) (hcritical : f'.critical = false)
    (hcache : ∀ j, s.mutex = some j → j ≠ i → ∀ a b, s.cache a = some b → s'.cache a = some b) :
    MutexOk s' := by
  refine ⟨fun j hj => ?_, fun j g hg hc => ?_⟩
  · rw [hmutex'] at hj
    split at hj
    · cases hj
    · next hne =>
      have hij : i ≠ j := fun he => hne (he ▸ hj)
      obtain ⟨g, c, a, fee, b, hg, hc, hgtx, hb, hle⟩ := h.holder j hj
      exact ⟨g, c, a, fee, b, by grind, hc, hgtx, hcache j hj (Ne.symm hij) a b hb, hle⟩
  · have hheld := h.held j
    grind

end

lemma LedgerTx.not_critical_start (tx : LedgerTx) (snapshot : Text → Int) :
    critical ⟨tx, tx.program, snapshot, [], [], false⟩ = false := by
  rw [Bool.eq_false_iff]
  intro hc
  obtain ⟨c, a, fee, htx, ht⟩ := (threadOk_start (fun _ => True) tx snapshot).of_critical hc
  subst htx
  rcases ht with ht | ht | ht <;> cases ht

lemma MutexOk.start (h : MutexOk s) (hflights : s'.flights = s.flights ++ [f])
    (hc : f.critical = false) (hmutex : s'.mutex = s.mutex) (hcache : s'.cache = s.cache) :
    MutexOk s' := by
  refine ⟨fun j hj => ?_, fun j g hg hgc => ?_⟩
  · rw [hmutex] at hj
    obtain ⟨g, c, a, fee, b, hg, hgc, hgtx, hb, hle⟩ := h.holder j hj
    refine ⟨g, c, a, fee, b, ?_, hgc, hgtx, hcache ▸ hb, hle⟩
    rwa [hflights, getElem?_append_left (List.getElem?_eq_some_iff.1 hg).1]
  · rw [hflights, getElem?_append] at hg
    rw [hmutex]
    split at hg
    · exact h.held j g hg hgc
    · obtain rfl : f = g := by
        have := mem_of_getElem? hg
        exact (mem_singleton.1 this).symm
      rw [hc] at hgc
      cases hgc

/-! ## the invariant -/

structure LedgerInv (s : LedgerState) : Prop where
  flights : ∀ f ∈ s.flights, f.RolledBack ∨ ThreadOk s.Cached f
  nonneg : ∀ f ∈ s.flights, f.tx.Nonneg
  snapshot : ∀ f ∈ s.flights, ∀ a, 0 ≤ f.snapshot a
  events : ∀ e ∈ s.events, 0 ≤ e.amount
  projected : ∀ a, 0 ≤ s.projected a
  cache : ∀ a b, s.cache a = some b → 0 ≤ b
  mutex : MutexOk s

section
variable (h : LedgerInv s) (hget : s.flights[i]? = some f)
include h hget

lemma LedgerInv.threadOk (htodo : f.todo = instr :: rest) : ThreadOk s.Cached f := by
  rcases h.flights f (mem_of_getElem? hget) with hr | hok
  · rw [hr.todo] at htodo
    cases htodo
  · exact hok

lemma LedgerInv.update (hflights : s'.flights = s.flights.set i f') (htx : f'.tx = f.tx)
    (hsnapshot : f'.snapshot = f.snapshot) (hok : f'.RolledBack ∨ ThreadOk s'.Cached f')
    (hcached : ∀ a, s.Cached a → s'.Cached a) (hprojected : s'.projected = s.projected)
    (hevents : ∀ e ∈ s'.events, e ∈ s.events ∨ e ∈ f.inserted)
    (hcache : ∀ a b, s'.cache a = some b → 0 ≤ b) (hmutex : MutexOk s') : LedgerInv s' := by
  have hf : f ∈ s.flights := mem_of_getElem? hget
  have hmem : ∀ g ∈ s'.flights, g ∈ s.flights ∨ g = f' := fun g hg =>
    mem_or_eq_of_mem_set (hflights ▸ hg)
  refine ⟨fun g hg => ?_, fun g hg => ?_, fun g hg => ?_, fun e he => ?_, fun a => ?_, hcache, hmutex⟩
  · rcases hmem g hg with hg | rfl
    · exact (h.flights g hg).imp_right fun hok => hok.mono hcached
    · exact hok
  · rcases hmem g hg with hg | rfl
    · exact h.nonneg g hg
    · exact htx ▸ h.nonneg f hf
  · rcases hmem g hg with hg | rfl
    · exact h.snapshot g hg
    · exact hsnapshot ▸ h.snapshot f hf
  · rcases hevents e he with he | he
    · exact h.events e he
    · rcases h.flights f hf with hr | hok
      · rw [hr.inserted] at he
        cases he
      · have hmem : e.draft ∈ f.tx.drafts := by
          rw [← hok.drafts]
          exact mem_append_left _ (List.mem_map_of_mem he)
        exact (h.nonneg f hf).amount_nonneg hmem
  · exact hprojected ▸ h.projected a

lemma LedgerInv.reject (hc : f.critical = false) : LedgerInv (s.setFlight i f.rollback) :=
  h.update hget rfl rfl rfl (.inl f.rolledBack_rollback) (fun _ ha => ha) rfl (fun _ he => .inl he)
    h.cache (h.mutex.frame hget rfl rfl hc.symm rfl fun _ _ _ _ hb => hb)

end

/-! ## instructions -/

/-- the amount that an instruction compares with the cached balance. -/
def Instr.checks : Instr → Option (Text × Int)
  | .precheck a x | .charge a x | .lockCheck a x => some (a, x)
  | _ => none

def Instr.isClosure : Instr → Bool
  | .apply _ | .charge _ _ => true
  | _ => false

lemma Instr.posts_of_loads (h : a ∈ instr.loads) : instr.posts = [] := by
  cases instr with
  | load b => rfl
  | _ => cases h

/-- an instruction of transaction `i` has gone through. -/
structure Performed (s s' : LedgerState) (i : Nat) (f : Thread) (fresh : Bool) (instr : Instr)
    (rest : List Instr) : Prop where
  flights : s'.flights = s.flights.set i (f.next instr rest s.nextID)
  projected : s'.projected = s.projected
  events : s'.events = s.events ++ if instr.isCommit then f.inserted else []
  nextID : s'.nextID = s.nextID + instr.inserts.length
  cache : ∀ b, s'.cache b =
    if b ∈ instr.loads then some ((s.cache b).getD (if fresh then s.projected b else f.snapshot b))
    else (s.cache b).map (· + total instr.posts b)
  mutex : s'.mutex = if instr.isLockCheck then some i else if instr.isSubtract then none else s.mutex
  free : instr.isClosure = true ∨ instr.isLockCheck = true → s.mutexFree i = true
  covered : ∀ a x, instr.checks = some (a, x) → ¬ (s.cache a).getD 0 < x

section
variable {fresh : Bool} (p : Performed s s' i f fresh instr rest)
include p

lemma Performed.cached_iff (b : Text) : s'.Cached b ↔ s.Cached b ∨ b ∈ instr.loads := by
  rw [LedgerState.Cached, p.cache]
  split
  · next hb => simp [hb]
  · next hb => simp [hb, LedgerState.Cached]

lemma Performed.cache_cases {y : Int} (hy : s'.cache a = some y) :
    (∃ x, s.cache a = some x ∧ y = x + total instr.posts a) ∨
      ¬ s.Cached a ∧ (y = s.projected a ∨ y = f.snapshot a) := by
  rw [p.cache] at hy
  split at hy
  · next ha =>
    rw [posts_of_loads ha, total_nil]
    cases hx : s.cache a with
    | some x => exact .inl ⟨x, rfl, by simpa [hx] using hy.symm⟩
    | none =>
      refine .inr ⟨by simp [LedgerState.Cached, hx], ?_⟩
      cases fresh with
      | true => exact .inl (by simpa [hx] using hy.symm)
      | false => exact .inr (by simpa [hx] using hy.symm)
  · obtain ⟨x, hx, rfl⟩ := map_eq_some_iff.1 hy
    exact .inl ⟨x, hx, rfl⟩

lemma Performed.keeps (hposts : instr.posts = []) (hb : s.cache a = some b) :
    s'.cache a = some b := by
  rw [p.cache, hb, hposts]
  split
  · rfl
  · simp

end

/-- **an instruction** waits for the mutex, fails its check, or goes through. -/
theorem perform_cases (s : LedgerState) (i : Nat) (f : Thread) (fresh : Bool) (instr : Instr)
    (rest : List Instr) : s.perform i f fresh instr rest = s ∨
      (∃ a x, instr.checks = some (a, x) ∧ s.perform i f fresh instr rest = s.setFlight i f.rollback) ∨
      Performed s (s.perform i f fresh instr rest) i f fresh instr rest := by
  have uncovered : ∀ a x, none = some (a, x) → ¬ (s.cache a).getD 0 < x :=
    fun _ _ h => absurd h.symm (some_ne_none _)
  have free : false = true ∨ false = true → s.mutexFree i = true := fun h => absurd h (by decide)
  cases instr with
  | load a =>
    rw [perform]
    split
    · refine .inr (.inr ⟨?_, rfl, (append_nil _).symm, rfl, fun b => ?_, rfl, free, uncovered⟩)
      · rw [next_of_skip rfl rfl rfl]
        rfl
      · by_cases hb : b = a
        · simp [hb, loads]
        · simp [hb, loads, posts]
    · exact .inl rfl
  | precheck a x =>
    rw [perform]
    split
    · exact .inr (.inl ⟨a, x, rfl, rfl⟩)
    · next hx =>
      refine .inr (.inr ⟨?_, rfl, (append_nil _).symm, rfl, fun b => ?_, rfl, free, ?_⟩)
      · rw [next_of_skip rfl rfl rfl]
        rfl
      · simp [loads, posts, setFlight]
      · rintro b y ⟨⟩
        exact hx
  | insert ds =>
    refine .inr (.inr ⟨?_, rfl, (append_nil _).symm, rfl, fun b => ?_, rfl, free, uncovered⟩)
    · simp [perform, setFlight, Thread.next, inserts, posts, isCommit]
    · simp [perform, loads, posts, setFlight]
  | apply ds =>
    rw [perform]
    split
    · next hfree =>
      refine .inr (.inr ⟨?_, rfl, (append_nil _).symm, rfl, fun b => ?_, rfl, fun _ => hfree, uncovered⟩)
      · rw [next_of_post rfl rfl]
        rfl
      · exact (if_neg not_mem_nil).symm
    · exact .inl rfl
  | charge a x | lockCheck a x =>
    rw [perform]
    split
    · next hfree =>
      split
      · exact .inr (.inl ⟨a, x, rfl, rfl⟩)
      · next hx =>
        refine .inr (.inr ⟨?_, rfl, (append_nil _).symm, rfl, fun b => ?_, rfl, fun _ => hfree, ?_⟩)
        · rw [next_of_post rfl rfl]
          simp [setFlight, LedgerState.addToCache, posts]
        · simp [setFlight, LedgerState.addToCache, loads, posts]
        · rintro b y ⟨⟩
          exact hx
    · exact .inl rfl
  | commit =>
    refine .inr (.inr ⟨?_, rfl, rfl, rfl, fun b => ?_, rfl, free, uncovered⟩)
    · simp [perform, setFlight, Thread.next, inserts, posts, isCommit, newEvents]
    · simp [perform, loads, posts, setFlight]
  | subtract a x =>
    refine .inr (.inr ⟨?_, rfl, (append_nil _).symm, rfl, fun b => ?_, rfl, free, uncovered⟩)
    · rw [next_of_post rfl rfl]
      rfl
    · exact (if_neg not_mem_nil).symm

lemma covered_nonneg (h : LedgerInv s) (hx : ¬ (s.cache a).getD 0 < x) :
    ∀ c b, s.cache c = some b → 0 ≤ b + total [⟨a, -x⟩] c := by
  intro c b hb
  have hpos := h.cache c b hb
  rw [total_cons, total_nil, add_zero]
  split
  · next he =>
    have he : a = c := he
    rw [he, hb, getD_some] at hx
    show 0 ≤ b + -x
    omega
  · omega

lemma ThreadOk.apply_nonneg (h : ThreadOk cached f) (hn : f.tx.Nonneg)
    (htodo : f.todo = .apply ds :: rest) {p : Posting Text Int} (hp : p ∈ increments ds) :
    0 ≤ p.amount := by
  have hmem : p ∈ f.tx.drafts.map (·.posting) := by
    rw [← h.posts, htodo, flatMap_cons]
    exact mem_append_right _ (mem_append_left _ hp)
  obtain ⟨d, hd, rfl⟩ := List.mem_map.1 hmem
  have hcredit := LedgerTx.credits_of_not_charged (h.before htodo) hd
  show 0 ≤ if d.type.isDebit = true then -d.amount else d.amount
  rw [hcredit]
  exact hn.amount_nonneg hd

section
variable (h : LedgerInv s) (hget : s.flights[i]? = some f) (htodo : f.todo = instr :: rest)
include h hget htodo

lemma LedgerInv.not_critical (hin : instr.isClosure = true ∨ instr.checks.isSome = true) :
    f.critical = false := by
  rw [Bool.eq_false_iff]
  intro hc
  obtain ⟨c, a, fee, -, ht⟩ := (h.threadOk hget htodo).of_critical hc
  rcases ht with ht | ht | ht <;> rw [ht] at htodo <;> cases htodo <;> rcases hin with hin | hin <;>
    cases hin

/-- a task creation subtracts a fee that the cache still covers. -/
lemma LedgerInv.subtract_covered (hi : instr = .subtract a x) :
    s.mutex = some i ∧ ¬ (s.cache a).getD 0 < x := by
  subst hi
  obtain ⟨c, htx, rfl⟩ := (h.threadOk hget htodo).before htodo
  have hheld : s.mutex = some i := h.mutex.held i f hget (by
    rw [critical, htodo]
    rfl)
  obtain ⟨g, c', a', fee, b, hg, -, hgtx, hb, hle⟩ := h.mutex.holder i hheld
  rw [hget] at hg
  cases hg
  rw [htx] at hgtx
  cases hgtx
  refine ⟨hheld, ?_⟩
  rw [hb, getD_some]
  omega

variable {fresh : Bool} (p : Performed s s' i f fresh instr rest)
include p

lemma LedgerInv.posted_nonneg (hb : s.cache a = some b) : 0 ≤ b + total instr.posts a := by
  cases instr with
  | apply ds =>
    have hpos : 0 ≤ total (increments ds) a := total_nonneg (fun p hp =>
      (h.threadOk hget htodo).apply_nonneg (h.nonneg f (mem_of_getElem? hget)) htodo hp) a
    have := h.cache a b hb
    show 0 ≤ b + total (increments ds) a
    omega
  | charge c x => exact covered_nonneg h (p.covered c x rfl) a b hb
  | subtract c x => exact covered_nonneg h (h.subtract_covered hget htodo rfl).2 a b hb
  | _ =>
    show 0 ≤ b + total [] a
    rw [total_nil, add_zero]
    exact h.cache a b hb

lemma LedgerInv.mutex_performed : MutexOk s' := by
  have hm := p.mutex
  have hcritical : instr.isSubtract = false → instr.isLockCheck = false →
      (f.next instr rest s.nextID).critical = f.critical := fun hs hl => by
    rw [critical, critical, htodo, any_cons, any_cons, hs, hl, Bool.false_or, Bool.false_or]
    rfl
  cases instr with
  | lockCheck a x =>
    have hok := h.threadOk hget htodo
    obtain ⟨c, htx, hrest⟩ := hok.before htodo
    have hloads : LoadsFirst s.Cached _ (.lockCheck a x :: rest) := htodo ▸ hok.loads
    obtain ⟨b, hb⟩ := isSome_iff_exists.1 hloads.1
    have hle := p.covered a x rfl
    rw [hb, getD_some] at hle
    have hfree := h.mutex.free hget (h.not_critical hget htodo (.inr rfl)) (p.free (.inr rfl))
    have hflights := p.flights
    replace hm : s'.mutex = some i := hm
    refine ⟨fun j hj => ⟨f.next (.lockCheck a x) rest s.nextID, c, a, x, b, by grind, ?_, htx, p.keeps rfl hb, by omega⟩,
      fun j g hg hc => ?_⟩
    · show critical { f with todo := rest } = true
      rw [hrest]
      rfl
    · have hheld := h.mutex.held j
      grind
  | subtract a x =>
    obtain ⟨c, -, rfl⟩ := (h.threadOk hget htodo).before htodo
    have hheld := (h.subtract_covered hget htodo rfl).1
    refine h.mutex.release hget p.flights ?_ rfl fun j hj hne => ?_
    · rw [if_pos hheld]
      exact hm
    · rw [hheld] at hj
      exact absurd (some.inj hj).symm hne
  | apply ds | charge a x =>
    have hfree := h.mutex.free hget (h.not_critical hget htodo (.inl rfl)) (p.free (.inl rfl))
    refine h.mutex.frame hget p.flights rfl (hcritical rfl rfl) hm fun j hj => ?_
    rw [hfree] at hj
    cases hj
  | _ =>
    exact h.mutex.frame hget p.flights rfl (hcritical rfl rfl) hm fun _ _ _ _ hb => p.keeps rfl hb

lemma LedgerInv.performed : LedgerInv s' := by
  have hok := h.threadOk hget htodo
  refine h.update hget p.flights rfl rfl (.inr (hok.next htodo (fun b => (p.cached_iff b).2) _))
    (fun b hb => (p.cached_iff b).2 (.inl hb)) p.projected (fun e he => ?_) (fun b y hy => ?_)
    (h.mutex_performed hget htodo p)
  · rw [p.events] at he
    refine (mem_append.1 he).imp_right fun he => ?_
    split at he
    · exact he
    · cases he
  · rcases p.cache_cases hy with ⟨x, hx, rfl⟩ | ⟨-, rfl | rfl⟩
    · exact h.posted_nonneg hget htodo p hx
    · exact h.projected b
    · exact h.snapshot f (mem_of_getElem? hget) b

end

/-! ## steps -/

lemma ThreadOk.before_check (h : ThreadOk cached f) (htodo : f.todo = instr :: rest)
    (hcheck : instr.checks = some (a, x)) :
    f.applied = [] ∧ f.committed = false ∧ f.tx.charged = some (a, x) := by
  have hkey : f.tx.charged = some (a, x) ∧ (instr :: rest).flatMap Instr.posts = [⟨a, -x⟩] ∧
      Instr.commit ∈ rest := by
    have hb := h.before htodo
    cases instr with
    | precheck b y | charge b y | lockCheck b y =>
      obtain ⟨id, htx, rfl⟩ := hb
      cases hcheck
      rw [htx]
      exact ⟨rfl, rfl, by simp⟩
    | _ => cases hcheck
  obtain ⟨hcharged, hposts, hcommit⟩ := hkey
  obtain ⟨d, hd, -, hpost⟩ := LedgerTx.drafts_of_charged hcharged
  refine ⟨?_, h.not_committed (htodo ▸ mem_cons_of_mem _ hcommit), hcharged⟩
  have happlied := h.posts
  rw [htodo, hposts, hd, map_singleton, hpost] at happlied
  exact append_cancel_right (happlied.trans (nil_append _).symm)

section
variable (h : LedgerInv s) (hget : s.flights[i]? = some f)
include h hget

lemma LedgerInv.perform
    (htodo : f.todo = instr :: rest) (fresh : Bool) : LedgerInv (s.perform i f fresh instr rest) := by
  rcases perform_cases s i f fresh instr rest with heq | ⟨a, x, hcheck, heq⟩ | p
  · rw [heq]
    exact h
  · rw [heq]
    refine h.reject hget (h.not_critical hget htodo (.inr ?_))
    rw [hcheck]
    rfl
  · exact h.performed hget htodo p

lemma LedgerInv.abort : LedgerInv (s.abort i f) := by
  rw [LedgerState.abort]
  split
  · exact h.update hget rfl rfl rfl (.inl f.rolledBack_rollback) (fun a ha => ha) rfl
      (fun e he => .inl he) h.cache
      (h.mutex.release hget rfl rfl rfl fun j hj hne a b hb => hb)
  · exact h

end

lemma LedgerInv.project (h : LedgerInv s) (rule : RelayAccountEvent → Bool) :
    LedgerInv (s.project rule) where
  flights := h.flights
  nonneg := h.nonneg
  snapshot := h.snapshot
  events := fun e he => by
    obtain ⟨e', he', rfl⟩ := List.mem_map.1 he
    have hamount := h.events e' he'
    split
    · exact hamount
    · split
      · exact hamount
      · exact hamount
  projected := fun a => by
    refine validateEvents_nonneg rule (fun e he => ?_) s.tracks_batch h.projected (fun e he hd => ?_) a
    · exact h.events e (mem_filter.1 (mem_batch he)).1
    · have hin : e.address ∈ balanceAddressSet s.batch :=
        List.mem_map_of_mem (mem_filter.2 ⟨he, hd⟩)
      simp only [if_pos hin]
      rfl
  cache := h.cache
  mutex := ⟨h.mutex.holder, h.mutex.held⟩

/-- transactions start with amounts that are not negative. -/
def LedgerOp.Nonneg : LedgerOp → Prop
  | .start tx => tx.Nonneg
  | _ => True

/-- **no balance is ever negative**, one step. -/
theorem LedgerInv.exec (h : LedgerInv s) {op : LedgerOp} (hop : op.Nonneg) : LedgerInv (op.exec s) := by
  cases op with
  | start tx =>
    have hmem : ∀ g ∈ s.flights ++ [⟨tx, tx.program, s.projected, [], [], false⟩],
        g ∈ s.flights ∨ g = ⟨tx, tx.program, s.projected, [], [], false⟩ := fun g hg =>
      (mem_append.1 hg).imp_right mem_singleton.1
    refine ⟨fun g hg => ?_, fun g hg => ?_, fun g hg => ?_, h.events, h.projected, h.cache,
      h.mutex.start rfl (tx.not_critical_start _) rfl rfl⟩
    · rcases hmem g hg with hg | rfl
      · exact h.flights g hg
      · exact .inr (threadOk_start _ tx _)
    · rcases hmem g hg with hg | rfl
      · exact h.nonneg g hg
      · exact hop
    · rcases hmem g hg with hg | rfl
      · exact h.snapshot g hg
      · exact h.projected
  | step i fresh =>
    rw [LedgerOp.exec]
    split
    · next f hget =>
      split
      · next instr rest htodo => exact h.perform hget htodo fresh
      · exact h
    · exact h
  | fail i =>
    rw [LedgerOp.exec]
    split
    · next f hget => exact h.abort hget
    · exact h
  | project rule => exact h.project rule

end CrynuxRelay
