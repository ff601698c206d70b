import CrynuxRelay.Accounts.LedgerExact

/-!
# Safety of the concurrent ledger

* `ledger_safe` -- **no cached balance is negative, a rejected charge leaves nothing behind, and when
  nothing is in flight the cache is the projected balance and the pending events**, the last one in runs
  that start charges alone on their account;
* `uncommitted_credit_spent` -- a charge spends a credit that is not committed yet, and its event is
  found invalid.
-/

namespace CrynuxRelay

open List Option

/-! ## rejected charges -/

namespace LedgerState

/-- the next instruction of transaction `i` is a check that runs and fails. -/
def Rejects (s : LedgerState) (i : Nat) (f : Thread) : Prop :=
  ∃ instr rest a x, f.todo = instr :: rest ∧ instr.checks = some (a, x) ∧
    (instr = .precheck a x ∨ s.mutexFree i = true) ∧ (s.cache a).getD 0 < x

def Quiescent (s : LedgerState) : Prop := ∀ f ∈ s.flights, f.todo = []

def cachedBalance (s : LedgerState) (a : Text) : Int := (s.cache a).getD (s.projected a)

end LedgerState

/-- a rejected charge is rolled back, and it has neither changed the cache nor committed an event. -/
def LedgerOp.RejectsCleanly (s : LedgerState) (op : LedgerOp) : Prop :=
  ∀ i fresh f, op = .step i fresh → s.flights[i]? = some f → s.Rejects i f →
    op.exec s = s.setFlight i f.rollback ∧ f.applied = [] ∧ f.committed = false

variable {s : LedgerState}

lemma LedgerInv.rejectsCleanly (h : LedgerInv s) (op : LedgerOp) : op.RejectsCleanly s := by
  rintro i fresh f rfl hget ⟨instr, rest, a, x, htodo, hchecks, hfree, hlt⟩
  have hok := h.threadOk hget htodo
  have hexec : (LedgerOp.step i fresh).exec s = s.perform i f fresh instr rest := by
    simp only [LedgerOp.exec, hget, htodo]
  rw [hexec]
  obtain ⟨happlied, hc, -⟩ := hok.before_check htodo hchecks
  refine ⟨?_, happlied, hc⟩
  cases instr with
  | precheck b y =>
    cases hchecks
    rw [LedgerState.perform, if_pos hlt]
  | charge b y | lockCheck b y =>
    cases hchecks
    rw [LedgerState.perform, if_pos (hfree.resolve_left (by simp)), if_pos hlt]
  | _ => cases hchecks

/-! ## runs -/

/-- nothing is in flight, and the balances agree. -/
structure LedgerStart (s : LedgerState) : Prop where
  flights : s.flights = []
  mutex : s.mutex = none
  amounts : ∀ e ∈ s.events, 0 ≤ e.amount
  balance : ∀ a b, s.cache a = some b → b = s.projected a + s.pendingTotal a
  unused : ∀ a, ¬ s.Cached a → ∀ e ∈ s.pending, e.address ≠ a
  covered : ∀ k a, 0 ≤ s.projected a +
    total ((s.pending.filter fun e => decide (e.id < k)).map (·.posting)) a
  nodup : (s.events.map (·.id)).Nodup
  lt : ∀ e ∈ s.events, e.id < s.nextID

lemma LedgerStart.ledgerInv (h : LedgerStart s) : LedgerInv s where
  flights := fun f hf => by rw [h.flights] at hf; cases hf
  nonneg := fun f hf => by rw [h.flights] at hf; cases hf
  snapshot := fun f hf => by rw [h.flights] at hf; cases hf
  events := h.amounts
  projected := fun a => by
    have hcov := h.covered 0 a
    have hnil : (s.pending.filter fun e => decide (e.id < 0)) = [] :=
      filter_eq_nil_iff.2 fun e _ => by simp
    rwa [hnil, map_nil, total_nil, add_zero] at hcov
  cache := fun a b hb => by
    have hcov := h.covered s.nextID a
    have hall : (s.pending.filter fun e => decide (e.id < s.nextID)) = s.pending :=
      filter_eq_self.2 fun e he => decide_eq_true (h.lt e (mem_filter.1 he).1)
    rw [hall] at hcov
    rwa [h.balance a b hb]
  mutex := by
    refine ⟨fun i hi => ?_, fun i f hf => ?_⟩
    · rw [h.mutex] at hi
      cases hi
    · rw [h.flights] at hf
      cases hf

lemma LedgerStart.ledgerExact (h : LedgerStart s) : LedgerExact s where
  apart := fun i j f g _ hf => by rw [h.flights] at hf; cases hf
  balance := fun a b hb => by
    rw [LedgerState.aheadTotal, h.flights, map_nil, sum_nil, add_zero]
    exact h.balance a b hb
  unused := h.unused
  snapshot := fun a _ f hf => by rw [h.flights] at hf; cases hf
  covered := h.covered
  checked := fun f hf => by rw [h.flights] at hf; cases hf
  newest := fun f hf => by rw [h.flights] at hf; cases hf
  ids := by
    have hrows : s.rows = s.events := by
      rw [LedgerState.rows, h.flights, flatMap_nil, append_nil]
    exact ⟨hrows ▸ h.nodup, hrows ▸ h.lt⟩

lemma LedgerExact.cachedBalance_eq (hi : LedgerInv s) (h : LedgerExact s) (hq : s.Quiescent)
    (a : Text) : s.cachedBalance a = s.projected a + s.pendingTotal a := by
  cases hb : s.cache a with
  | some b =>
    have hzero : s.aheadTotal a = 0 := aheadTotal_eq_zero fun g hg =>
      (hi.flights g hg).elim (fun hr => hr.ahead_eq a) fun hok => hok.ahead_of_finished (hq g hg) a
    rw [LedgerState.cachedBalance, hb, getD_some, h.balance a b hb, hzero, add_zero]
  | none =>
    have ha : ¬ s.Cached a := by
      rw [LedgerState.Cached, hb]
      exact Bool.false_ne_true
    have hzero : s.pendingTotal a = 0 := by
      refine total_of_not_mem fun p hp he => ?_
      obtain ⟨e, hmem, rfl⟩ := List.mem_map.1 hp
      exact h.unused a ha e hmem he
    rw [LedgerState.cachedBalance, hb, getD_none, hzero, add_zero]

/-- **safety of the ledger.**  In every run cached balances are not negative and rejected charges leave
nothing behind; in an orderly run the balances agree whenever nothing is in flight. -/
theorem ledger_safe (s : LedgerState) (hs : LedgerStart s) (ops : List LedgerOp)
    (hops : ∀ op ∈ ops, op.Nonneg) : (∀ a b, (run LedgerOp.exec ops s).cache a = some b → 0 ≤ b) ∧
      Along LedgerOp.exec LedgerOp.RejectsCleanly ops s ∧
      (Along LedgerOp.exec LedgerOp.Orderly ops s → (run LedgerOp.exec ops s).Quiescent →
        ∀ a, (run LedgerOp.exec ops s).cachedBalance a =
          (run LedgerOp.exec ops s).projected a + (run LedgerOp.exec ops s).pendingTotal a) := by
  have hnonneg : Along LedgerOp.exec (fun _ op => op.Nonneg) ops s := Along.of_forall_mem hops s
  have hstep : ∀ (s : LedgerState) (op : LedgerOp), LedgerInv s → op.Nonneg → LedgerInv (op.exec s) :=
    fun s op h hop => h.exec hop
  have hinv := run_invariant hstep ops s hnonneg hs.ledgerInv
  refine ⟨hinv.cache, ?_, fun horderly hq => ?_⟩
  · exact Along.of_invariant hstep (fun s op h _ => h.rejectsCleanly op) ops s hnonneg hs.ledgerInv
  · have hstep' : ∀ (s : LedgerState) (op : LedgerOp), LedgerInv s ∧ LedgerExact s →
        op.Nonneg ∧ op.Orderly s → LedgerInv (op.exec s) ∧ LedgerExact (op.exec s) :=
      fun s op h hop => ⟨h.1.exec hop.1, h.2.exec h.1 hop.2⟩
    have hboth := run_invariant hstep' ops s (hnonneg.and horderly) ⟨hs.ledgerInv, hs.ledgerExact⟩
    exact hboth.2.cachedBalance_eq hboth.1 hq

/-! ## two runs -/

lemma ledgerStart_empty : LedgerStart {} where
  flights := rfl
  mutex := rfl
  amounts := fun e he => absurd he not_mem_nil
  balance := fun a b hb => by cases hb
  unused := fun a _ e he => absurd he not_mem_nil
  covered := fun k a => le_rfl
  nodup := nodup_nil
  lt := fun e he => absurd he not_mem_nil

/-- tasks of `a` and `b` are refunded at the same time; `b` pays for another task before the refund of `a` is
committed, and batches run in between. -/
def overlappingRun : List LedgerOp :=
  [.start (.taskRefund ['c'] ['a'] 10), .start (.taskRefund ['e'] ['b'] 6), .step 0 true, .step 1 true, .step 0 true,
    .step 1 true, .step 1 true, .step 0 true, .step 1 true, .start (.createTask ['d'] ['b'] 4), .step 2 true,
    .project fun _ => true, .step 2 true, .step 2 true, .step 0 true, .step 2 true, .project fun _ => true,
    .step 2 true]

/-- the payment runs between the closure of the refund and its commit, and so does the projector. -/
def spendRun : List LedgerOp :=
  [.start (.taskRefund ['c'] ['a'] 10), .step 0 true, .step 0 true, .step 0 true,
    .start (.createTask ['d'] ['a'] 10), .step 1 true, .step 1 true, .step 1 true, .step 1 true,
    .step 1 true, .project fun _ => true, .step 0 true]

lemma overlappingRun_nonneg : ∀ op ∈ overlappingRun, op.Nonneg := by
  have h10 : (0 : Int) ≤ 10 := by decide
  have h6 : (0 : Int) ≤ 6 := by decide
  have h4 : (0 : Int) ≤ 4 := by decide
  simp only [overlappingRun, forall_mem_cons]
  exact ⟨h10, h6, trivial, trivial, trivial, trivial, trivial, trivial, trivial, h4, trivial, trivial, trivial, trivial,
    trivial, trivial, trivial, trivial, fun _ hop => absurd hop not_mem_nil⟩

lemma overlappingRun_orderly : Along LedgerOp.exec LedgerOp.Orderly overlappingRun {} := by
  refine ⟨fun f hf => absurd hf not_mem_nil, fun f hf _ => ?_, trivial, trivial, trivial, trivial, trivial, trivial,
    trivial, fun f hf hne => ?_, trivial, fun e he => rfl, trivial, trivial, trivial, trivial, fun e he => rfl, trivial,
    trivial⟩
  · rw [mem_singleton.1 hf]
    exact ⟨fun a x h => (by cases h), fun a x h => (by cases h)⟩
  · have hf : f ∈ [_, _] := hf
    rcases mem_cons.1 hf with rfl | hf
    · refine ⟨fun a x h d hd => ?_, fun a x h => by cases h⟩
      cases h
      rw [mem_singleton.1 hd]
      decide
    · rw [mem_singleton.1 hf] at hne
      exact absurd rfl hne

/-- **a charge spends a credit that is not committed**: the projector finds the payment invalid, and the
cached balance of the account stays below what it has. -/
theorem uncommitted_credit_spent :
    LedgerStart {} ∧ (∀ op ∈ spendRun, op.Nonneg) ∧ (run LedgerOp.exec spendRun {}).Quiescent ∧
      (run LedgerOp.exec spendRun {}).cachedBalance ['a'] = 0 ∧
      (run LedgerOp.exec spendRun {}).projected ['a'] +
        (run LedgerOp.exec spendRun {}).pendingTotal ['a'] = 10 := by
  refine ⟨ledgerStart_empty, fun op hop => ?_, fun f hf => ?_, by decide +kernel, by decide +kernel⟩
  · simp only [spendRun, mem_cons, not_mem_nil, or_false] at hop
    rcases hop with rfl | rfl | rfl | rfl | rfl | rfl | rfl | rfl | rfl | rfl | rfl | rfl
    all_goals first | exact trivial | exact (by decide : (0 : Int) ≤ 10)
  · have hf : f ∈ [_, _] := hf
    rcases mem_cons.1 hf with rfl | hf
    · rfl
    · rw [mem_singleton.1 hf]

theorem ledger_safe_at_overlappingRun :
    Along LedgerOp.exec LedgerOp.Orderly overlappingRun {} ∧
      (∀ a b, (run LedgerOp.exec overlappingRun {}).cache a = some b → 0 ≤ b) ∧
      Along LedgerOp.exec LedgerOp.RejectsCleanly overlappingRun {} ∧
      ∀ a, (run LedgerOp.exec overlappingRun {}).cachedBalance a =
        (run LedgerOp.exec overlappingRun {}).projected a +
          (run LedgerOp.exec overlappingRun {}).pendingTotal a := by
  obtain ⟨hcache, hrejects, hagree⟩ := ledger_safe {} ledgerStart_empty overlappingRun overlappingRun_nonneg
  refine ⟨overlappingRun_orderly, hcache, hrejects, hagree overlappingRun_orderly fun f hf => ?_⟩
  have hf : f ∈ [_, _, _] := hf
  rcases mem_cons.1 hf with rfl | hf
  · rfl
  · rcases mem_cons.1 hf with rfl | hf
    · rfl
    · rw [mem_singleton.1 hf]

end CrynuxRelay
