import Mathlib.Algebra.Order.Group.Defs
import Mathlib.Algebra.BigOperators.Group.List.Basic
import Mathlib.Algebra.Order.BigOperators.Group.List
import Mathlib.Tactic.Abel

/-!
# A ledger with a queue of postings

Balances are kept twice: a settled balance, which takes the postings of a queue in order, and a
cached balance, which takes every posting at once.

* `Ledger.Coherent` -- the cached balance is the settled one and what the queue still holds, and
  no prefix of the queue drives a settled balance below zero;
* `Ledger.post` / `Ledger.settle` -- the two operations, and what each must check to keep it;
* `Ledger.owe` -- a ledger whose cache has yet to take some postings of the queue.
-/

set_option linter.unusedSectionVars false

structure Posting (A G : Type) where
  account : A
  amount : G

section

variable {A G : Type} [DecidableEq A] [AddCommGroup G]

/-! ## totals -/

def total (l : List (Posting A G)) (a : A) : G :=
  (l.map fun p => if p.account = a then p.amount else 0).sum

@[simp] lemma total_nil (a : A) : total ([] : List (Posting A G)) a = 0 := rfl

lemma total_cons (p : Posting A G) (l : List (Posting A G)) (a : A) :
    total (p :: l) a = (if p.account = a then p.amount else 0) + total l a := by
  simp [total]

lemma total_append (l l' : List (Posting A G)) (a : A) :
    total (l ++ l') a = total l a + total l' a := by
  simp [total]

lemma total_perm {l l' : List (Posting A G)} (h : l.Perm l') (a : A) : total l a = total l' a :=
  (h.map _).sum_eq

lemma total_of_not_mem {l : List (Posting A G)} {a : A} (h : ∀ p ∈ l, p.account ≠ a) :
    total l a = 0 := by
  induction l with
  | nil => rfl
  | cons p l ih =>
    rw [total_cons, if_neg (h p List.mem_cons_self), zero_add]
    exact ih fun q hq => h q (List.mem_cons_of_mem p hq)

variable [LinearOrder G] [IsOrderedAddMonoid G]

lemma total_nonneg {l : List (Posting A G)} (h : ∀ p ∈ l, 0 ≤ p.amount) (a : A) : 0 ≤ total l a := by
  induction l with
  | nil => exact le_rfl
  | cons p l ih =>
    rw [total_cons]
    have hl := ih fun q hq => h q (List.mem_cons_of_mem p hq)
    have hp := h p List.mem_cons_self
    split
    · exact add_nonneg hp hl
    · rwa [zero_add]

/-! ## the ledger -/

variable (A G) in
/-- settled balances, the postings they have not taken yet, and the cached balances. -/
structure Ledger where
  settled : A → G
  queue : List (Posting A G)
  cached : A → G

namespace Ledger

/-- the three views agree, and every prefix of the queue can be settled. -/
structure Coherent (L : Ledger A G) : Prop where
  balance : ∀ a, L.cached a = L.settled a + total L.queue a
  covered : ∀ n a, 0 ≤ L.settled a + total (L.queue.take n) a

def post (L : Ledger A G) (l : List (Posting A G)) : Ledger A G where
  settled := L.settled
  queue := L.queue ++ l
  cached := fun a => L.cached a + total l a

/-- apply the first `n` postings of the queue to the settled balances. -/
def settle (L : Ledger A G) (n : Nat) : Ledger A G where
  settled := fun a => L.settled a + total (L.queue.take n) a
  queue := L.queue.drop n
  cached := L.cached

/-- no prefix of `l` overdraws a cached balance. -/
def Affordable (L : Ledger A G) (l : List (Posting A G)) : Prop :=
  ∀ n a, 0 ≤ L.cached a + total (l.take n) a

/-- the postings of `l`, which the queue has taken and the cache has not, counted as cached. -/
def owe (L : Ledger A G) (l : List (Posting A G)) : Ledger A G where
  settled := L.settled
  queue := L.queue
  cached := fun a => L.cached a + total l a

lemma owe_nil (L : Ledger A G) : L.owe [] = L := by
  have h : (fun a => L.cached a + total [] a) = L.cached := by
    funext a
    rw [total_nil, add_zero]
  rw [owe, h]

lemma owe_post (L : Ledger A G) (l l' : List (Posting A G)) :
    (L.post l').owe l = (L.owe l).post l' := by
  have h : (fun a => L.cached a + total l' a + total l a) =
      fun a => L.cached a + total l a + total l' a := by
    funext a
    rw [add_right_comm]
  rw [owe, post, post, owe, h]

section
variable {L : Ledger A G} (h : L.Coherent)
include h

lemma Coherent.settled_nonneg (a : A) : 0 ≤ L.settled a := by
  have := h.covered 0 a
  rwa [List.take_zero, total_nil, add_zero] at this

lemma Coherent.cached_nonneg (a : A) : 0 ≤ L.cached a := by
  have := h.covered L.queue.length a
  rwa [List.take_length, ← h.balance] at this

lemma affordable_of_nonneg {l : List (Posting A G)}
    (hl : ∀ p ∈ l, 0 ≤ p.amount) : L.Affordable l := fun _ a =>
  add_nonneg (h.cached_nonneg a) (total_nonneg (fun p hp => hl p (List.mem_of_mem_take hp)) a)

lemma affordable_single (a : A) (x : G) (hx : 0 ≤ L.cached a + x) : L.Affordable [⟨a, x⟩] := by
  intro n b
  cases n with
  | zero => simpa using h.cached_nonneg b
  | succ n =>
    rw [List.take_succ_cons, List.take_nil, total_cons, total_nil, add_zero]
    split
    · next e => exact e ▸ hx
    · rw [add_zero]; exact h.cached_nonneg b

lemma coherent_post {l : List (Posting A G)} (hl : L.Affordable l) : (L.post l).Coherent where
  balance := fun a => by
    show L.cached a + total l a = L.settled a + total (L.queue ++ l) a
    rw [h.balance, total_append, add_assoc]
  covered := fun n a => by
    show 0 ≤ L.settled a + total ((L.queue ++ l).take n) a
    rw [List.take_append, total_append]
    by_cases hn : n ≤ L.queue.length
    · rw [Nat.sub_eq_zero_of_le hn, List.take_zero, total_nil, add_zero]
      exact h.covered n a
    · rw [List.take_of_length_le (by omega), ← add_assoc, ← h.balance]
      exact hl _ a

lemma coherent_settle (n : Nat) : (L.settle n).Coherent where
  balance := fun a => by
    show L.cached a = L.settled a + total (L.queue.take n) a + total (L.queue.drop n) a
    rw [add_assoc, ← total_append, List.take_append_drop, h.balance]
  covered := fun m a => by
    show 0 ≤ L.settled a + total (L.queue.take n) a + total ((L.queue.drop n).take m) a
    rw [add_assoc, ← total_append, ← List.take_add]
    exact h.covered (n + m) a

end

end Ledger

end
