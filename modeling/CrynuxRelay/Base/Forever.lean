import Mathlib.Order.Lattice
import CrynuxRelay.Base.Run

/-!
# Runs that never end

* `stateAt` -- the state before each operation of an infinite list;
* `stateAt_invariant` -- the invariant rule, from any state on;
* `eventually_of_descent` -- what happens, or else brings a measure down, **happens at last.**
-/

variable {σ ι : Type} (exec : ι → σ → σ)

def stateAt (steps : Nat → ι) (s : σ) : Nat → σ
  | 0 => s
  | n + 1 => exec (steps n) (stateAt steps s n)

variable {exec} {steps : Nat → ι} {s : σ}

lemma stateAt_invariant (inv : σ → Prop) (step : ∀ s i, inv s → inv (exec i s)) {n m : Nat}
    (hnm : n ≤ m) (h : inv (stateAt exec steps s n)) : inv (stateAt exec steps s m) := by
  induction m, hnm using Nat.le_induction with
  | base => exact h
  | succ m _ ih => exact step _ _ ih

/-- **the rule of descent.** -/
theorem eventually_of_descent (measure : Nat → Nat) {goal : Nat → Prop} {n0 : Nat}
    (h : ∀ n, n0 ≤ n → ∃ m, n ≤ m ∧ (goal m ∨ measure m < measure n)) : ∃ m, n0 ≤ m ∧ goal m := by
  have hall : ∀ k n, n0 ≤ n → measure n = k → ∃ m, n0 ≤ m ∧ goal m := by
    intro k
    induction k using Nat.strong_induction_on with
    | _ k ih =>
      intro n hn hk
      obtain ⟨m, hnm, hgoal | hlt⟩ := h n hn
      · exact ⟨m, le_trans hn hnm, hgoal⟩
      · exact ih (measure m) (hk ▸ hlt) m (le_trans hn hnm) rfl
  exact hall (measure n0) n0 (le_refl n0) rfl
