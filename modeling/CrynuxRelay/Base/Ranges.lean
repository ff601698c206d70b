import Mathlib.Algebra.BigOperators.Group.List.Basic
import Mathlib.Order.Lattice
import Mathlib.Tactic.Abel

/-!
# Contiguous ranges, and the largest number of a list

* `Contiguous` -- ranges that lead from one bound to another, each one where the one before it ends;
* `Contiguous.snoc` -- one more range; `Contiguous.le` -- the bounds are in order;
* `le_foldr_max`, `foldr_max_lt` -- the bounds of the largest number.
-/

variable {α : Type} {l : List (α × α)}

/-- the ranges of the list lead from `a` to `b` without a gap, and none is empty. -/
def Contiguous [LT α] : α → List (α × α) → α → Prop
  | a, [], b => a = b
  | a, r :: l, b => r.1 = a ∧ r.1 < r.2 ∧ Contiguous r.2 l b

lemma Contiguous.snoc [LT α] {a b c : α} (h : Contiguous a l b) (hbc : b < c) :
    Contiguous a (l ++ [(b, c)]) c := by
  induction l generalizing a with
  | nil =>
    obtain rfl : a = b := h
    exact ⟨rfl, hbc, rfl⟩
  | cons r l ih => exact ⟨h.1, h.2.1, ih h.2.2⟩

lemma Contiguous.le [Preorder α] {a b : α} (h : Contiguous a l b) : a ≤ b := by
  induction l generalizing a with
  | nil => exact le_of_eq h
  | cons r l ih => exact h.1 ▸ le_of_lt (lt_of_lt_of_le h.2.1 (ih h.2.2))

/-! ## the largest number of a list -/

lemma le_foldr_max {l : List Nat} {n : Nat} (h : n ∈ l) : n ≤ l.foldr max 0 := by
  induction l with
  | nil => exact absurd h List.not_mem_nil
  | cons k l ih =>
    rcases List.mem_cons.1 h with rfl | h
    · exact le_max_left _ _
    · exact le_trans (ih h) (le_max_right _ _)

lemma foldr_max_lt {l : List Nat} {n : Nat} (hn : 0 < n) (h : ∀ k ∈ l, k < n) : l.foldr max 0 < n := by
  induction l with
  | nil => exact hn
  | cons k l ih =>
    exact max_lt (h k List.mem_cons_self) (ih fun j hj => h j (List.mem_cons_of_mem k hj))
