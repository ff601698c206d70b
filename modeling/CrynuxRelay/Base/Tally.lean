import CrynuxRelay.Base.Table

/-!
# Tallies of a table

A tally keeps a counter for each class of rows, and no counter for a class at zero.

* `Tally.inc`, `Tally.dec` -- one more, and one less where there is one;
* `Tally.Exact` -- every counter is the number of rows of its class;
* `Tally.Exact.modify` -- the rule of all updates of one row: the counters have to move by the class
  that the row leaves and the class that it enters;
* `Tally.Exact.dec_isSome` -- with exact counters, no row is refused when it leaves its class.
-/

set_option linter.unusedSectionVars false

abbrev Tally (C : Type) := C → Option Nat

namespace Tally

open Function Table

variable {C : Type} [DecidableEq C]

def value (t : Tally C) (c : C) : Nat := (t c).getD 0

def inc (t : Tally C) (c : C) : Tally C := Function.update t c (some (t.value c + 1))

/-- one less, without the counter when it comes to zero. -/
def dec (t : Tally C) (c : C) : Option (Tally C) :=
  match t c with
  | some (n + 1) => some (Function.update t c (if n = 0 then none else some n))
  | _ => none

lemma value_inc (t : Tally C) (c d : C) : (t.inc c).value d = t.value d + if d = c then 1 else 0 := by
  by_cases h : d = c
  · subst h
    simp [inc, value]
  · simp [inc, value, h]

lemma value_dec {t t' : Tally C} {c : C} (h : t.dec c = some t') (d : C) :
    t'.value d + (if d = c then 1 else 0) = t.value d := by
  unfold dec at h
  split at h
  · next n hn =>
    cases h
    by_cases hd : d = c
    · subst hd
      rw [value, value, update_self, hn, if_pos rfl]
      split
      · next h0 => simp [h0]
      · simp
    · rw [value, value, update_of_ne hd, if_neg hd, Nat.add_zero]
  · cases h

lemma dec_isSome {t : Tally C} {c : C} (h : 0 < t.value c) : ∃ t', t.dec c = some t' := by
  unfold value at h
  unfold dec
  split
  · exact ⟨_, rfl⟩
  · next hn =>
    cases ht : t c with
    | none =>
      rw [ht] at h
      exact absurd h (by simp)
    | some n =>
      cases n with
      | zero =>
        rw [ht] at h
        exact absurd h (by simp)
      | succ n => exact absurd ht (hn n)

/-! ## exact tallies -/

variable {κ α : Type} [DecidableEq κ] {key : α → κ}

/-- `cls v` is the class of row `v`, if it is counted. -/
def Exact (rows : Table key) (cls : α → Option C) (t : Tally C) : Prop :=
  ∀ c, t.value c = rows.count fun v => cls v = some c

lemma exact_empty (cls : α → Option C) :
    Exact (Table.empty : Table key) cls (fun _ => none) := fun _ => rfl

variable {rows : Table key} {cls : α → Option C} {t : Tally C}

/-- **one row changes**: the counters move by what the row leaves and what it enters. -/
theorem Exact.modify (h : Exact rows cls t) {k : κ} {v : α} (hk : rows.get k = some v)
    (f : α → α) (hf : ∀ v, key (f v) = key v) {t' : Tally C}
    (ht : ∀ c, t'.value c + (if cls v = some c then 1 else 0) =
      t.value c + if cls (f v) = some c then 1 else 0) : Exact (rows.modify k f hf) cls t' := by
  intro c
  have hcount := rows.count_modify hk f hf fun v => decide (cls v = some c)
  have hc := h c
  have htc := ht c
  have hb : ∀ u : α, (decide (cls u = some c)).toNat = if cls u = some c then 1 else 0 := by
    intro u
    by_cases hu : cls u = some c <;> simp [hu]
  rw [hb, hb] at hcount
  omega

lemma Exact.modify_same (h : Exact rows cls t) {k : κ} (f : α → α) (hf : ∀ v, key (f v) = key v)
    (hcls : ∀ v, rows.get k = some v → cls (f v) = cls v) : Exact (rows.modify k f hf) cls t := by
  cases hk : rows.get k with
  | none =>
    have hrows : rows.modify k f hf = rows := Table.ext' rfl fun j => by
      rw [get_modify]
      split
      · next e => rw [e, hk]; rfl
      · rfl
    rwa [hrows]
  | some v =>
    apply h.modify hk
    intro c
    rw [hcls v hk]

lemma Exact.insert (h : Exact rows cls t) {v : α} (hk : rows.get (key v) = none) {c : C}
    (hc : cls v = some c) : Exact (rows.insert v) cls (t.inc c) := by
  intro d
  rw [value_inc, rows.count_insert v hk, h d, hc]
  by_cases hd : d = c
  · subst hd
    simp
  · have : c ≠ d := fun e => hd e.symm
    simp [hd, this]

lemma Exact.dec_isSome (h : Exact rows cls t) {k : κ} {v : α} (hk : rows.get k = some v) {c : C}
    (hc : cls v = some c) : ∃ t', t.dec c = some t' := by
  apply Tally.dec_isSome
  rw [h c]
  exact count_pos hk (decide_eq_true hc)

end Tally
