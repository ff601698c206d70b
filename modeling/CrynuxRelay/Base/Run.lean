import Mathlib.Tactic.Common

/-!
# Runs of a deterministic system

* `run` -- the state after a list of operations;
* `Along` -- a condition that every operation of the list meets in the state it starts from;
* `run_invariant` -- the induction over runs: an invariant that every admitted operation keeps
  holds after every admitted run; `Along.of_invariant` -- and so does what it implies at every step;
* `split_at_thread` -- the other threads of a list of threads;
* `countAlong` -- the number of operations of a run at which something happens, and when it happens
  at most once;
* `countAlong_turns` -- the operations at which something turns true for good.
-/

variable {σ ι : Type} (exec : ι → σ → σ) {l : List ι}

/-- the state after the operations of a list, first to last. -/
def run : List ι → σ → σ
  | [], s => s
  | i :: l, s => run l (exec i s)

/-- every operation of the list meets `p` in the state it starts from. -/
def Along (p : σ → ι → Prop) : List ι → σ → Prop
  | [], _ => True
  | i :: l, s => p s i ∧ Along p l (exec i s)

lemma run_nil (s : σ) : run exec [] s = s := rfl

lemma run_cons (i : ι) (l : List ι) (s : σ) : run exec (i :: l) s = run exec l (exec i s) := rfl

lemma run_append (l l' : List ι) (s : σ) : run exec (l ++ l') s = run exec l' (run exec l s) := by
  induction l generalizing s with
  | nil => rfl
  | cons i l ih => exact ih (exec i s)

variable {exec}

/-- **the invariant rule.** -/
theorem run_invariant {p : σ → ι → Prop} {inv : σ → Prop} (step : ∀ s i, inv s → p s i →
    inv (exec i s)) : ∀ (l : List ι) (s : σ), Along exec p l s → inv s → inv (run exec l s) := by
  intro l
  induction l with
  | nil => exact fun s _ h => h
  | cons i l ih => exact fun s ha h => ih (exec i s) ha.2 (step s i h ha.1)

lemma Along.mono {p q : σ → ι → Prop} (h : ∀ s i, p s i → q s i) :
    ∀ (l : List ι) (s : σ), Along exec p l s → Along exec q l s := by
  intro l
  induction l with
  | nil => exact fun s _ => trivial
  | cons i l ih => exact fun s ha => ⟨h s i ha.1, ih (exec i s) ha.2⟩

lemma Along.of_forall {p : σ → ι → Prop} (h : ∀ s i, p s i) : ∀ (l : List ι) (s : σ), Along exec p l s := by
  intro l
  induction l with
  | nil => exact fun s => trivial
  | cons i l ih => exact fun s => ⟨h s i, ih (exec i s)⟩

lemma Along.of_forall_mem {p : ι → Prop} (h : ∀ i ∈ l, p i) :
    ∀ s : σ, Along exec (fun _ i => p i) l s := by
  induction l with
  | nil => exact fun s => trivial
  | cons i l ih =>
    exact fun s => ⟨h i List.mem_cons_self, ih (fun j hj => h j (List.mem_cons_of_mem i hj)) (exec i s)⟩

lemma Along.and {p q : σ → ι → Prop} :
    ∀ {s : σ}, Along exec p l s → Along exec q l s → Along exec (fun s i => p s i ∧ q s i) l s := by
  induction l with
  | nil => exact fun _ _ => trivial
  | cons i l ih => exact fun hp hq => ⟨⟨hp.1, hq.1⟩, ih hp.2 hq.2⟩

lemma Along.of_invariant {p q : σ → ι → Prop} {inv : σ → Prop}
    (step : ∀ s i, inv s → p s i → inv (exec i s)) (h : ∀ s i, inv s → p s i → q s i) :
    ∀ (l : List ι) (s : σ), Along exec p l s → inv s → Along exec q l s := by
  intro l
  induction l with
  | nil => exact fun s _ _ => trivial
  | cons i l ih => exact fun s ha hs => ⟨h s i hs ha.1, ih (exec i s) ha.2 (step s i hs ha.1)⟩

lemma Along.of_append {p : σ → ι → Prop} {l l' : List ι} {s : σ}
    (h : Along exec p (l ++ l') s) : Along exec p l s ∧ Along exec p l' (run exec l s) := by
  induction l generalizing s with
  | nil => exact ⟨trivial, h⟩
  | cons i l ih => exact ⟨⟨h.1, (ih h.2).1⟩, (ih h.2).2⟩

/-! ## counting operations -/

variable (exec) in
def countAlong (q : σ → ι → Bool) : List ι → σ → Nat
  | [], _ => 0
  | i :: l, s => (q s i).toNat + countAlong q l (exec i s)

section count
variable {p : σ → ι → Prop} {inv latched : σ → Prop} {q : σ → ι → Bool}

section
variable (step : ∀ s i, inv s → p s i → inv (exec i s))
  (keep : ∀ s i, inv s → p s i → latched s → latched (exec i s) ∧ q s i = false)
include step keep

lemma countAlong_eq_zero :
    ∀ (l : List ι) (s : σ), Along exec p l s → inv s → latched s → countAlong exec q l s = 0 := by
  intro l
  induction l with
  | nil => exact fun s _ _ _ => rfl
  | cons i l ih =>
    intro s ha h hl
    obtain ⟨hl', hq⟩ := keep s i h ha.1 hl
    have := ih (exec i s) ha.2 (step s i h ha.1) hl'
    rw [countAlong, hq, this]
    rfl

/-- **what latches happens at most once.** -/
theorem countAlong_le_one (latch : ∀ s i, inv s → p s i → q s i = true → latched (exec i s)) :
    ∀ (l : List ι) (s : σ), Along exec p l s → inv s → countAlong exec q l s ≤ 1 := by
  intro l
  induction l with
  | nil => exact fun s _ _ => Nat.zero_le 1
  | cons i l ih =>
    intro s ha h
    have hinv := step s i h ha.1
    rw [countAlong]
    cases hq : q s i with
    | false =>
      rw [Bool.toNat_false, Nat.zero_add]
      exact ih (exec i s) ha.2 hinv
    | true =>
      rw [countAlong_eq_zero step keep l (exec i s) ha.2 hinv (latch s i h ha.1 hq)]
      exact Nat.le_refl 1

end

/-- **what stays true becomes true at most once**, and once if it is true at the end. -/
theorem countAlong_turns {b : σ → Bool} (step : ∀ s i, inv s → p s i → inv (exec i s))
    (keep : ∀ s i, inv s → p s i → b s = true → b (exec i s) = true) :
    ∀ (l : List ι) (s : σ), Along exec p l s → inv s →
      (b s).toNat + countAlong exec (fun s i => !b s && b (exec i s)) l s = (b (run exec l s)).toNat := by
  intro l
  induction l with
  | nil => exact fun s _ _ => Nat.add_zero _
  | cons i l ih =>
    intro s ha h
    have hrest := ih (exec i s) ha.2 (step s i h ha.1)
    rw [countAlong, run_cons, ← hrest, ← Nat.add_assoc]
    refine congrArg (· + _) ?_
    cases hb : b s with
    | true => rw [keep s i h ha.1 hb]; rfl
    | false => exact Nat.zero_add _

end count

/-! ## lists of threads -/

lemma mem_middle {α : Type} {l1 l2 : List α} {a b : α} :
    b ∈ l1 ++ a :: l2 ↔ b = a ∨ b ∈ l1 ++ l2 := List.perm_middle.mem_iff.trans List.mem_cons

/-- the list around the thread at a position, before and after it moves or ends. -/
lemma split_at_thread {α : Type} {l : List α} {i : Nat} {a : α} (h : l[i]? = some a) :
    ∃ l1 l2, l = l1 ++ a :: l2 ∧ (∀ b, l.set i b = l1 ++ b :: l2) ∧ l.eraseIdx i = l1 ++ l2 := by
  obtain ⟨hi, rfl⟩ := List.getElem?_eq_some_iff.1 h
  refine ⟨l.take i, l.drop (i + 1), ?_, fun b => ?_, List.eraseIdx_eq_take_drop_succ l i⟩
  · rw [← List.drop_eq_getElem_cons hi, List.take_append_drop]
  · rw [List.set_eq_take_append_cons_drop, if_pos hi]
