import Mathlib.Order.Defs.Unbundled
import Mathlib.Tactic.Common

/-!
# Computations over a persisted and a volatile state

A service keeps a database and some process memory.  A database transaction that fails gives the
database back as it was, and leaves the memory as the failed body left it.

* `Tx` -- a computation that may fail and may write to both parts;
* `Tx.transaction` -- the rollback of the database, and of the database only;
* `Tx.Ok` / `Tx.Fails` -- the two outcomes, with one inversion rule for each combinator;
* `Tx.each_invariant` -- the rule for loops;
* `Tx.Keeps` -- a relation between the states before and after, whatever the outcome;
* `Tx.Stable` -- the preorders that a rollback respects: one rule for each combinator; `Tx.Both` -- such
  a preorder made of one on the databases and one on the memories;
* `Tx.OnFail` -- a relation between the states before and after a failure;
* `Tx.Total` -- success with a result and a state that meet a condition: one rule for each combinator;
* `Tx.OkAs` -- a computation that does the same as another one, or fails.
-/

set_option linter.unusedSectionVars false

/-- the database and the memory of a running service. -/
@[ext] structure Sys (D M : Type) where
  db : D
  mem : M

/-- a computation over both parts that may fail with `E`. -/
def Tx (D M E α : Type) : Type := Sys D M → Except E α × Sys D M

namespace Tx

variable {D M E α β : Type}

/-! ## combinators -/

def ret (a : α) : Tx D M E α := fun s => (.ok a, s)

def andThen (x : Tx D M E α) (f : α → Tx D M E β) : Tx D M E β := fun s =>
  match x s with
  | (.ok a, s') => f a s'
  | (.error e, s') => (.error e, s')

instance : Monad (Tx D M E) where
  pure := ret
  bind := andThen

def fail (e : E) : Tx D M E α := fun s => (.error e, s)

def getDb : Tx D M E D := fun s => (.ok s.db, s)

def getMem : Tx D M E M := fun s => (.ok s.mem, s)

def modifyDb (f : D → D) : Tx D M E Unit := fun s => (.ok (), { s with db := f s.db })

def modifyMem (f : M → M) : Tx D M E Unit := fun s => (.ok (), { s with mem := f s.mem })

def require (p : Prop) [Decidable p] (e : E) : Tx D M E Unit := if p then ret () else fail e

def when (c : Bool) (x : Tx D M E Unit) : Tx D M E Unit := if c then x else ret ()

def orFail (o : Option α) (e : E) : Tx D M E α :=
  match o with
  | some a => ret a
  | none => fail e

/-- run `x` as one transaction: on an error the database is what it was, the memory is not. -/
def transaction (x : Tx D M E α) : Tx D M E α := fun s =>
  match x s with
  | (.ok a, s') => (.ok a, s')
  | (.error e, s') => (.error e, { s' with db := s.db })

def mapErr (g : E → E) (x : Tx D M E α) : Tx D M E α := fun s =>
  match x s with
  | (.ok a, s') => (.ok a, s')
  | (.error e, s') => (.error (g e), s')

def attempt (x : Tx D M E α) : Tx D M E (Except E α) := fun s => (.ok (x s).1, (x s).2)

/-- run `f` on each element, stopping at the first error. -/
def each (f : α → Tx D M E Unit) : List α → Tx D M E Unit
  | [] => ret ()
  | a :: l => andThen (f a) fun _ => each f l

/-! ## outcomes -/

/-- `x` started in `s` returns `a` and ends in `s'`. -/
def Ok (x : Tx D M E α) (s : Sys D M) (a : α) (s' : Sys D M) : Prop := x s = (.ok a, s')

/-- `x` started in `s` fails with `e` and ends in `s'`. -/
def Fails (x : Tx D M E α) (s : Sys D M) (e : E) (s' : Sys D M) : Prop := x s = (.error e, s')

def after (x : Tx D M E α) (s : Sys D M) : Sys D M := (x s).2

section outcomes

variable {s s' s'' : Sys D M} {a b : α} {e e' : E} {x : Tx D M E α} {f : α → Tx D M E β} {u : Unit}
  {c : Bool} {o : Option α} {p : Prop} [Decidable p]

lemma ok_or_fails (x : Tx D M E α) (s : Sys D M) :
    (∃ a, Ok x s a (after x s)) ∨ ∃ e, Fails x s e (after x s) := by
  rcases h : x s with ⟨r, s'⟩
  cases r with
  | ok a => exact .inl ⟨a, by simp only [Ok, after, h]⟩
  | error e => exact .inr ⟨e, by simp only [Fails, after, h]⟩

lemma ok_of_toOption (h : (x s).1.toOption = some a) : Ok x s a (after x s) := by
  cases hr : (x s).1 with
  | ok b =>
    rw [hr] at h
    cases h
    exact Prod.ext hr rfl
  | error e => rw [hr] at h; cases h

lemma fails_of_toOption (h : (x s).1.toOption = none) : ∃ e, Fails x s e (after x s) := by
  cases hr : (x s).1 with
  | ok b => rw [hr] at h; cases h
  | error e => exact ⟨e, Prod.ext hr rfl⟩

lemma Ok.after_eq (h : Ok x s a s') : after x s = s' := by
  rw [after, h]

lemma Ok.after_bind (h : Ok x s a s') : after (x >>= f) s = after (f a) s' := by
  show (andThen x f s).2 = _
  rw [andThen, h]
  rfl

lemma Fails.after_eq (h : Fails x s e s') : after x s = s' := by
  rw [after, h]

lemma Ok.not_fails (h : Ok x s a s') : ¬ Fails x s e s'' := by
  intro h'
  rw [Fails, h] at h'
  cases h'

lemma ok_pair {s0 : Sys D M} : ((.ok b, s0) : Except E α × Sys D M) = (.ok a, s') ↔ a = b ∧ s' = s0 := by
  simp [eq_comm]

lemma fails_pair {s0 : Sys D M} :
    ((.error e', s0) : Except E α × Sys D M) = (.error e, s') ↔ e = e' ∧ s' = s0 := by
  simp [eq_comm]

@[simp] lemma ok_pure : Ok (pure a : Tx D M E α) s b s' ↔ b = a ∧ s' = s := ok_pair

@[simp] lemma fails_pure : ¬ Fails (pure a : Tx D M E α) s e s' := by
  exact nofun

@[simp] lemma ok_bind {b : β} :
    Ok (x >>= f) s b s'' ↔ ∃ a s', Ok x s a s' ∧ Ok (f a) s' b s'' := by
  show andThen x f s = _ ↔ _
  simp only [andThen, Ok]
  rcases h : x s with ⟨r, s1⟩
  cases r with
  | ok a => simp
  | error e => simp

lemma bind_congr_ok {f g : α → Tx D M E β}
    (h : ∀ a s', Ok x s a s' → f a s' = g a s') : (x >>= f) s = (x >>= g) s := by
  show andThen x f s = andThen x g s
  rcases hx : x s with ⟨r, s1⟩
  cases r with
  | ok a => simp only [andThen, hx, h a s1 hx]
  | error e => simp only [andThen, hx]

@[simp] lemma fails_bind : Fails (x >>= f) s e s'' ↔
      Fails x s e s'' ∨ ∃ a s', Ok x s a s' ∧ Fails (f a) s' e s'' := by
  show andThen x f s = _ ↔ _
  simp only [andThen, Ok, Fails]
  rcases h : x s with ⟨r, s1⟩
  cases r with
  | ok a => simp
  | error e => simp

@[simp] lemma ok_fail : ¬ Ok (fail e' : Tx D M E α) s a s' := by
  exact nofun

@[simp] lemma fails_fail : Fails (fail e' : Tx D M E α) s e s' ↔ e = e' ∧ s' = s := fails_pair

@[simp] lemma ok_getDb {d : D} : Ok (getDb : Tx D M E D) s d s' ↔ d = s.db ∧ s' = s := ok_pair

@[simp] lemma fails_getDb : ¬ Fails (getDb : Tx D M E D) s e s' := by
  exact nofun

@[simp] lemma ok_getMem {m : M} : Ok (getMem : Tx D M E M) s m s' ↔ m = s.mem ∧ s' = s := ok_pair

@[simp] lemma ok_modifyDb {f : D → D} :
    Ok (modifyDb f : Tx D M E Unit) s u s' ↔ s' = { s with db := f s.db } :=
  ok_pair.trans (and_iff_right rfl)

@[simp] lemma fails_modifyDb {f : D → D} : ¬ Fails (modifyDb f : Tx D M E Unit) s e s' := by
  exact nofun

@[simp] lemma ok_modifyMem {f : M → M} :
    Ok (modifyMem f : Tx D M E Unit) s u s' ↔ s' = { s with mem := f s.mem } :=
  ok_pair.trans (and_iff_right rfl)

@[simp] lemma fails_modifyMem {f : M → M} : ¬ Fails (modifyMem f : Tx D M E Unit) s e s' := by
  exact nofun

@[simp] lemma ok_require : Ok (require p e' : Tx D M E Unit) s u s' ↔ p ∧ s' = s := by
  unfold require
  split
  · next hp =>
    show Ok (pure ()) s u s' ↔ _
    simp [hp]
  · next hp => simp [hp]

@[simp] lemma fails_require : Fails (require p e' : Tx D M E Unit) s e s' ↔ ¬ p ∧ e = e' ∧ s' = s := by
  unfold require
  split
  · next hp =>
    show Fails (pure ()) s e s' ↔ _
    simp [hp]
  · next hp => simp [hp]

@[simp] lemma ok_orFail : Ok (orFail o e' : Tx D M E α) s a s' ↔ o = some a ∧ s' = s := by
  cases o with
  | none => simp [orFail]
  | some b =>
    show Ok (pure b) s a s' ↔ _
    simp [eq_comm]

lemma ok_when {x : Tx D M E Unit} :
    Ok (when c x) s u s' ↔ (c = true ∧ Ok x s u s') ∨ (c = false ∧ s' = s) := by
  cases c with
  | true => simp [when]
  | false =>
    show Ok (pure ()) s u s' ↔ _
    simp

lemma fails_when {x : Tx D M E Unit} : Fails (when c x) s e s' ↔ c = true ∧ Fails x s e s' := by
  cases c with
  | true => simp [when]
  | false =>
    show Fails (pure ()) s e s' ↔ _
    simp

@[simp] lemma ok_transaction : Ok (transaction x) s a s' ↔ Ok x s a s' := by
  simp only [transaction, Ok]
  rcases h : x s with ⟨r, s1⟩
  cases r with
  | ok a => simp
  | error e => simp

@[simp] lemma fails_transaction :
    Fails (transaction x) s e s' ↔ ∃ s1, Fails x s e s1 ∧ s' = ⟨s.db, s1.mem⟩ := by
  simp only [transaction, Fails]
  rcases h : x s with ⟨r, s1⟩
  cases r with
  | ok a => simp
  | error e => simp [eq_comm]

/-! ## symbolic execution of a primitive first step -/

section steps

variable {b : β} {g : Unit → Tx D M E β}

lemma ok_pure_bind : Ok ((pure a : Tx D M E α) >>= f) s b s' ↔ Ok (f a) s b s' := Iff.rfl

lemma ok_fail_bind : ¬ Ok ((fail e' : Tx D M E α) >>= f) s b s' := by
  exact nofun

lemma fails_fail_bind : Fails ((fail e' : Tx D M E α) >>= f) s e s' ↔ e = e' ∧ s' = s := by
  show Fails (fail e') s e s' ↔ _
  exact fails_fail

lemma ok_getDb_bind {g : D → Tx D M E β} : Ok (getDb >>= g) s b s' ↔ Ok (g s.db) s b s' := Iff.rfl

lemma fails_getDb_bind {g : D → Tx D M E β} :
    Fails (getDb >>= g) s e s' ↔ Fails (g s.db) s e s' := Iff.rfl

lemma ok_getMem_bind {g : M → Tx D M E β} : Ok (getMem >>= g) s b s' ↔ Ok (g s.mem) s b s' :=
  Iff.rfl

lemma ok_modifyDb_bind {h : D → D} :
    Ok (modifyDb h >>= g) s b s' ↔ Ok (g ()) ⟨h s.db, s.mem⟩ b s' := Iff.rfl

lemma fails_modifyDb_bind {h : D → D} :
    Fails (modifyDb h >>= g) s e s' ↔ Fails (g ()) ⟨h s.db, s.mem⟩ e s' := Iff.rfl

lemma ok_require_bind : Ok (require p e' >>= g) s b s' ↔ p ∧ Ok (g ()) s b s' := by
  unfold require
  split
  · next hp =>
    rw [and_iff_right hp]
    exact ok_pure_bind
  · next hp =>
    rw [iff_false_right fun h => hp h.1]
    exact ok_fail_bind

lemma fails_require_bind :
    Fails (require p e' >>= g) s e s' ↔ (¬ p ∧ e = e' ∧ s' = s) ∨ (p ∧ Fails (g ()) s e s') := by
  unfold require
  split
  · next hp =>
    rw [and_iff_right hp, or_iff_right fun h => h.1 hp]
    exact Iff.rfl
  · next hp =>
    rw [and_iff_right hp, or_iff_left fun h => hp h.1]
    exact fails_fail_bind

lemma ok_orFail_bind : Ok (orFail o e' >>= f) s b s' ↔ ∃ a, o = some a ∧ Ok (f a) s b s' := by
  cases o with
  | none =>
    refine iff_of_false ok_fail_bind ?_
    rintro ⟨a, ha, -⟩
    cases ha
  | some a =>
    constructor
    · exact fun h => ⟨a, rfl, h⟩
    · rintro ⟨a', ha, h⟩
      cases ha
      exact h

lemma fails_orFail_bind : Fails (orFail o e' >>= f) s e s' ↔
      (o = none ∧ e = e' ∧ s' = s) ∨ ∃ a, o = some a ∧ Fails (f a) s e s' := by
  cases o with
  | none =>
    rw [and_iff_right rfl, or_iff_left fun ⟨a, ha, _⟩ => by cases ha]
    exact fails_fail_bind
  | some a =>
    constructor
    · exact fun h => .inr ⟨a, rfl, h⟩
    · rintro (⟨ha, -⟩ | ⟨a', ha, h⟩)
      · cases ha
      · cases ha
        exact h

end steps

@[simp] lemma ok_mapErr {g : E → E} : Ok (mapErr g x) s a s' ↔ Ok x s a s' := by
  simp only [mapErr, Ok]
  rcases h : x s with ⟨r, s1⟩
  cases r with
  | ok a => simp
  | error e => simp

lemma ok_attempt {r : Except E α} :
    Ok (attempt x) s r s' ↔ (∃ a, r = .ok a ∧ Ok x s a s') ∨ ∃ e, r = .error e ∧ Fails x s e s' := by
  simp only [attempt, Ok, Fails]
  rcases h : x s with ⟨q, s1⟩
  cases q with
  | _ => simp [eq_comm]

lemma fails_attempt : ¬ Fails (attempt x) s e s' := by
  exact nofun

lemma ok_attempt_ok : Ok (attempt x) s (.ok a) s' ↔ Ok x s a s' := by
  simp only [attempt, Ok]
  rcases h : x s with ⟨r, s1⟩
  simp

section
variable {f : α → Tx D M E Unit} {l : List α}

@[simp] lemma ok_each_nil : Ok (each f []) s u s' ↔ s' = s := by
  show Ok (pure ()) s u s' ↔ _
  simp

@[simp] lemma ok_each_cons : Ok (each f (a :: l)) s u s'' ↔ ∃ s', Ok (f a) s () s' ∧ Ok (each f l) s' u s'' := by
  show Ok (f a >>= fun _ => each f l) s u s'' ↔ _
  rw [ok_bind]
  exact ⟨fun ⟨_, s', h⟩ => ⟨s', h⟩, fun ⟨s', h⟩ => ⟨(), s', h⟩⟩

@[simp] lemma fails_each_cons : Fails (each f (a :: l)) s e s'' ↔
      Fails (f a) s e s'' ∨ ∃ s', Ok (f a) s () s' ∧ Fails (each f l) s' e s'' := by
  show Fails (f a >>= fun _ => each f l) s e s'' ↔ _
  rw [fails_bind]
  exact or_congr_right ⟨fun ⟨_, s', h⟩ => ⟨s', h⟩, fun ⟨s', h⟩ => ⟨(), s', h⟩⟩

/-- steps that check their element and write nothing. -/
lemma ok_each_all {p : α → Prop} (hf : ∀ a s u s', Ok (f a) s u s' → s' = s ∧ p a)
    (h : Ok (each f l) s u s') : s' = s ∧ ∀ a ∈ l, p a := by
  induction l generalizing s with
  | nil => exact ⟨ok_each_nil.1 h, fun _ ha => absurd ha List.not_mem_nil⟩
  | cons a l ih =>
    obtain ⟨s1, ha, hl⟩ := ok_each_cons.1 h
    obtain ⟨rfl, hp⟩ := hf a s () s1 ha
    exact ⟨(ih hl).1, List.forall_mem_cons.2 ⟨hp, (ih hl).2⟩⟩

/-- **the loop rule**: `inv` holds of the rest of the list before every step, and `post` at the end and
after a failure. -/
theorem each_invariant (inv : List α → Sys D M → Prop)
    {post : Sys D M → Prop} (hok : ∀ a l s s', inv (a :: l) s → Ok (f a) s () s' → inv l s')
    (hfail : ∀ a l s e s', inv (a :: l) s → Fails (f a) s e s' → post s')
    (hnil : ∀ s, inv [] s → post s) : ∀ l s, inv l s → post (after (each f l) s) := by
  intro l
  induction l with
  | nil => exact fun s h => hnil s h
  | cons a l ih =>
    intro s h
    rcases ok_or_fails (f a) s with ⟨_, hx⟩ | ⟨e, hx⟩
    · have hl := ih (after (f a) s) (hok a l s _ h hx)
      rcases ok_or_fails (each f l) (after (f a) s) with ⟨_, hy⟩ | ⟨e, hy⟩
      · rw [(ok_each_cons.2 ⟨_, hx, hy⟩).after_eq]
        exact hl
      · rw [(fails_each_cons.2 (.inr ⟨_, hx, hy⟩)).after_eq]
        exact hl
    · rw [(fails_each_cons.2 (.inl hx)).after_eq]
      exact hfail a l s e _ h hx

end

end outcomes

/-! ## relations that hold whatever the outcome -/

/-- `r` relates the states before and after `x`, on success and on failure. -/
def Keeps (r : Sys D M → Sys D M → Prop) (x : Tx D M E α) : Prop := ∀ s, r s (after x s)

section keeps

variable {r : Sys D M → Sys D M → Prop} {x : Tx D M E α} {s s' : Sys D M}

lemma keeps_iff :
    Keeps r x ↔ (∀ s a s', Ok x s a s' → r s s') ∧ ∀ s e s', Fails x s e s' → r s s' := by
  constructor
  · intro h
    exact ⟨fun s a s' hx => hx.after_eq ▸ h s, fun s e s' hx => hx.after_eq ▸ h s⟩
  · rintro ⟨h1, h2⟩ s
    rcases ok_or_fails x s with ⟨a, h⟩ | ⟨e, h⟩
    · exact h1 s a _ h
    · exact h2 s e _ h

lemma Keeps.ok (h : Keeps r x) {a : α} (hx : Ok x s a s') : r s s' := hx.after_eq ▸ h s

lemma Keeps.fails (h : Keeps r x) {e : E} (hx : Fails x s e s') : r s s' := hx.after_eq ▸ h s

lemma Keeps.mono {r' : Sys D M → Sys D M → Prop} (hr : ∀ s s', r s s' → r' s s')
    (h : Keeps r x) : Keeps r' x := fun s => hr s _ (h s)

lemma Keeps.bind (ht : ∀ s s' s'', r s s' → r s' s'' → r s s'') {f : α → Tx D M E β}
    (hx : Keeps r x) (hf : ∀ s a s', Ok x s a s' → Keeps r (f a)) : Keeps r (x >>= f) := by
  rw [keeps_iff]
  constructor
  · intro s b s'' h
    obtain ⟨a, s', h1, h2⟩ := ok_bind.1 h
    exact ht _ _ _ (hx.ok h1) ((hf s a s' h1).ok h2)
  · intro s e s'' h
    rcases fails_bind.1 h with h1 | ⟨a, s', h1, h2⟩
    · exact hx.fails h1
    · exact ht _ _ _ (hx.ok h1) ((hf s a s' h1).fails h2)

lemma Keeps.each (hr : ∀ s, r s s) (ht : ∀ s s' s'', r s s' → r s' s'' → r s s'')
    {f : α → Tx D M E Unit} (hf : ∀ a, Keeps r (f a)) (l : List α) : Keeps r (each f l) := by
  induction l with
  | nil => exact fun s => hr s
  | cons a l ih => exact Keeps.bind ht (hf a) fun _ _ _ _ => ih

end keeps

/-! ## preorders that a rollback respects -/

/-- a preorder on states that still holds when the database is rolled back. -/
class Stable (r : Sys D M → Sys D M → Prop) : Prop where
  refl : ∀ s, r s s
  trans : ∀ s s' s'', r s s' → r s' s'' → r s s''
  rollback : ∀ s s', r s s' → r s ⟨s.db, s'.mem⟩

section stable

variable {r : Sys D M → Sys D M → Prop} [Stable r] {x : Tx D M E α} {s : Sys D M} {f : α → Tx D M E β}
  {e : E} {p : Prop} [Decidable p]

lemma keeps_pure (a : α) : Keeps r (pure a : Tx D M E α) := fun s => Stable.refl s

lemma keeps_fail (e : E) : Keeps r (fail e : Tx D M E α) := fun s => Stable.refl s

lemma keeps_require (p : Prop) [Decidable p] (e : E) : Keeps r (require p e : Tx D M E Unit) := by
  unfold require
  split
  · exact keeps_pure ()
  · exact keeps_fail e

lemma keeps_orFail (o : Option α) (e : E) : Keeps r (orFail o e : Tx D M E α) := by
  cases o with
  | none => exact keeps_fail e
  | some a => exact keeps_pure a

lemma keeps_bind (hx : Keeps r x) (hf : ∀ a, Keeps r (f a)) : Keeps r (x >>= f) :=
  Keeps.bind Stable.trans hx fun _ a _ _ => hf a

lemma keeps_require_bind {f : Unit → Tx D M E β} (hf : Keeps r (f ())) : Keeps r (require p e >>= f) :=
  keeps_bind (keeps_require p e) fun _ => hf

lemma keeps_bind_of (hx : Keeps r x) (hf : ∀ s a s', Ok x s a s' → Keeps r (f a)) : Keeps r (x >>= f) :=
  Keeps.bind Stable.trans hx hf

lemma keeps_each {f : α → Tx D M E Unit} (hf : ∀ a, Keeps r (f a)) (l : List α) :
    Keeps r (each f l) := Keeps.each Stable.refl Stable.trans hf l

lemma keeps_when {c : Bool} {x : Tx D M E Unit} (hx : Keeps r x) : Keeps r (when c x) := by
  cases c with
  | true => exact hx
  | false => exact keeps_pure ()

lemma Stable.after_transaction (h : r s (after x s)) : r s (after (transaction x) s) := by
  rcases ok_or_fails x s with ⟨a, hx⟩ | ⟨e, hx⟩
  · rw [(ok_transaction.2 hx).after_eq]
    exact h
  · rw [(fails_transaction.2 ⟨_, hx, rfl⟩).after_eq]
    exact Stable.rollback s _ h

lemma keeps_transaction (hx : Keeps r x) : Keeps r (transaction x) :=
  fun s => Stable.after_transaction (hx s)

/-- a first step that is related in one state, and then steps that are related in every state. -/
lemma Stable.after_bind (h : r s (after x s)) (hf : ∀ a, Keeps r (f a)) : r s (after (x >>= f) s) := by
  rcases ok_or_fails x s with ⟨a, hx⟩ | ⟨e, hx⟩
  · rcases ok_or_fails (f a) (after x s) with ⟨b, hb⟩ | ⟨e, hb⟩
    · rw [(ok_bind.2 ⟨a, _, hx, hb⟩).after_eq]
      exact Stable.trans _ _ _ h (hf a _)
    · rw [(fails_bind.2 (.inr ⟨a, _, hx, hb⟩)).after_eq]
      exact Stable.trans _ _ _ h (hf a _)
  · rw [(fails_bind.2 (.inl hx)).after_eq]
    exact h

lemma Stable.after_orFail_bind {o : Option α}
    (h : ∀ a, o = some a → r s (after (f a) s)) : r s (after (orFail o e >>= f) s) := by
  cases o with
  | none => exact Stable.refl s
  | some a => exact h a rfl

lemma Stable.after_require_bind {f : Unit → Tx D M E β}
    (h : p → r s (after (f ()) s)) : r s (after (require p e >>= f) s) := by
  unfold require
  split
  · next hp => exact h hp
  · exact Stable.refl s

end stable

/-- `P` relates the databases and `Q` the memories. -/
def Both (P : D → D → Prop) (Q : M → M → Prop) (s s' : Sys D M) : Prop :=
  P s.db s'.db ∧ Q s.mem s'.mem

section both

variable {P : D → D → Prop} {Q : M → M → Prop} [IsPreorder D P] [IsPreorder M Q]

lemma Both.refl (s : Sys D M) : Both P Q s s := ⟨refl_of P s.db, refl_of Q s.mem⟩

lemma Both.trans {s s' s'' : Sys D M} (h : Both P Q s s') (h' : Both P Q s' s'') :
    Both P Q s s'' := ⟨trans_of P h.1 h'.1, trans_of Q h.2 h'.2⟩

/-- a rollback keeps the database as it was, which is related to itself. -/
instance : Stable (Both P Q) where
  refl := Both.refl
  trans := fun _ _ _ => Both.trans
  rollback := fun s _ h => ⟨refl_of P s.db, h.2⟩

lemma keeps_modifyDb {f : D → D} (h : ∀ d, P d (f d)) :
    Keeps (Both P Q) (modifyDb f : Tx D M E Unit) := fun s => ⟨h s.db, refl_of Q s.mem⟩

lemma keeps_modifyMem {f : M → M} (h : ∀ m, Q m (f m)) :
    Keeps (Both P Q) (modifyMem f : Tx D M E Unit) := fun s => ⟨refl_of P s.db, h s.mem⟩

end both

/-! ## relations found from the parts of a computation -/

/-- `Keeps r x`, found by the instances for the parts of `x`. -/
class Kept (r : Sys D M → Sys D M → Prop) (x : Tx D M E α) : Prop where
  keeps : Keeps r x

/-- two views of a state that are the same by computation. -/
class SameAt {γ : Type} (u v : D → γ) : Prop where
  eq : ∀ d, u d = v d

instance {γ : Type} (u : D → γ) : SameAt u u := ⟨fun _ => rfl⟩

section kept

variable {r : Sys D M → Sys D M → Prop} {x y : Tx D M E α} {f : α → Tx D M E β}
  {g : α → Tx D M E Unit} {z : Tx D M E Unit} {p : Prop} [Decidable p]

lemma Kept.ok [h : Kept r x] {s s' : Sys D M} {a : α} (hx : Ok x s a s') : r s s' := h.keeps.ok hx

lemma Kept.fails [h : Kept r x] {s s' : Sys D M} {e : E} (hx : Fails x s e s') : r s s' := h.keeps.fails hx

variable [Stable r]

instance {a : α} : Kept r (pure a : Tx D M E α) := ⟨keeps_pure a⟩

instance {e : E} : Kept r (fail e : Tx D M E α) := ⟨keeps_fail e⟩

instance : Kept r (getDb : Tx D M E D) := ⟨fun s => Stable.refl s⟩

instance : Kept r (getMem : Tx D M E M) := ⟨fun s => Stable.refl s⟩

instance {e : E} : Kept r (require p e : Tx D M E Unit) := ⟨keeps_require p e⟩

instance {o : Option α} {e : E} : Kept r (orFail o e : Tx D M E α) := ⟨keeps_orFail o e⟩

instance [h : Kept r x] [h' : ∀ a, Kept r (f a)] : Kept r (x >>= f) :=
  ⟨keeps_bind h.keeps fun a => (h' a).keeps⟩

instance {l : List α} [h : ∀ a, Kept r (g a)] : Kept r (each g l) :=
  ⟨keeps_each (fun a => (h a).keeps) l⟩

instance {c : Bool} [h : Kept r z] : Kept r (when c z) := ⟨keeps_when h.keeps⟩

instance [h : Kept r x] : Kept r (transaction x) := ⟨keeps_transaction h.keeps⟩

instance [h : Kept r x] : Kept r (attempt x) := ⟨fun s => h.keeps s⟩

instance [h : Kept r x] [h' : Kept r y] : Kept r (if p then x else y) := by
  split
  · exact h
  · exact h'

end kept

/-! ## relations that hold on failure -/

/-- `r` relates the states before and after every failure of `x`. -/
def OnFail (r : Sys D M → Sys D M → Prop) (x : Tx D M E α) : Prop :=
  ∀ s e s', Fails x s e s' → r s s'

/-- `x` never fails, found by instances. -/
class Sure (x : Tx D M E α) : Prop where
  not_fails : ∀ s e s', ¬ Fails x s e s'

/-- `OnFail r x`, found by instances. -/
class KeptOnFail (r : Sys D M → Sys D M → Prop) (x : Tx D M E α) : Prop where
  onFail : OnFail r x

section onFail

variable {r : Sys D M → Sys D M → Prop} {x y : Tx D M E α} {f : α → Tx D M E β}
  {z : Tx D M E Unit} {p : Prop} [Decidable p]

instance {a : α} : Sure (pure a : Tx D M E α) := ⟨fun _ _ _ => fails_pure⟩

instance {h : D → D} : Sure (modifyDb h : Tx D M E Unit) := ⟨fun _ _ _ => fails_modifyDb⟩

instance {h : M → M} : Sure (modifyMem h : Tx D M E Unit) := ⟨fun _ _ _ => fails_modifyMem⟩

instance {c : Bool} [h : Sure z] : Sure (when c z) := ⟨fun s e s' hx => h.not_fails s e s' (fails_when.1 hx).2⟩

instance [h : Sure x] [h' : ∀ a, Sure (f a)] : Sure (x >>= f) := by
  refine ⟨fun s e s' hx => ?_⟩
  rcases fails_bind.1 hx with hx | ⟨a, s1, -, hx⟩
  · exact h.not_fails s e s' hx
  · exact (h' a).not_fails s1 e s' hx

instance [h : Sure x] : KeptOnFail r x := ⟨fun s e s' hx => absurd hx (h.not_fails s e s')⟩

instance [h : Kept r x] : KeptOnFail r x := ⟨fun _ _ _ hx => h.keeps.fails hx⟩

instance [h : KeptOnFail r x] [h' : ∀ a, Sure (f a)] : KeptOnFail r (x >>= f) := by
  refine ⟨fun s e s' hx => ?_⟩
  rcases fails_bind.1 hx with hx | ⟨a, s1, -, hx⟩
  · exact h.onFail s e s' hx
  · exact absurd hx ((h' a).not_fails s1 e s')

/-- steps that keep `r` whatever the outcome, and then steps that keep it on failure. -/
lemma onFail_bind [Stable r] [h : Kept r x] (h' : ∀ a, KeptOnFail r (f a)) : KeptOnFail r (x >>= f) := by
  refine ⟨fun s e s' hx => ?_⟩
  rcases fails_bind.1 hx with hx | ⟨a, s1, h1, hx⟩
  · exact h.keeps.fails hx
  · exact Stable.trans _ _ _ (h.keeps.ok h1) ((h' a).onFail s1 e s' hx)

instance [Stable r] [h : Kept r x] [h' : ∀ a, KeptOnFail r (f a)] : KeptOnFail r (x >>= f) := onFail_bind h'

instance {c : Bool} [h : KeptOnFail r z] : KeptOnFail r (when c z) :=
  ⟨fun s e s' hx => h.onFail s e s' (fails_when.1 hx).2⟩

instance [h : KeptOnFail r x] [h' : KeptOnFail r y] : KeptOnFail r (if p then x else y) := by
  split
  · exact h
  · exact h'

instance {g : E → E} [h : KeptOnFail r x] : KeptOnFail r (mapErr g x) := by
  refine ⟨fun s e s' hx => ?_⟩
  rcases hr : x s with ⟨q, s1⟩
  rw [Fails, Tx.mapErr, hr] at hx
  cases q with
  | ok a => cases hx
  | error e0 =>
    cases hx
    exact h.onFail s e0 _ hr

lemma OnFail.transaction {r' : Sys D M → Sys D M → Prop}
    (hr : ∀ s s', r s s' → r' s ⟨s.db, s'.mem⟩) (hx : OnFail r x) : OnFail r' (transaction x) := by
  intro s e s' h
  obtain ⟨s1, h1, rfl⟩ := fails_transaction.1 h
  exact hr s s1 (hx s e s1 h1)

end onFail

/-! ## failures that leave the database alone -/

def Same (s s' : Sys D M) : Prop := s' = s

instance : Stable (Same : Sys D M → Sys D M → Prop) where
  refl := fun _ => rfl
  trans := fun _ _ _ h h' => Eq.trans h' h
  rollback := fun s s' h => by
    rw [h]
    rfl

def SameDb (s s' : Sys D M) : Prop := s'.db = s.db

instance : Stable (SameDb : Sys D M → Sys D M → Prop) where
  refl := fun _ => rfl
  trans := fun _ _ _ h h' => Eq.trans h' h
  rollback := fun _ _ _ => rfl

def Atomic (x : Tx D M E α) : Prop := ∀ s e s', Fails x s e s' → s'.db = s.db

section atomic

variable {x : Tx D M E α}

lemma atomic [h : KeptOnFail SameDb x] : Atomic x := h.onFail

instance {h : M → M} : Kept SameDb (modifyMem h : Tx D M E Unit) := ⟨fun _ => rfl⟩

lemma atomic_transaction (x : Tx D M E α) : Atomic (transaction x) := by
  intro s e s' h
  obtain ⟨s1, -, rfl⟩ := fails_transaction.1 h
  rfl

instance : KeptOnFail SameDb (transaction x) := ⟨atomic_transaction x⟩

end atomic

/-! ## total correctness -/

/-- `x` succeeds, with a result and a state that meet `post`. -/
def Total (x : Tx D M E α) (s : Sys D M) (post : α → Sys D M → Prop) : Prop :=
  ∃ a s', Ok x s a s' ∧ post a s'

section total

variable {s s' : Sys D M} {x : Tx D M E α} {f : α → Tx D M E β} {post post' : α → Sys D M → Prop}
  {a : α} {e : E}

lemma Total.mono (h : Total x s post) (hp : ∀ a s', Ok x s a s' → post a s' → post' a s') :
    Total x s post' := by
  obtain ⟨a, s', hx, ha⟩ := h
  exact ⟨a, s', hx, hp a s' hx ha⟩

lemma Total.not_fails (h : Total x s post) : ¬ Fails x s e s' := by
  obtain ⟨a, s1, hx, -⟩ := h
  exact hx.not_fails

lemma total_pure (h : post a s) : Total (pure a : Tx D M E α) s post :=
  ⟨a, s, ok_pure.2 ⟨rfl, rfl⟩, h⟩

lemma total_bind {post : β → Sys D M → Prop}
    (h : Total x s fun a s' => Total (f a) s' post) : Total (x >>= f) s post := by
  obtain ⟨a, s1, hx, b, s2, hf, hb⟩ := h
  exact ⟨b, s2, ok_bind.2 ⟨a, s1, hx, hf⟩, hb⟩

lemma Ok.total_bind {post : β → Sys D M → Prop} (hx : Ok x s a s')
    (h : Total (f a) s' post) : Total (x >>= f) s post := Tx.total_bind ⟨a, s', hx, h⟩

lemma Ok.total_then {y : Tx D M E Unit} {g : Unit → Tx D M E α} (hy : Ok y s () s') (h : Total (g ()) s' post) :
    Total (y >>= g) s post := hy.total_bind h

lemma total_getDb_bind {g : D → Tx D M E α} (h : Total (g s.db) s post) :
    Total (getDb >>= g) s post := h

lemma total_getMem_bind {g : M → Tx D M E α} (h : Total (g s.mem) s post) :
    Total (getMem >>= g) s post := h

lemma total_require_bind {p : Prop} [Decidable p] {g : Unit → Tx D M E α} (hp : p)
    (h : Total (g ()) s post) : Total (require p e >>= g) s post := by
  obtain ⟨a, s', hx, ha⟩ := h
  exact ⟨a, s', ok_require_bind.2 ⟨hp, hx⟩, ha⟩

lemma total_orFail_bind {o : Option β} {b : β} {g : β → Tx D M E α} (ho : o = some b)
    (h : Total (g b) s post) : Total (orFail o e >>= g) s post := by
  obtain ⟨a, s', hx, ha⟩ := h
  exact ⟨a, s', ok_orFail_bind.2 ⟨b, ho, hx⟩, ha⟩

lemma total_transaction (h : Total x s post) : Total (transaction x) s post := by
  obtain ⟨a, s', hx, ha⟩ := h
  exact ⟨a, s', ok_transaction.2 hx, ha⟩

lemma total_when {c : Bool} {y : Tx D M E Unit} {post : Unit → Sys D M → Prop}
    (h : Total y s post) (hs : post () s) : Total (when c y) s post := by
  cases c with
  | true => exact h
  | false => exact ⟨(), s, rfl, hs⟩

lemma total_each {g : α → Tx D M E Unit} (inv : List α → Sys D M → Prop)
    (step : ∀ a l s, inv (a :: l) s → Total (g a) s fun _ s' => inv l s') :
    ∀ l s, inv l s → Total (each g l) s fun _ s' => inv [] s' := by
  intro l
  induction l with
  | nil => exact fun s h => ⟨(), s, ok_each_nil.2 rfl, h⟩
  | cons a l ih =>
    intro s h
    obtain ⟨_, s1, hg, h1⟩ := step a l s h
    obtain ⟨_, s2, hl, h2⟩ := ih s1 h1
    exact ⟨(), s2, ok_each_cons.2 ⟨s1, hg, hl⟩, h2⟩

end total

/-! ## computations that fail more often -/

/-- whenever `y` succeeds, `x` does the same. -/
def OkAs (y x : Tx D M E α) : Prop := ∀ s a s', Ok y s a s' → Ok x s a s'

section okAs

variable {x y : Tx D M E α} {f g : α → Tx D M E β}

lemma OkAs.refl (x : Tx D M E α) : OkAs x x := fun _ _ _ h => h

lemma OkAs.bind (h : OkAs y x) (h' : ∀ a, OkAs (g a) (f a)) : OkAs (y >>= g) (x >>= f) := by
  intro s b s'' hy
  obtain ⟨a, s', h1, h2⟩ := ok_bind.1 hy
  exact ok_bind.2 ⟨a, s', h s a s' h1, h' a s' b s'' h2⟩

lemma OkAs.transaction (h : OkAs y x) : OkAs (transaction y) (transaction x) :=
  fun s a s' hy => ok_transaction.2 (h s a s' (ok_transaction.1 hy))

lemma OkAs.when {c : Bool} {x y : Tx D M E Unit} (h : OkAs y x) : OkAs (when c y) (when c x) := by
  cases c with
  | true => exact h
  | false => exact .refl _

end okAs

end Tx
