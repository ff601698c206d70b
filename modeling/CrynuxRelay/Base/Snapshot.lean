import CrynuxRelay.Base.Run

/-!
# Transactions that write from a snapshot

A transaction reads a snapshot of the committed data, and its commit writes what it has computed from
the snapshot to the data as they are then.  Nothing is locked, and several transactions are open at a
time.

* `Store`, `Op.exec` -- committed data and open transactions, and the steps;
* `Op.Alone` -- a transaction takes its snapshot while no transaction that shares something with it is
  open;
* `SerialOn` -- what an invariant needs when a commit may take its snapshot for up to date, with a
  condition on the changes by others; `Serial` -- without one;
* `SerialOn.run`, `Serial.run` -- **then the invariant holds in every state of every run in which
  transactions that share something do not overlap.**
-/

namespace Snapshot

open List

variable {σ γ ο ε : Type}

/-- a transaction: what it was called with, and its snapshot from its first read on. -/
structure Session (σ γ : Type) where
  call : γ
  snapshot : Option σ := none

structure Store (σ γ : Type) where
  db : σ
  sessions : List (Session σ γ) := []

/-- `commit` with what the transaction meets besides its snapshot; `other` are changes by others. -/
inductive Op (γ ο ε : Type)
  | call (c : γ)
  | read (i : Nat)
  | commit (i : Nat) (o : ο)
  | rollback (i : Nat)
  | other (e : ε)

/-- `write c o d db`: the data after the commit of `c` with snapshot `d`. -/
def Op.exec (write : γ → ο → σ → σ → σ) (step : ε → σ → σ) (op : Op γ ο ε) (s : Store σ γ) :
    Store σ γ :=
  match op with
  | .call c => { s with sessions := s.sessions ++ [{ call := c }] }
  | .read i =>
    match s.sessions[i]? with
    | some ⟨c, none⟩ => { s with sessions := s.sessions.set i ⟨c, some s.db⟩ }
    | _ => s
  | .commit i o =>
    match s.sessions[i]? with
    | some ⟨c, some d⟩ => { db := write c o d s.db, sessions := s.sessions.eraseIdx i }
    | _ => s
  | .rollback i => { s with sessions := s.sessions.eraseIdx i }
  | .other e => { s with db := step e s.db }

/-- a snapshot is taken while no transaction that shares something has one. -/
def Op.Alone (shares : γ → γ → Prop) (s : Store σ γ) : Op γ ο ε → Prop
  | .read i => ∀ x, s.sessions[i]? = some x → ∀ y ∈ s.sessions.eraseIdx i, y.snapshot.isSome = true →
      ¬ shares x.call y.call
  | _ => True

/-- a change by others meets a condition. -/
def Op.Fits (fits : σ → ε → Prop) (s : Store σ γ) : Op γ ο ε → Prop
  | .other e => fits s.db e
  | _ => True

section

variable (write : γ → ο → σ → σ → σ) (step : ε → σ → σ) (shares : γ → γ → Prop)
  (keep : γ → σ → σ → Prop) (holds : σ → Prop)

/-- `keep c d db`: the snapshot `d` of `c` still tells the truth about `db`, as far as `c` is
concerned.  Only transactions that share something with `c` can change that. -/
structure Serial : Prop where
  symm : ∀ c c', shares c c' → shares c' c
  refl : ∀ c d, keep c d d
  keep_write : ∀ c c' o d d' db, ¬ shares c c' → keep c' d' db → keep c' d' (write c o d db)
  keep_step : ∀ c e d db, holds db → keep c d db → keep c d (step e db)
  holds_write : ∀ c o d db, holds d → keep c d db → holds db → holds (write c o d db)
  holds_step : ∀ e db, holds db → holds (step e db)

structure SerialOn (fits : σ → ε → Prop) : Prop where
  symm : ∀ c c', shares c c' → shares c' c
  refl : ∀ c d, holds d → keep c d d
  keep_write : ∀ c c' o d d' db, ¬ shares c c' → holds db → keep c' d' db → keep c' d' (write c o d db)
  keep_step : ∀ c e d db, holds db → fits db e → keep c d db → keep c d (step e db)
  holds_write : ∀ c o d db, holds d → keep c d db → holds db → holds (write c o d db)
  holds_step : ∀ e db, holds db → fits db e → holds (step e db)

structure Inv (s : Store σ γ) : Prop where
  apart : s.sessions.Pairwise fun x y =>
    x.snapshot.isSome = true → y.snapshot.isSome = true → ¬ shares x.call y.call
  kept : ∀ x ∈ s.sessions, ∀ d, x.snapshot = some d → keep x.call d s.db
  snapshots : ∀ x ∈ s.sessions, ∀ d, x.snapshot = some d → holds d
  holds : holds s.db

end

variable {write : γ → ο → σ → σ → σ} {step : ε → σ → σ} {shares : γ → γ → Prop}
  {keep : γ → σ → σ → Prop} {holds : σ → Prop} {fits : σ → ε → Prop} {s : Store σ γ}

namespace SerialOn

lemma inv_call (h : Inv shares keep holds s) (c : γ) :
    Inv shares keep holds { s with sessions := s.sessions ++ [{ call := c }] } := by
  have hmem : ∀ x ∈ s.sessions ++ [({ call := c } : Session σ γ)], ∀ d, x.snapshot = some d →
      x ∈ s.sessions := by
    intro x hx d hd
    rcases mem_append.1 hx with hx | hx
    · exact hx
    · rw [mem_singleton.1 hx] at hd
      cases hd
  refine ⟨?_, fun x hx d hd => h.kept x (hmem x hx d hd) d hd,
    fun x hx d hd => h.snapshots x (hmem x hx d hd) d hd, h.holds⟩
  refine pairwise_append.2 ⟨h.apart, pairwise_singleton _ _, fun x _ y hy _ hsome => ?_⟩
  rw [mem_singleton.1 hy] at hsome
  cases hsome

section
variable (hserial : SerialOn write step shares keep holds fits) (h : Inv shares keep holds s)
include hserial h

lemma inv_read {i : Nat} {x : Session σ γ} (hget : s.sessions[i]? = some x)
    (halone : ∀ y ∈ s.sessions.eraseIdx i, y.snapshot.isSome = true → ¬ shares x.call y.call) :
    Inv shares keep holds { s with sessions := s.sessions.set i ⟨x.call, some s.db⟩ } := by
  obtain ⟨l1, l2, hl, hset, herase⟩ := split_at_thread hget
  have hapart := h.apart
  rw [hl] at hapart
  obtain ⟨h1, h2, h12⟩ := pairwise_append.1 hapart
  have hmem : ∀ y ∈ s.sessions.set i ⟨x.call, some s.db⟩,
      y ∈ s.sessions ∨ y = ⟨x.call, some s.db⟩ := fun y hy => mem_or_eq_of_mem_set hy
  refine ⟨?_, fun y hy d hd => ?_, fun y hy d hd => ?_, h.holds⟩
  · show (s.sessions.set i _).Pairwise _
    rw [hset]
    rw [herase] at halone
    refine pairwise_append.2 ⟨h1, pairwise_cons.2 ⟨fun y hy _ hsome => ?_,
      (pairwise_cons.1 h2).2⟩, fun y hy z hz hsome hsome' => ?_⟩
    · exact halone y (mem_append_right _ hy) hsome
    · rcases mem_cons.1 hz with rfl | hz
      · exact fun hsh => halone y (mem_append_left _ hy) hsome (hserial.symm _ _ hsh)
      · exact h12 y hy z (mem_cons_of_mem x hz) hsome hsome'
  · rcases hmem y hy with hy | rfl
    · exact h.kept y hy d hd
    · cases hd
      exact hserial.refl x.call s.db h.holds
  · rcases hmem y hy with hy | rfl
    · exact h.snapshots y hy d hd
    · cases hd
      exact h.holds

lemma inv_commit {i : Nat} {c : γ} {d : σ} (hget : s.sessions[i]? = some ⟨c, some d⟩) (o : ο) :
    Inv shares keep holds { db := write c o d s.db, sessions := s.sessions.eraseIdx i } := by
  obtain ⟨l1, l2, hl, -, herase⟩ := split_at_thread hget
  have hapart := h.apart
  rw [hl] at hapart
  obtain ⟨h1, h2, h12⟩ := pairwise_append.1 hapart
  have hmem : (⟨c, some d⟩ : Session σ γ) ∈ s.sessions := mem_of_getElem? hget
  have hsub : (s.sessions.eraseIdx i).Sublist s.sessions := eraseIdx_sublist _ _
  -- the other open transactions share nothing with the one that commits
  have hother : ∀ y ∈ s.sessions.eraseIdx i, y.snapshot.isSome = true → ¬ shares c y.call := by
    intro y hy hsome
    rw [herase] at hy
    rcases mem_append.1 hy with hy | hy
    · exact fun hsh => h12 y hy _ mem_cons_self hsome rfl (hserial.symm _ _ hsh)
    · exact (pairwise_cons.1 h2).1 y hy rfl hsome
  refine ⟨h.apart.sublist hsub, fun y hy d' hd' => ?_,
    fun y hy d' hd' => h.snapshots y (hsub.subset hy) d' hd', ?_⟩
  · refine hserial.keep_write c y.call o d d' s.db (hother y hy ?_) h.holds (h.kept y (hsub.subset hy) d' hd')
    rw [hd']
    rfl
  · exact hserial.holds_write c o d s.db (h.snapshots _ hmem d rfl) (h.kept _ hmem d rfl) h.holds

lemma inv_exec (op : Op γ ο ε) (halone : op.Alone shares s) (hfits : op.Fits fits s) :
    Inv shares keep holds (op.exec write step s) := by
  cases op with
  | call c => exact inv_call h c
  | read i =>
    rw [Op.exec]
    split
    · next c hget => exact hserial.inv_read h hget (halone _ hget)
    · exact h
  | commit i o =>
    rw [Op.exec]
    split
    · next c d hget => exact hserial.inv_commit h hget o
    · exact h
  | rollback i =>
    have hsub : (s.sessions.eraseIdx i).Sublist s.sessions := eraseIdx_sublist _ _
    exact ⟨h.apart.sublist hsub, fun x hx => h.kept x (hsub.subset hx),
      fun x hx => h.snapshots x (hsub.subset hx), h.holds⟩
  | other e =>
    exact ⟨h.apart, fun x hx d hd => hserial.keep_step x.call e d s.db h.holds hfits (h.kept x hx d hd),
      h.snapshots, hserial.holds_step e s.db h.holds hfits⟩

end

/-- **transactions that do not overlap act one after the other**, if the changes by others meet the
condition. -/
theorem run (hserial : SerialOn write step shares keep holds fits) (db : σ) (h : holds db)
    (ops : List (Op γ ο ε)) (halone : Along (Op.exec write step) (fun s op => op.Alone shares s ∧
    op.Fits fits s) ops ⟨db, []⟩) : holds (run (Op.exec write step) ops ⟨db, []⟩).db := by
  have hstep : ∀ (s : Store σ γ) (op : Op γ ο ε), Inv shares keep holds s →
      op.Alone shares s ∧ op.Fits fits s → Inv shares keep holds (op.exec write step s) :=
    fun s op hs hop => hserial.inv_exec hs op hop.1 hop.2
  exact (run_invariant hstep ops ⟨db, []⟩ halone ⟨List.Pairwise.nil, nofun, nofun, h⟩).holds

end SerialOn

namespace Serial

lemma on (hserial : Serial write step shares keep holds) :
    SerialOn write step shares keep holds fun _ _ => True where
  symm := hserial.symm
  refl := fun c d _ => hserial.refl c d
  keep_write := fun c c' o d d' db hshare _ hkeep => hserial.keep_write c c' o d d' db hshare hkeep
  keep_step := fun c e d db hdb _ hkeep => hserial.keep_step c e d db hdb hkeep
  holds_write := hserial.holds_write
  holds_step := fun e db hdb _ => hserial.holds_step e db hdb

/-- **transactions that do not overlap act one after the other.** -/
theorem run (hserial : Serial write step shares keep holds) (db : σ) (h : holds db)
    (ops : List (Op γ ο ε)) (halone : Along (Op.exec write step) (Op.Alone shares) ops ⟨db, []⟩) :
    holds (run (Op.exec write step) ops ⟨db, []⟩).db := by
  refine hserial.on.run db h ops (Along.mono (fun s op hop => ⟨hop, ?_⟩) ops _ halone)
  cases op with
  | _ => trivial

end Serial

end Snapshot
