import CrynuxRelay.Base.Forever
import CrynuxRelay.Model.State

/-!
# Workers that count nodes

Each of the workers counts once and then waits, for a tick or for the end of its context.

* `StatsWorker`, `WorkerStep` -- the loop of a worker, and what happens around it;
* `not_returned` -- the case for the end of the context stops the ticker and stays in the loop;
* `worker_stops_iff` -- **a worker stops only if it is never told to.**
-/

namespace CrynuxRelay

/-! ## the loop -/

/-- what a worker counts, and the interval that its times are cut to. -/
structure StatsWorker where
  subject : String
  interval : Time

def hours (n : Nat) : Time := n * 3600000000000

def startStatsNodeScores : StatsWorker := ⟨"node scores", hours 4⟩
def startStatsNodeStakings : StatsWorker := ⟨"node stakings", hours 24⟩
def startStatsNodeDelegatorCount : StatsWorker := ⟨"node delegator count", hours 24⟩

inductive WorkerPhase
  | first
  | waiting
  | counting
  | returned
  deriving DecidableEq

/-- where the code of a case of the `select` goes on. -/
inductive Control
  | loop
  | leave

structure WorkerState where
  phase : WorkerPhase := .first
  ctxErr : Option String := none
  ticking : Bool := false
  tick : Bool := false
  iterations : Nat := 0
  counted : List Time := []
  log : List String := []

/-- what happens next; `proceed` is the turn of the worker, with the choice of its `select`, and the
time and the error of the call that it has made. -/
inductive WorkerStep
  | cancel (err : String)
  | tick
  | proceed (takeTick : Bool) (now : Time) (err : Option String)

namespace StatsWorker

variable (worker : StatsWorker) (s : WorkerState)

def count (now : Time) (err : Option String) (message : String) : WorkerState :=
  match err with
  | none => { s with counted := s.counted ++ [now / worker.interval * worker.interval] }
  | some e => { s with log := s.log ++ ["Stats: " ++ message ++ worker.subject ++ " error " ++ e] }

def onDone (err : String) : WorkerState × Control :=
  ({ s with
      log := s.log ++ ["Stats: stop counting " ++ worker.subject ++ " due to " ++ err]
      ticking := false }, .loop)

def select (takeTick : Bool) : WorkerState :=
  match s.ctxErr, s.tick && (takeTick || s.ctxErr.isNone) with
  | _, true => { s with phase := .counting, tick := false, iterations := s.iterations + 1 }
  | some err, false =>
    match worker.onDone { s with iterations := s.iterations + 1 } err with
    | (s, .loop) => { s with phase := .waiting }
    | (s, .leave) => { s with phase := .returned }
  | none, false => s

def exec : WorkerStep → WorkerState → WorkerState
  | .cancel err, s => { s with ctxErr := some (s.ctxErr.getD err) }
  | .tick, s => { s with tick := s.tick || s.ticking }
  | .proceed takeTick now err, s =>
    match s.phase with
    | .first => { worker.count s now err "initial stats " with phase := .waiting, ticking := true }
    | .waiting => worker.select s takeTick
    | .counting => { worker.count s now err "stats " with phase := .waiting }
    | .returned => s

/-! ## schedules -/

variable (steps : Nat → WorkerStep)

def after (n : Nat) : WorkerState := stateAt worker.exec steps {} n

/-- once its context has ended, the worker returns. -/
def Stops : Prop :=
  ∀ n, (worker.after steps n).ctxErr.isSome = true →
    ∃ m, n ≤ m ∧ (worker.after steps m).phase = .returned

variable {worker s steps}

lemma exec_ne_returned (i : WorkerStep) (h : s.phase ≠ .returned) :
    (worker.exec i s).phase ≠ .returned := by
  cases i with
  | cancel err => exact h
  | tick => exact h
  | proceed t now e =>
    simp only [exec]
    split
    · simp
    · -- each case of the `select` stays in the loop
      unfold select
      split
      · simp
      · simp [onDone]
      · exact h
    · simp
    · exact h

lemma not_returned {n : Nat} : (worker.after steps n).phase ≠ .returned :=
  stateAt_invariant (fun s : WorkerState => s.phase ≠ .returned) (fun _ i => exec_ne_returned i)
    (Nat.zero_le n) (show WorkerPhase.first ≠ .returned by decide)

lemma ctxErr_select (t : Bool) : (worker.select s t).ctxErr = s.ctxErr := by
  unfold select
  split
  all_goals rfl

lemma ctxErr_exec {i : WorkerStep} (h : ∀ err, i ≠ .cancel err) : (worker.exec i s).ctxErr = s.ctxErr := by
  have hcount : ∀ now err message, (worker.count s now err message).ctxErr = s.ctxErr := by
    intro now err message
    cases err with
    | _ => rfl
  cases i with
  | cancel err => exact absurd rfl (h err)
  | tick => rfl
  | proceed t now err =>
    simp only [exec]
    split
    · exact hcount now err _
    · exact ctxErr_select t
    · exact hcount now err _
    · rfl

lemma ctxErr_after (h : ∀ n err, steps n ≠ .cancel err) (n : Nat) :
    (worker.after steps n).ctxErr = none := by
  induction n with
  | zero => rfl
  | succ n ih => exact (ctxErr_exec (h n)).trans ih

end StatsWorker

/-- **a worker stops only if it is never told to.** -/
theorem worker_stops_iff (worker : StatsWorker) (steps : Nat → WorkerStep) :
    worker.Stops steps ↔ ∀ n err, steps n ≠ .cancel err := by
  constructor
  · intro hstops n err hcancel
    have hended : (worker.after steps (n + 1)).ctxErr.isSome = true := by
      show (worker.exec (steps n) (worker.after steps n)).ctxErr.isSome = true
      rw [hcancel]
      rfl
    obtain ⟨m, -, hm⟩ := hstops (n + 1) hended
    exact StatsWorker.not_returned hm
  · intro hnever n hc
    rw [StatsWorker.ctxErr_after hnever] at hc
    cases hc

def cancelFirst : Nat → WorkerStep
  | 0 => .cancel "context canceled"
  | _ + 1 => .proceed false 0 none

namespace StatsWorker

lemma after_cancelFirst (worker : StatsWorker) (n : Nat) :
    let s := worker.after cancelFirst (n + 2)
    s.phase = .waiting ∧ s.ctxErr = some "context canceled" ∧ s.tick = false ∧ s.iterations = n := by
  induction n with
  | zero => exact ⟨rfl, rfl, rfl, rfl⟩
  | succ n ih =>
    obtain ⟨hp, hc, ht, hi⟩ := ih
    have hstep : worker.after cancelFirst (n + 1 + 2) =
        worker.exec (.proceed false 0 none) (worker.after cancelFirst (n + 2)) := rfl
    simp [hstep, exec, select, onDone, hp, hc, ht, hi]

end StatsWorker

theorem node_scores_turn_for_ever :
    (startStatsNodeScores.after cancelFirst 1).ctxErr = some "context canceled" ∧
      ¬ startStatsNodeScores.Stops cancelFirst ∧
      ∀ n, (startStatsNodeScores.after cancelFirst (n + 2)).iterations = n := by
  refine ⟨rfl, fun hstops => ?_, fun n => (startStatsNodeScores.after_cancelFirst n).2.2.2⟩
  obtain ⟨m, -, hm⟩ := hstops 1 rfl
  exact StatsWorker.not_returned hm

end CrynuxRelay
