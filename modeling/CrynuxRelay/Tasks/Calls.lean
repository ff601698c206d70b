import CrynuxRelay.Accounts.Undone

/-!
# What the operations on tasks can do

Inversions of the operations of the relay, for the invariants of rows and of copies.

* `CallStep`, `callStep_of_ok` -- the transition that a successful attempt has made;
* `TaskWork`, `taskWork_exec` -- an operation on tasks has failed, or one transition or one group
  validation has succeeded;
* `FlightFrom`, `flightFrom_of_mem` -- a copy is an old one, a row, or an old one with a new status.
-/

namespace CrynuxRelay

open List Tx RelayOp

variable {env : Env} {flight : Flight} {w w' : World} {u : Unit} {s : RelayState} {op : RelayOp}

/-! ## attempts -/

inductive CallStep (env : Env) (flight : Flight) (w w' : World) : TaskCall → Prop
  | started (address : Text) (h : Ok (setTaskStatusStarted env flight.task address) w () w') :
    CallStep env flight w w' (.start address)
  | scored (score : Text)
    (h : Ok (setTaskStatusScoreReady env { flight.task with score := score }) w () w') :
    CallStep env flight w w' (.submitScore score)
  | errored (error : TaskError)
    (h : Ok (setTaskStatusErrorReported env { flight.task with taskError := error }) w () w') :
    CallStep env flight w w' (.reportError error)
  | validated (taskID vrfProof publicKey : Text)
    (hid : env.validTaskID taskID flight.task.nonce flight.task.taskIDCommitment = true)
    (h : Ok (setTaskStatusValidated env { flight.task with taskID := taskID }) w () w') :
    CallStep env flight w w' (.validate taskID vrfProof publicKey)
  | rejected (taskID vrfProof publicKey : Text)
    (hid : env.validTaskID taskID flight.task.nonce flight.task.taskIDCommitment = true)
    (h : Ok (setTaskStatusEndAborted env { flight.task with
      taskID := taskID
      abortReason := .errorReported
      validatedTime := some env.now }) w () w') :
    CallStep env flight w w' (.validate taskID vrfProof publicKey)
  | aborted (call : TaskCall) (reason : TaskAbortReason)
    (h : Ok (setTaskStatusEndAborted env { flight.task with abortReason := reason }) w () w') :
    CallStep env flight w w' call
  | uploaded (hread : flight.readStatus = .validated ∨ flight.readStatus = .groupValidated)
    (h : Ok (setTaskStatusEndSuccess env flight.task) w () w') : CallStep env flight w w' .upload
  | nothing (call : TaskCall) (h : w' = w) : CallStep env flight w w' call

lemma callStep_of_ok {call : TaskCall} (hok : Ok (call.tx env flight) w u w') :
    CallStep env flight w w' call := by
  cases call with
  | start address => exact .started address hok
  | submitScore score => exact .scored score hok
  | reportError error => exact .errored error hok
  | validate taskID vrfProof publicKey =>
    have hok' : Ok (validateSingleTask env flight.task taskID vrfProof publicKey) w u w' := hok
    rw [validateSingleTask, ok_require_bind, ok_require_bind, ok_require_bind,
      ok_require_bind, ok_require_bind] at hok'
    obtain ⟨hid, -, -, -, -, hok'⟩ := hok'
    split at hok'
    · exact .validated taskID vrfProof publicKey hid hok'
    · exact .rejected taskID vrfProof publicKey hid hok'
  | timeOut =>
    have hok' : Ok (abortTimedOutTask env flight.task) w u w' := hok
    unfold abortTimedOutTask at hok'
    split at hok'
    · rcases ok_when.1 hok' with ⟨-, hok'⟩ | ⟨-, rfl⟩
      · exact .aborted _ _ hok'
      · exact .nothing _ rfl
    · exact .nothing _ (ok_pure.1 hok').2
  | upload =>
    rcases ok_when.1 hok with ⟨hread, hok⟩ | ⟨-, rfl⟩
    · exact .uploaded (of_decide_eq_true hread) hok
    · exact .nothing _ rfl
  | _ => exact .aborted _ _ (ok_require_bind.1 hok).2

/-! ## operations -/

inductive TaskWork (s : RelayState) (w' : World) : RelayOp → Prop
  | undone (op : RelayOp) (h : Undone s.world w') : TaskWork s w' op
  | created (env : Env) (t : NewTask) (h : Ok (createTask env t.task) s.world () w') :
    TaskWork s w' (.create env t)
  | called (env : Env) (i : Nat) (call : TaskCall) (flight : Flight)
    (hf : s.flights[i]? = some flight) (h : CallStep env flight s.world w' call) :
    TaskWork s w' (.attempt env i call)
  | group (env : Env) (i j k : Nat) (taskID vrfProof publicKey : Text) (f₁ f₂ f₃ : Flight)
    (h₁ : s.flights[i]? = some f₁) (h₂ : s.flights[j]? = some f₂) (h₃ : s.flights[k]? = some f₃)
    (h : Ok (validateTaskGroup env [f₁.task, f₂.task, f₃.task] taskID vrfProof publicKey)
      s.world () w') : TaskWork s w' (.validateGroup env i j k taskID vrfProof publicKey)
  | groupFailed (env : Env) (i j k : Nat) (taskID vrfProof publicKey : Text) (e : Err)
    (hf : Fails (RelayOp.tx s.flights (.validateGroup env i j k taskID vrfProof publicKey))
      s.world e w') (h : w'.db = s.world.db) :
    TaskWork s w' (.validateGroup env i j k taskID vrfProof publicKey)
  | slashed (env : Env) (node : Node) (h : Ok (slashNode env node) s.world () w') :
    TaskWork s w' (.slash env node)

def RelayOp.onTasks : RelayOp → Bool
  | .create .. | .read .. | .sync .. | .attempt .. | .validateGroup .. | .slash .. => true
  | _ => false

set_option synthInstance.maxSize 1000 in
lemma atomic_validateTaskGroup (env : Env) (tasks : List InferenceTask)
    (taskID vrfProof publicKey : Text) :
    Tx.Atomic (validateTaskGroup env tasks taskID vrfProof publicKey) := by
  dsimp only [validateTaskGroup]
  exact atomic

lemma taskWork_exec (hop : op.onTasks = true) (s : RelayState) : TaskWork s (op.exec s).world op := by
  have hof : ∀ {x : Relay Unit} [KeptOnFail Undone x],
      (Ok x s.world () (after x s.world) → TaskWork s (after x s.world) op) →
        TaskWork s (after x s.world) op := by
    intro x hundone hok
    rcases ok_or_fails x s.world with ⟨u, hx⟩ | ⟨e, hx⟩
    · exact hok hx
    · exact .undone op (hundone.onFail _ e _ hx)
  cases op with
  | create env t => exact hof (x := createTask env t.task) (.created env t)
  | read c => exact .undone _ (Stable.refl _)
  | sync i => exact .undone _ (Stable.refl _)
  | attempt env i call =>
    show TaskWork s (after (tx s.flights _) s.world) _
    rw [tx]
    cases hf : s.flights[i]? with
    | none => exact .undone _ (Stable.refl _)
    | some flight =>
      exact hof fun hok => .called env i call flight hf (callStep_of_ok hok)
  | validateGroup env i j k taskID vrfProof publicKey =>
    show TaskWork s (after (tx s.flights _) s.world) _
    rcases ok_or_fails (tx s.flights (.validateGroup env i j k taskID vrfProof publicKey))
      s.world with ⟨u, hx⟩ | ⟨e, hx⟩
    · generalize after _ s.world = w' at hx ⊢
      rw [tx] at hx
      split at hx
      · next f1 f2 f3 h1 h2 h3 =>
        exact .group env i j k taskID vrfProof publicKey f1 f2 f3 h1 h2 h3 hx
      · rw [(ok_pure.1 hx).2]
        exact .undone _ (Stable.refl _)
    · refine .groupFailed env i j k taskID vrfProof publicKey e hx ?_
      generalize after _ s.world = w' at hx ⊢
      rw [tx] at hx
      split at hx
      · exact atomic_validateTaskGroup env _ taskID vrfProof publicKey _ e _ hx
      · exact absurd hx fails_pure
  | slash env node => exact hof (x := slashNode env node) (.slashed env node)
  | _ => cases hop

/-! ## copies -/

inductive FlightFrom (db : Db) (flights : List Flight) : Flight → Prop
  | old (flight : Flight) (h : flight ∈ flights) : FlightFrom db flights flight
  | read (c : Text) (t : InferenceTask) (h : db.tasks.get c = some t) :
    FlightFrom db flights ⟨t, t.status⟩
  | synced (flight : Flight) (row : InferenceTask) (h : flight ∈ flights)
    (hrow : db.tasks.get flight.task.taskIDCommitment = some row)
    (hq : ¬ (flight.task.status = .queued ∧ row.status ≠ .queued)) :
    FlightFrom db flights { flight with task := flight.task.syncStatus row }

lemma flightFrom_of_mem {db : Db} {flights : List Flight}
    (hm : flight ∈ op.flights db flights) : FlightFrom db flights flight := by
  cases op with
  | read c =>
    rw [RelayOp.flights] at hm
    split at hm
    · next t ht =>
      rcases mem_append.1 hm with hm | hm
      · exact .old flight hm
      · rw [mem_singleton.1 hm]
        exact .read c t ht
    · exact .old flight hm
  | sync i =>
    rw [RelayOp.flights] at hm
    split at hm
    · exact .old flight hm
    · next fl hfl =>
      split at hm
      · exact .old flight hm
      · next row hrow =>
        split at hm
        · exact .old flight (mem_of_mem_eraseIdx hm)
        · next hq =>
          rcases mem_or_eq_of_mem_set hm with hm | rfl
          · exact .old flight hm
          · exact .synced fl row (mem_of_getElem? hfl) hrow hq
  | _ => exact .old flight hm

end CrynuxRelay
