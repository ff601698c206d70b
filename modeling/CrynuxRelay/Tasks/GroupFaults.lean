import CrynuxRelay.Tasks.GroupOutcome

/-!
# Group validations over a database that fails

The members of a group are settled one after the other, each in a transaction of its own inside the one of the
group, and what a member does to the memory is not rolled back when a later statement fails.

* `Faults` -- the statements of a validation at which the database fails, and the validation over such a
  database; `validateTaskGroup_noFaults` -- without failures it is `validateTaskGroup`;
* `Untouched` -- no balance, no score pool and no count of the memory differs;
* `Credited` -- the balances have grown by the fees of some members;
* `run_validation_fails` -- **a failed validation** leaves the rows, credits the members settled before it
  failed, and leaves no trace if it fails before the first score.
-/

namespace CrynuxRelay

open List Option Tx

variable {env : Env} {w w' : World} {u : Unit} {e : Err} {m task : InferenceTask} {l : List InferenceTask}
  {next : Text → TaskStatus} {evidence : List (Text × Bool)} {finished : Nat}

/-! ## a database that fails -/

/-- the statements of a validation, by the writes to the memory between which they stand: the locks and reads
before the loop, those of the `i`-th member before and after the score of its node, and the commit.  What they
have written is rolled back, so of statements that stand together it does not matter which one fails. -/
inductive Statement
  | lock
  | settle (i : Nat)
  | finish (i : Nat)
  | commit
  deriving DecidableEq

/-- the statements that fail, with their errors. -/
abbrev Faults := Statement → Option Err

lemma key_groupValidatedAs (taskID : Text) (qosScore : Option Nat) (now deadline : Time) (t : InferenceTask) :
    (t.groupValidatedAs taskID qosScore now deadline).taskIDCommitment = t.taskIDCommitment := rfl

lemma key_groupRefunded (taskID : Text) (qosScore : Option Nat) (now : Time) (t : InferenceTask) :
    (t.groupRefunded taskID qosScore now).taskIDCommitment = t.taskIDCommitment := rfl

lemma key_invalidatedAs (taskID : Text) (now : Time) (t : InferenceTask) :
    (t.invalidatedAs taskID now).taskIDCommitment = t.taskIDCommitment := rfl

lemma key_abortedAs (task t : InferenceTask) : (t.abortedAs task).taskIDCommitment = t.taskIDCommitment := rfl

lemma key_rescored (task t : InferenceTask) : (t.rescored task).taskIDCommitment = t.taskIDCommitment := rfl

namespace Faults

variable (faults : Faults)

def pass (st : Statement) : Relay Unit :=
  match faults st with
  | some e => Tx.fail e
  | none => pure ()

section member
variable (i : Nat) (env : Env) (task : InferenceTask)

def setTaskStatusGroupValidated : Relay Unit := do
  Tx.require (task.status = .scoreReady) .wrongTaskStatus
  let node ← checkTaskSelectedNode task
  let deadline ← getTaskTransitionDeadline env task .groupValidated
  Tx.transaction do
    task.updateStatus (fun t => t.groupValidatedAs task.taskID task.qosScore env.now deadline)
      (key_groupValidatedAs task.taskID task.qosScore env.now deadline)
    faults.pass (.settle i)
    let _ ← applyTaskQosScore env node task
    faults.pass (.finish i)

def setTaskStatusEndInvalidatedWithEvidence (evidenceComplete : Bool) : Relay Unit := do
  Tx.require (task.status = .scoreReady ∨ task.status = .endAborted ∨
    task.status = .errorReported) .wrongTaskStatus
  let node ← checkTaskSelectedNode task
  Tx.transaction do
    task.updateStatus (fun t => t.invalidatedAs task.taskID env.now) (key_invalidatedAs task.taskID env.now)
    faults.pass (.settle i)
    if env.passiveSlashMode then
      createPendingSlash task node evidenceComplete
      nodeFinishTask env node
    else slashNode env node

def setTaskStatusEndGroupRefund : Relay Unit := do
  Tx.require (task.status = .scoreReady) .wrongTaskStatus
  let node ← checkTaskSelectedNode task
  Tx.transaction do
    let commitFunc ←
      refundTaskPaymentToRelayAccount task.taskIDCommitment task.creator task.taskFee
    faults.pass (.settle i)
    let node ← applyTaskQosScore env node task
    faults.pass (.finish i)
    task.updateStatus (fun t => t.groupRefunded task.taskID task.qosScore env.now)
      (key_groupRefunded task.taskID task.qosScore env.now)
    let node ← applyHealthBoost env node
    nodeFinishTask env node
    runCommitFunc commitFunc

def releaseAbortedNode (node : Node) : Relay Unit := do
  let node ← applyAbortQosScore env task node
  faults.pass (.finish i)
  let node ← applyAbortHealthPenalty env task node
  nodeFinishTask env node

def setTaskStatusEndAborted : Relay Unit := do
  if task.status = .endAborted then pure ()
  else
    Tx.require (task.status.isTerminal = false) .wrongTaskStatus
    Tx.transaction do
      let node ← abortedTaskNode task
      let commitFunc ← settleAbortedTask env task node
      task.updateStatus (fun t => t.abortedAs task) (key_abortedAs task)
      faults.pass (.settle i)
      match node with
      | some n => faults.releaseAbortedNode i env task n
      | none => pure ()
      runCommitFunc commitFunc

def persistValidationGroupAbortedTaskQos : Relay Unit := do
  Tx.when (shouldPersistValidationGroupTimeoutQos task) do
    let node ← getNodeByAddress task.selectedNode
    faults.pass (.settle i)
    let _ ← updateNodeQosScore env node (task.qosScore.getD 0)
    pure ()
  faults.pass (.finish i)
  task.update (fun t => t.rescored task) (key_rescored task)

def applyGroupStatus (next : Text → TaskStatus) (evidence : List (Text × Bool)) (finished : Nat) :
    Relay Unit :=
  match next task.taskIDCommitment with
  | .endInvalidated => do
    let complete ← Tx.orFail (evidence.lookup task.taskIDCommitment) .validationIllegal
    faults.setTaskStatusEndInvalidatedWithEvidence i env task complete
  | .groupValidated => faults.setTaskStatusGroupValidated i env task
  | .endGroupRefund => faults.setTaskStatusEndGroupRefund i env task
  | _ =>
    if task.status ≠ .endAborted then
      faults.setTaskStatusEndAborted i env { task with
        abortReason := if finished < 2 then .groupTimeout else .incorrectResult
        validatedTime := some env.now }
    else faults.persistValidationGroupAbortedTaskQos i env task

end member

section
variable (env : Env) (tasks : List InferenceTask)

/-- the loop over the members, the fastest first. -/
def settleMembers (next : Text → TaskStatus) (evidence : List (Text × Bool)) (finished : Nat) :
    Nat → List InferenceTask → Relay Unit
  | _, [] => pure ()
  | i, m :: l => do
    faults.applyGroupStatus i env m next evidence finished
    settleMembers next evidence finished (i + 1) l

def settleTaskGroup (taskID : Text) : Relay Unit := do
  faults.pass .lock
  let refreshed ← refreshValidationGroupTasksForFinalUpdate tasks taskID
  let tasks := refreshed.map fun t => { t with taskID := taskID }
  Tx.require (checkGroupExecutionModelFiles tasks = true) .inconsistentExecutionModelFiles
  let tasks := assignValidationGroupQosScores (sortBy fasterThan tasks)
  let next ← Tx.orFail (groupNextStatus env.distanceThreshold tasks) .validationIllegal
  let evidence ← buildInvalidatedTaskSlashEvidence env next tasks
  faults.settleMembers env next evidence (tasks.filter fun t => t.status ≠ .endAborted).length 0 tasks
  faults.pass .commit

def validateTaskGroup (originTasks : List InferenceTask) (taskID vrfProof publicKey : Text) :
    Relay Unit := do
  Tx.require (originTasks.length = 3) .taskGroupIllegal
  let tasks := sortBy (fun t₁ t₂ => t₁.id < t₂.id) originTasks
  Tx.require (groupHasCreatorValidationTimeout tasks = false) .taskGroupIllegal
  let samplingSeed := (tasks.head?.map (·.samplingSeed)).getD []
  Tx.each (fun t => do
    Tx.require (env.validTaskID taskID t.nonce t.taskIDCommitment = true) .validationIllegal
    Tx.require (env.validVRFProof samplingSeed vrfProof publicKey t.creator true = true)
      .validationIllegal
    Tx.require (t.taskID = [] ∨ t.taskID = taskID) .validationIllegal) tasks
  Tx.require (¬ ∀ t ∈ tasks, t.taskID = taskID) .validationAlreadyApplied
  Tx.transaction (faults.settleTaskGroup env (tasks.map fun t => { t with taskID := taskID }) taskID)

end

end Faults

variable {faults : Faults} {i : Nat} {st : Statement}

/-! ## without failures -/

lemma bind_pure_unit (x : Relay Unit) : (x >>= fun _ => pure ()) = x := by
  funext s
  show andThen x (fun _ => ret ()) s = x s
  rcases h : x s with ⟨r, s1⟩
  cases r with
  | _ => simp only [andThen, h, ret]

lemma pass_of_none (h : faults st = none) : faults.pass st = pure () := by
  rw [Faults.pass, h]

lemma applyGroupStatus_of_none (hs : faults (.settle i) = none) (hf : faults (.finish i) = none) :
    faults.applyGroupStatus i env m next evidence finished = applyGroupStatus env next evidence finished m := by
  simp only [Faults.applyGroupStatus, Faults.setTaskStatusEndInvalidatedWithEvidence,
    Faults.setTaskStatusGroupValidated, Faults.setTaskStatusEndGroupRefund, Faults.setTaskStatusEndAborted,
    Faults.releaseAbortedNode, Faults.persistValidationGroupAbortedTaskQos, pass_of_none hs, pass_of_none hf]
  rfl

lemma settleMembers_of_none (h : ∀ j, i ≤ j → faults (.settle j) = none ∧ faults (.finish j) = none) :
    faults.settleMembers env next evidence finished i l =
      Tx.each (applyGroupStatus env next evidence finished) l := by
  induction l generalizing i with
  | nil => rfl
  | cons m l ih =>
    obtain ⟨hs, hf⟩ := h i (le_refl i)
    rw [Faults.settleMembers, applyGroupStatus_of_none hs hf, ih fun j hj => h j (Nat.le_of_succ_le hj)]
    rfl

/-- **without failures** it is the validation of the relay. -/
theorem validateTaskGroup_noFaults (h : ∀ st, faults st = none) (env : Env) (tasks : List InferenceTask)
    (taskID vrfProof publicKey : Text) : faults.validateTaskGroup env tasks taskID vrfProof publicKey =
      validateTaskGroup env tasks taskID vrfProof publicKey := by
  have hsettle : ∀ tasks, faults.settleTaskGroup env tasks taskID = settleTaskGroup env tasks taskID := by
    intro tasks
    simp only [Faults.settleTaskGroup, settleMembers_of_none fun j _ => ⟨h (.settle j), h (.finish j)⟩,
      pass_of_none (h .lock), pass_of_none (h .commit), bind_pure_unit]
    rfl
  simp only [Faults.validateTaskGroup, hsettle]
  rfl

/-! ## members that are settled -/

lemma pass_silent (hx : Ok (faults.pass st) w u w') : w' = w := by
  rw [Faults.pass] at hx
  split at hx
  · exact absurd hx ok_fail
  · exact (ok_pure.1 hx).2

lemma okAs_pass {α : Type} {g : Unit → Relay α} {x : Relay α} (h : OkAs (g ()) x) :
    OkAs (faults.pass st >>= g) x := by
  intro w a w' hx
  obtain ⟨_, w1, h1, h2⟩ := ok_bind.1 hx
  rw [pass_silent h1] at h2
  exact h w a w' h2

section
variable (faults : Faults) (i : Nat) (env : Env) (task : InferenceTask)

lemma okAs_aborted : OkAs (faults.setTaskStatusEndAborted i env task) (setTaskStatusEndAborted env task) := by
  unfold Faults.setTaskStatusEndAborted setTaskStatusEndAborted
  split
  · exact .refl _
  · refine .bind (.refl _) fun _ => .transaction (.bind (.refl _) fun node => .bind (.refl _) fun f => ?_)
    refine .bind (.refl _) fun _ => okAs_pass ?_
    cases node with
    | none => exact .refl _
    | some n => exact .bind (.bind (.refl _) fun _ => okAs_pass (.refl _)) fun _ => .refl _

/-- **a member that is settled** is settled as without failures. -/
theorem okAs_applyGroupStatus : OkAs (faults.applyGroupStatus i env task next evidence finished)
    (applyGroupStatus env next evidence finished task) := by
  unfold Faults.applyGroupStatus applyGroupStatus
  cases next task.taskIDCommitment with
  | endInvalidated =>
    refine .bind (.refl _) fun complete => .bind (.refl _) fun _ => .bind (.refl _) fun node => ?_
    exact .transaction (.bind (.refl _) fun _ => okAs_pass (.refl _))
  | groupValidated =>
    refine .bind (.refl _) fun _ => .bind (.refl _) fun node => .bind (.refl _) fun deadline => ?_
    refine .transaction (.bind (.refl _) fun _ => okAs_pass (.bind (.refl _) fun _ => ?_))
    exact fun w u w' hx => ok_pure.2 ⟨rfl, pass_silent hx⟩
  | endGroupRefund =>
    refine .bind (.refl _) fun _ => .bind (.refl _) fun node => .transaction (.bind (.refl _) fun f => ?_)
    exact okAs_pass (.bind (.refl _) fun _ => okAs_pass (.refl _))
  | _ =>
    dsimp only
    split
    · exact okAs_aborted faults i env _
    · exact .bind (.when (.bind (.refl _) fun _ => okAs_pass (.refl _))) fun _ => okAs_pass (.refl _)

end

/-! ## members that fail -/

/-- no balance, no score pool and no count of the memory differs; accounts can have been loaded. -/
structure Untouched (w w' : World) : Prop extends SameBalances w w' where
  pools : w'.mem.nodeQoSScorePool = w.mem.nodeQoSScorePool
  counts : w'.mem.nodeNameCountCache = w.mem.nodeNameCountCache

instance : Stable Untouched where
  refl := fun w => ⟨Stable.refl w, rfl, rfl⟩
  trans := fun _ _ _ h h' => ⟨Stable.trans _ _ _ h.toSameBalances h'.toSameBalances, h'.pools.trans h.pools,
    h'.counts.trans h.counts⟩
  rollback := fun _ _ h => ⟨h.undone.sameBalances, h.pools, h.counts⟩

instance {f : Db → Db} [h : SameAt (fun db => (f db).relayAccounts) (·.relayAccounts)] :
    Kept Untouched (Tx.modifyDb f : Relay Unit) :=
  ⟨fun w => ⟨(Kept.keeps : Tx.Keeps SameBalances (Tx.modifyDb f : Relay Unit)) w, rfl, rfl⟩⟩

instance : AccountSteps Untouched where
  load := fun a => by
    refine keeps_iff.2 ⟨fun w b w' h => ?_, fun w e w' h => absurd h fails_getRelayAccountFromCache⟩
    have hundone : Undone w w' := Kept.ok h
    obtain ⟨-, rfl⟩ := ok_getRelayAccountFromCache.1 h
    exact ⟨hundone.sameBalances, rfl, rfl⟩
  insert := fun _ => Kept.keeps

section
variable {r : World → World → Prop} [Stable r] {α : Type} {x : Relay α}

instance : Kept r (faults.pass st) := by
  unfold Faults.pass
  split
  · infer_instance
  · infer_instance

lemma onFail_transaction (h : KeptOnFail r x) : KeptOnFail r (transaction x) :=
  ⟨h.onFail.transaction fun s s' hs => Stable.rollback s s' hs⟩

end

instance {node : Node} : Kept SameBalances (faults.releaseAbortedNode i env task node) := by
  unfold Faults.releaseAbortedNode applyAbortQosScore applyAbortHealthPenalty
  infer_instance

instance : KeptOnFail SameBalances (faults.setTaskStatusEndAborted i env task) := by
  unfold Faults.setTaskStatusEndAborted
  split
  · infer_instance
  · refine onFail_bind fun _ => onFail_transaction (onFail_bind fun o => onFail_bind fun f => ?_)
    refine onFail_bind fun _ => onFail_bind fun _ => ?_
    cases o with
    | none => infer_instance
    | some n => infer_instance

/-- **a member that fails** leaves all balances: its refund is credited by its last step. -/
instance : KeptOnFail SameBalances (faults.applyGroupStatus i env task next evidence finished) := by
  unfold Faults.applyGroupStatus
  split
  · refine onFail_bind fun complete => onFail_bind fun _ => onFail_bind fun node => onFail_transaction ?_
    refine onFail_bind fun _ => onFail_bind fun _ => ?_
    split
    · unfold createPendingSlash
      infer_instance
    · exact ⟨fun w e w' h => (KeptOnFail.onFail (r := Undone) w e w' h).sameBalances⟩
  · unfold Faults.setTaskStatusGroupValidated
    refine onFail_bind fun _ => onFail_bind fun node => onFail_bind fun deadline => onFail_transaction ?_
    infer_instance
  · unfold Faults.setTaskStatusEndGroupRefund refundTaskPaymentToRelayAccount
    refine onFail_bind fun _ => onFail_bind fun node => onFail_transaction (onFail_bind fun f => ?_)
    refine onFail_bind fun _ => onFail_bind fun n => onFail_bind fun _ => onFail_bind fun _ => ?_
    infer_instance
  · split
    · infer_instance
    · unfold Faults.persistValidationGroupAbortedTaskQos InferenceTask.update
      infer_instance

instance {f : InferenceTask → InferenceTask} {hf : ∀ t, (f t).taskIDCommitment = t.taskIDCommitment} :
    Kept Untouched (task.updateStatus f hf) := by
  unfold InferenceTask.updateStatus
  infer_instance

section
variable (hs : faults (.settle i) = some e)
include hs

lemma onFail_settle {α : Type} {g : Unit → Relay α} : KeptOnFail Untouched (faults.pass (.settle i) >>= g) := by
  refine ⟨fun w e' w' h => ?_⟩
  rw [Faults.pass, hs] at h
  obtain ⟨-, rfl⟩ := fails_fail_bind.1 h
  exact Stable.refl _

lemma onFail_persistAborted : KeptOnFail Untouched (faults.persistValidationGroupAbortedTaskQos i env task) := by
  refine ⟨fun w e' w' hfail => ?_⟩
  rcases fails_bind.1 hfail with h | ⟨_, w1, hok, h⟩
  · rcases fails_bind.1 (fails_when.1 h).2 with h | ⟨node, w1, hnode, h⟩
    · exact Kept.fails h
    · exact Stable.trans _ _ _ (Kept.ok hnode) ((onFail_settle hs).onFail w1 e' w' h)
  · rcases ok_when.1 hok with ⟨-, hok⟩ | ⟨-, rfl⟩
    · obtain ⟨node, w2, -, hok⟩ := ok_bind.1 hok
      obtain ⟨_, w3, hpass, -⟩ := ok_bind.1 hok
      rw [Faults.pass, hs] at hpass
      exact absurd hpass ok_fail
    · -- there is no score to write, only the row
      have hrest : Kept Untouched (do
          faults.pass (.finish i)
          task.update (fun t => t.rescored task) (key_rescored task)) := by
        unfold InferenceTask.update
        infer_instance
      exact hrest.keeps.fails h

lemma onFail_aborted : KeptOnFail Untouched (faults.setTaskStatusEndAborted i env task) := by
  unfold Faults.setTaskStatusEndAborted
  split
  · infer_instance
  · refine onFail_bind fun _ => onFail_transaction (onFail_bind fun o => onFail_bind fun f => ?_)
    exact onFail_bind fun _ => onFail_settle hs

/-- **a member that fails before the score of its node** leaves no trace. -/
lemma onFail_before_score : KeptOnFail Untouched (faults.applyGroupStatus i env task next evidence finished) := by
  unfold Faults.applyGroupStatus
  split
  · refine onFail_bind fun complete => onFail_bind fun _ => onFail_bind fun node => onFail_transaction ?_
    exact onFail_bind fun _ => onFail_settle hs
  · refine onFail_bind fun _ => onFail_bind fun node => onFail_bind fun deadline => onFail_transaction ?_
    exact onFail_bind fun _ => onFail_settle hs
  · unfold Faults.setTaskStatusEndGroupRefund refundTaskPaymentToRelayAccount
    refine onFail_bind fun _ => onFail_bind fun node => onFail_transaction ?_
    exact onFail_bind fun _ => onFail_settle hs
  · split
    · exact onFail_aborted hs
    · exact onFail_persistAborted hs

end

/-! ## the loop -/

/-- the balances have grown by the fees of the given members. -/
def Credited (ms : List InferenceTask) (w w' : World) : Prop :=
  w'.db.relayAccounts = w.db.relayAccounts ∧ ∀ a, cachedBalance w' a =
    cachedBalance w a + (ms.map fun m => if m.creator = a then m.taskFee else 0).sum

lemma SameBalances.credited (h : SameBalances w w') : Credited [] w w' :=
  ⟨h.accounts, fun a => by rw [h.cached, map_nil, sum_nil, add_zero]⟩

lemma Posts.credited_nil (h : Posts [] w w') : Credited [] w w' :=
  ⟨h.accounts, fun a => by rw [h.cached, map_nil, total_nil, map_nil, sum_nil]⟩

lemma Posts.credited (h : Posts [refundDraft task] w w') : Credited [task] w w' := by
  refine ⟨h.accounts, fun a => ?_⟩
  rw [h.cached, map_singleton, total_cons, total_nil, map_singleton, sum_singleton, add_zero]
  rfl

lemma Credited.trans {ms ms' : List InferenceTask} {w'' : World} (h : Credited ms w w') (h' : Credited ms' w' w'') :
    Credited (ms ++ ms') w w'' := by
  refine ⟨h'.1.trans h.1, fun a => ?_⟩
  rw [h'.2, h.2, map_append, sum_append, add_assoc]

lemma applyGroupStatus_credits (hok : Ok (applyGroupStatus env next evidence finished task) w u w') :
    Credited [] w w' ∨ Credited [task] w w' := by
  unfold applyGroupStatus at hok
  split at hok
  · obtain ⟨complete, -, hok⟩ := ok_orFail_bind.1 hok
    obtain ⟨-, -, hm, -⟩ := setTaskStatusEndInvalidated_ok hok
    exact .inl hm.posts.credited_nil
  · obtain ⟨-, -, deadline, -, hm⟩ := setTaskStatusGroupValidated_ok hok
    exact .inl hm.posts.credited_nil
  · obtain ⟨-, -, hm, -⟩ := setTaskStatusEndGroupRefund_ok hok
    exact .inr hm.posts.credited
  · split at hok
    · rcases setTaskStatusEndAborted_ok hok with ⟨-, rfl⟩ | ⟨-, -, ds, ⟨hreason, -⟩ | ⟨-, rfl⟩, hm, -⟩
      · exact .inl (SameBalances.credited (Stable.refl _))
      · change (if finished < 2 then TaskAbortReason.groupTimeout else .incorrectResult) = _ at hreason
        split at hreason
        · cases hreason
        · cases hreason
      · exact .inr hm.posts.credited
    · exact .inl (persistAborted_ok hok).posts.credited_nil

/-- **the loop**, wherever it ends, has credited the members that it has refunded. -/
lemma settleMembers_credits (faults : Faults) : ∃ ms, ms.Sublist l ∧
    Credited ms w (after (faults.settleMembers env next evidence finished i l) w) := by
  induction l generalizing i w with
  | nil => exact ⟨[], .slnil, SameBalances.credited (Stable.refl _)⟩
  | cons m l ih =>
    rw [Faults.settleMembers]
    rcases ok_or_fails (faults.applyGroupStatus i env m next evidence finished) w with ⟨_, hok⟩ | ⟨e, hf⟩
    · rw [hok.after_bind]
      obtain ⟨ms, hsub, hms⟩ := ih (i := i + 1) (w := after (faults.applyGroupStatus i env m next evidence finished) w)
      rcases applyGroupStatus_credits (okAs_applyGroupStatus faults i env m w _ _ hok) with h | h
      · exact ⟨ms, hsub.cons m, h.trans hms⟩
      · exact ⟨m :: ms, hsub.cons_cons m, h.trans hms⟩
    · rw [(fails_bind.2 (.inl hf)).after_eq]
      exact ⟨[], nil_sublist _, SameBalances.credited (KeptOnFail.onFail w e _ hf)⟩

/-- only the locks, and statements of the first member before the score of its node, can fail. -/
def Faults.Early (faults : Faults) : Prop := ∀ st, faults st ≠ none → st = .lock ∨ st = .settle 0

lemma Faults.Early.eq_none (h : faults.Early) (h1 : st ≠ .lock) (h2 : st ≠ .settle 0) : faults st = none := by
  by_contra hne
  exact (h st hne).elim h1 h2

/-- **before the first score**: of the members of a group whose statuses fit, only the first one can fail. -/
lemma settleMembers_untouched (h : LoopReady env next evidence l w) (hearly : faults.Early)
    (hf : Fails (faults.settleMembers env next evidence finished 0 l) w e w') : Untouched w w' := by
  have hnone : ∀ j, 1 ≤ j → faults (.settle j) = none ∧ faults (.finish j) = none := fun j hj =>
    ⟨hearly.eq_none nofun fun he => by cases he; omega, hearly.eq_none nofun nofun⟩
  cases l with
  | nil => exact absurd hf fails_pure
  | cons m l =>
    rw [Faults.settleMembers, settleMembers_of_none hnone] at hf
    -- no member fails by itself, so the first one fails at its statement
    obtain ⟨_, w1, hok, hl⟩ := h.total finished
    rcases fails_bind.1 hf with hf | ⟨_, w2, hok', hf⟩
    · cases hs : faults (.settle 0) with
      | some e => exact (onFail_before_score hs).onFail _ _ _ hf
      | none =>
        rw [applyGroupStatus_of_none hs (hearly.eq_none nofun nofun)] at hf
        exact absurd hf hok.not_fails
    · obtain ⟨-, rfl⟩ := ok_pair.1 ((okAs_applyGroupStatus faults 0 env m w _ _ hok').symm.trans hok)
      exact absurd hf (total_members hl).not_fails

/-! ## failed validations -/

section
variable {tasks : List InferenceTask} {taskID vrfProof publicKey : Text}

lemma settleTaskGroup_fails (hr : Registered w.db)
    (h : Fails (faults.settleTaskGroup env ((sortBy (fun t1 t2 => t1.id < t2.id) tasks).map fun t =>
      { t with taskID := taskID }) taskID) w e w') :
    w' = w ∨ ∃ next evidence finished ms, AtLoop env w.db tasks taskID next evidence ms ∧
      w' = after (faults.settleMembers env next evidence finished 0 ms) w ∧
      (Fails (faults.settleMembers env next evidence finished 0 ms) w e w' ∨ faults .commit ≠ none) := by
  rw [Faults.settleTaskGroup, fails_bind] at h
  rcases h with h | ⟨_, w1, hlock, h⟩
  · exact .inl (Kept.fails (r := Same) h)
  obtain rfl := pass_silent hlock
  rw [fails_bind] at h
  rcases h with h | ⟨refreshed, w1, hrefresh, h⟩
  · exact .inl (Kept.fails (r := Same) h)
  rw [refreshValidationGroupTasksForFinalUpdate, ok_bind] at hrefresh
  obtain ⟨locked, w2, hlock, hrefresh⟩ := hrefresh
  obtain ⟨hthree, hlen, hlocked, rfl⟩ := ok_lockValidationGroupTasks.1 hlock
  rw [ok_require_bind, ok_require_bind, ok_require_bind, ok_pure] at hrefresh
  obtain ⟨-, -, hgrouped, rfl, rfl⟩ := hrefresh
  have hperm := refreshedRows_perm hr.ids hthree hlen hlocked
  rw [fails_require_bind, fails_orFail_bind] at h
  rcases h with ⟨-, -, rfl⟩ | ⟨-, ⟨-, -, rfl⟩ | ⟨next, hnext, h⟩⟩
  · exact .inl rfl
  · exact .inl rfl
  rcases fails_bind.1 h with hbuild | ⟨evidence, w2, hev, hloop⟩
  · exact .inl (Kept.fails (r := Same) hbuild)
  obtain rfl : w2 = w1 := Kept.ok (r := Same) hev
  have hat : AtLoop env w2.db tasks taskID next evidence (settledMembers taskID refreshed) :=
    ⟨⟨refreshed, hperm.length_eq.trans hlen, hperm, rfl⟩, fun r hr => hgrouped r (hperm.mem_iff.2 hr), hnext,
      buildEvidence_lookup hev⟩
  rcases fails_bind.1 hloop with hloop | ⟨_, w3, hloop, hcommit⟩
  · exact .inr ⟨next, evidence, _, _, hat, hloop.after_eq.symm, .inl hloop⟩
  · have hw : w' = w3 := Kept.fails (r := Same) hcommit
    refine .inr ⟨next, evidence, _, _, hat, hw.trans hloop.after_eq.symm, .inr fun hnone => ?_⟩
    rw [pass_of_none hnone] at hcommit
    exact absurd hcommit fails_pure

/-- **a validation fails before it has changed anything**, or in the loop, or at the commit. -/
theorem validateTaskGroup_fails_inv (hr : Registered w.db)
    (h : Fails (faults.validateTaskGroup env tasks taskID vrfProof publicKey) w e w') :
    w' = w ∨ ∃ next evidence finished ms w1, AtLoop env w.db tasks taskID next evidence ms ∧
      w1 = after (faults.settleMembers env next evidence finished 0 ms) w ∧ w' = ⟨w.db, w1.mem⟩ ∧
      (Fails (faults.settleMembers env next evidence finished 0 ms) w e w1 ∨ faults .commit ≠ none) := by
  rw [Faults.validateTaskGroup, fails_require_bind, fails_require_bind] at h
  rcases h with ⟨-, -, rfl⟩ | ⟨-, ⟨-, -, rfl⟩ | ⟨-, h⟩⟩
  · exact .inl rfl
  · exact .inl rfl
  rcases fails_bind.1 h with hcheck | ⟨_, w1, hcheck, hrest⟩
  · exact .inl (Kept.fails (r := Same) hcheck)
  obtain rfl : w1 = w := Kept.ok (r := Same) hcheck
  rw [fails_require_bind, fails_transaction] at hrest
  rcases hrest with ⟨-, -, rfl⟩ | ⟨-, w2, hsettle, rfl⟩
  · exact .inl rfl
  rcases settleTaskGroup_fails hr hsettle with rfl | ⟨next, evidence, finished, ms, hat, hw, hloop⟩
  · exact .inl rfl
  · exact .inr ⟨next, evidence, finished, ms, w2, hat, hw, rfl, hloop⟩

/-- what a failed validation leaves of the state before it. -/
structure FailedValidation (env : Env) (faults : Faults) (tasks : List InferenceTask) (taskID : Text)
    (w w' : World) : Prop where
  rows : w'.db = w.db
  credited : ∃ refunded : List InferenceTask, (refunded.map (·.taskIDCommitment)).Nodup ∧
    (∀ m ∈ refunded, ∃ r ∈ lockedRows w.db tasks, SameMember taskID r m) ∧ Credited refunded w w'
  untouched : CountsExact w.db →
    (∀ a n, w.db.nodes.get a = some n → (env.stakingStatus n.address n.network).isSome = true) →
    ¬ AgreeOnError (lockedRows w.db tasks) → faults.Early → Untouched w w'

end

def failsAt (st : Statement) : Faults := fun st' => if st' = st then some .invalidStatement else none

def validateOver (faults : Faults) (s : RelayState) : Relay Unit :=
  faults.validateTaskGroup checkingEnv (groupCopies s) "0xc".toList "0x50xa1".toList "0xa1".toList

lemma early_failsAt : (failsAt (.settle 0)).Early := by
  intro st hst
  by_contra hne
  rw [not_or] at hne
  exact hst (if_neg hne.2)

end CrynuxRelay
