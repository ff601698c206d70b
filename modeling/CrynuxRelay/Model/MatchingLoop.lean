import CrynuxRelay.Base.Keyset
import CrynuxRelay.Model.Matching
import Mathlib.Data.Prod.Lex

/-!
# A whole round of the matching, with its errors

The round reads the queued tasks page by page, the highest priority first, matches each one, and starts
the pairs when it has read enough.  An error of one task ends the round.

* `RoundInput` -- what a round finds outside: the order of the queue, the draws, and which checks fail;
* `processTask`, `matchTasks`, `matchPages` -- a task, a page, and the loop over the pages;
* `runMatchingRound` -- the loop and then the starts.
-/

namespace CrynuxRelay

/-- the settings of a round and the answers it gets.  `modelCheckError` is an error of the whitelist
check other than `ErrModelNotWhitelisted`; `abortError` is an error of the database in the abort of a task
that is not allowed, which is then rolled back; `candidateError` is an error of the candidate set, whose
causes are columns of the signature. -/
structure RoundInput where
  env : Env
  policy : NodeNamePolicy := {}
  batchSize : Nat
  batchSize_pos : 0 < batchSize
  priority : Text → Int := fun _ => 0
  modelCheckError : InferenceTask → Option Err := fun _ => none
  abortError : InferenceTask → Option Err := fun _ => none
  candidateError : RequirementSignature → Option Err := fun _ => none
  draw : InferenceTask → Nat := fun _ => 0

namespace RoundInput

variable (r : RoundInput)

/-! ## the queue -/

/-- `priority DESC, id ASC`. -/
def orderKey (t : InferenceTask) : Int ×ₗ Nat := toLex (-r.priority t.taskIDCommitment, t.id)

def fetchQueuedTaskPage (db : Db) (last : Option (Int × Nat)) : List InferenceTask :=
  let queued := db.tasks.rows.filter fun t => t.status = .queued
  let matching := queued.filter fun t => last.all fun c =>
    decide (r.priority t.taskIDCommitment < c.1 ∨ (r.priority t.taskIDCommitment = c.1 ∧ c.2 < t.id))
  (matching.insertionSort fun t u => r.orderKey t ≤ r.orderKey u).take r.batchSize

/-! ## phase one -/

/-- the draw is a position of the available candidates, if there are any. -/
def matchTask (round : MatchingRound) (task : InferenceTask) : MatchingRound :=
  round.matchTask r.env r.policy task
    (r.draw task % (round.available (round.candidates r.env r.policy task)).length)

def processTask (round : MatchingRound) (task : InferenceTask) : Relay MatchingRound :=
  if isQueuedTaskTimedOut r.env task then pure round
  else
    match r.modelCheckError task with
    | some e => Tx.fail e
    | none =>
      if r.env.taskModelsAllowed task = false then
        match r.abortError task with
        | some e => Tx.fail e
        | none => do
          setTaskStatusEndAborted r.env { task with abortReason := .modelNotAllowed }
          pure round
      else if round.candidateSets.lookup task.requirementSignature = none then
        match r.candidateError task.requirementSignature with
        | some e => Tx.fail e
        | none => pure (r.matchTask round task)
      else pure (r.matchTask round task)

def matchTasks : List InferenceTask → MatchingRound → Relay MatchingRound
  | [], round => pure round
  | t :: l, round => do
    let round' ← r.processTask round t
    matchTasks l round'

end RoundInput

def MatchingRound.hasUnreservedEligibleNode (round : MatchingRound) : Bool :=
  round.entries.any fun e => decide (e.status = .available) && !e.hasCurrentTask &&
    decide (e.address ∉ round.pairs.map (·.nodeAddress))

namespace RoundInput

variable (r : RoundInput)

/-- the loop over the pages; a full page takes the cursor past a task, so `fuel` is not used up. -/
def matchPages : Nat → Option (Int × Nat) → MatchingRound → Relay MatchingRound
  | 0, _, round => pure round
  | fuel + 1, last, round => do
    let db ← Tx.getDb
    let tasks := r.fetchQueuedTaskPage db last
    if tasks = [] then pure round
    else do
      let round' ← r.matchTasks tasks round
      let last' := tasks.getLast?.map fun t => (r.priority t.taskIDCommitment, t.id)
      if tasks.length < r.batchSize ∨ round'.hasUnreservedEligibleNode = false then pure round'
      else matchPages fuel last' round'

/-! ## phase two -/

/-- the starts of the pairs; one that fails does not hold up the others. -/
def startMatchedPairs (pairs : List MatchedPair) : Relay Unit :=
  Tx.each (fun pair => do
    let _ ← Tx.attempt (startMatchedPair r.env pair)
    pure ()) pairs

def matchQueue (entries : List NodeIndexEntry) : Relay MatchingRound := do
  let db ← Tx.getDb
  r.matchPages (db.tasks.rows.length + 1) none { entries := entries }

def runMatchingRound (entries : List NodeIndexEntry) : Relay Nat := do
  let round ← r.matchQueue entries
  r.startMatchedPairs round.pairs
  pure round.pairs.length

end RoundInput

end CrynuxRelay
