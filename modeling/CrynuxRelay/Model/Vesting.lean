import CrynuxRelay.Base.Keyset
import CrynuxRelay.Model.System

/-!
# Rounds of vesting releases

A round checks first that no release is pending, and then reads the active records page by page and
releases what is due of each one in a transaction of its own.  Other parts of the relay work in between.

* `createVestingRecord`, `restoreNodeVestings` -- the other operations on the records;
* `ReleaseRound` -- a round of `ProcessDueVestingReleases` that has passed its check;
* `VestingStep`, `VestingStep.exec` -- the parts of the rounds, the slashes, the restores and the
  batches of the projector, in any order; the rounds are those of one loop.
-/

namespace CrynuxRelay

/-! ## records -/

structure NewVesting where
  address : Text
  totalAmount : Int
  startTime : Time
  durationDays : Nat

def NewVesting.record (input : NewVesting) (id : Nat) : VestingRecord :=
  { id := id
    address := input.address
    totalAmount := input.totalAmount
    releasedAmount := 0
    startTime := input.startTime
    durationDays := input.durationDays }

/-- the record and its event, under the next number of the auto-increment column. -/
def createVestingRecord (id : Nat) (input : NewVesting) : Relay Unit := do
  Tx.require (0 < input.durationDays) (.validationError "duration_days" "invalid vesting duration")
  Tx.require (0 < input.totalAmount ∧ input.totalAmount < 2 ^ 256)
    (.validationError "total_amount" "invalid vesting amount")
  Tx.transaction do
    let db ← Tx.getDb
    Tx.require (0 < id ∧ id < 2 ^ 64 ∧ db.vestingRecords.get id = none) .duplicateKey
    Tx.modifyDb fun db =>
      { db with vestingRecords := db.vestingRecords.insert (input.record id) }
    createRelayAccountEvent .vestingCreated (reason2 .vestingCreated (Text.decimal id))
      input.address 0

def restoreNodeVestings (address : Text) : Relay Unit :=
  Tx.modifyDb fun db =>
    { db with
      vestingRecords := db.vestingRecords.mapRows (fun v =>
        if v.address = address ∧ v.slashed = true then { v with slashed := false } else v)
        fun v => by split <;> rfl }

/-! ## rounds -/

/-- a round in progress: its time, the last record it has visited and the rest of its page. -/
structure ReleaseRound where
  env : Env
  startID : Nat := 0
  todo : List Nat := []

def ReleaseRound.next (r : ReleaseRound) (id : Nat) (rest : List Nat) : ReleaseRound :=
  { r with startID := id, todo := rest }

def releasePage (db : Db) (startID batchSize : Nat) : List VestingRecord :=
  Keyset.page VestingRecord.id (if batchSize = 0 then 100 else batchSize) (some startID)
    (db.vestingRecords.rows.filter fun v => v.status = .active ∧ v.slashed = false)

/-- the relay with the round in progress; `latest` is the latest time of a round so far. -/
structure VestingState where
  world : World
  round : Option ReleaseRound := none
  latest : Option Time := none

inductive VestingStep
  | create (id : Nat) (input : NewVesting)
  | post (t : RelayAccountEventType) (x address : Text) (amount : Int)
  | slash (address : Text)
  | restore (address : Text)
  | project (chain : Chain) (limit : Nat)
  | beginRound (env : Env)
  | readPage (batchSize : Nat)
  | releaseNext
  | stop

namespace VestingState

def withWorld (s : VestingState) (w : World) : VestingState := { s with world := w }

/-- the release of the next record; an error ends the round. -/
def release (s : VestingState) (r : ReleaseRound) (id : Nat) (rest : List Nat) : VestingState :=
  match processSingleVestingRelease r.env id s.world with
  | (.ok _, w) => { s with world := w, round := some (r.next id rest) }
  | (.error _, w) => { s with world := w, round := none }

end VestingState

namespace VestingStep

def exec : VestingStep → VestingState → VestingState
  | create id input, s => s.withWorld (Tx.after (createVestingRecord id input) s.world)
  | post t x address amount, s =>
    -- the events of other parts of the relay
    if t = .vestingRelease then s
    else s.withWorld (Tx.after (createRelayAccountEvent t (reason2 t x) address amount) s.world)
  | slash address, s => s.withWorld (Tx.after (slashNodeVestingsTx address) s.world)
  | restore address, s => s.withWorld (Tx.after (restoreNodeVestings address) s.world)
  | project chain limit, s => s.withWorld (Tx.after (projectPending chain limit) s.world)
  | beginRound env, s =>
    match s.round with
    | some _ => s
    | none =>
      if hasPendingVestingReleaseEvent s.world.db then s
      else
        { s with
          round := some { env := env }
          latest := some (max env.now (s.latest.getD env.now)) }
  | readPage batchSize, s =>
    match s.round with
    | some r =>
      if r.todo = [] then
        match releasePage s.world.db r.startID batchSize with
        | [] => { s with round := none }
        | page => { s with round := some { r with todo := page.map (·.id) } }
      else s
    | none => s
  | releaseNext, s =>
    match s.round with
    | some r =>
      match r.todo with
      | id :: rest => s.release r id rest
      | [] => s
    | none => s
  | stop, s => { s with round := none }

end VestingStep

end CrynuxRelay
