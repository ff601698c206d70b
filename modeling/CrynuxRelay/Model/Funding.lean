import CrynuxRelay.Model.Withdraw

/-!
# Deposits and vesting releases

Money that enters the accounts from outside: deposits that the block processor finds on a chain, and
the releases of vested amounts.

* `createDeposit`, `depositRelayAccount` -- the event of a deposit is committed before the balance is
  loaded and incremented; `processDeposit` -- the replay guard in front of it;
* `computeVestingShouldReleased` -- the part of a vesting that is due;
* `processDueVestingReleases` -- a round of releases, skipped while an earlier release is pending.
-/

namespace CrynuxRelay

variable (successful : Bool) (vestingID : Nat) (txHash address network : Text)

/-! ## deposits -/

def depositReason : Text := reason3 .deposit txHash network

def createDeposit (amount : Int) (network : Text) : Relay Unit :=
  Tx.transaction do
    let eventID ← createRelayAccountEventWithID .deposit (depositReason txHash network) address amount
    Tx.modifyDb fun db =>
      { db with
        depositRecords := db.depositRecords ++
          [⟨address, amount, network, txHash, .pending, eventID⟩] }

def depositRelayAccount (amount : Int) (network : Text) : Relay CommitFunc := do
  createDeposit txHash address amount network
  let _ ← getRelayAccountFromCache address
  pure [⟨address, amount⟩]

def hasDepositEvent (db : Db) (txHash network : Text) : Bool :=
  db.relayAccountEvents.reasonTaken (depositReason txHash network)

/-- a deposit found on a chain; one that failed there or has an event is skipped. -/
def processDeposit (d : DepositTxData) : Relay Unit := do
  let db ← Tx.getDb
  Tx.when (successful = true ∧ hasDepositEvent db txHash network = false) do
    let commitFunc ← depositRelayAccount txHash d.fromAddress d.amount network
    runCommitFunc commitFunc

def processRelayAccountDepositTransfer (transfer : TransactionTransfer) : Relay Unit :=
  processDeposit successful txHash network ⟨transfer.sender, transfer.value⟩

/-- `depositLog` is the parsed log; a log that does not parse is skipped. -/
def processERC20DepositLog (depositLog : Option DepositTxData) : Relay Unit :=
  match depositLog with
  | none => pure ()
  | some d => processDeposit successful txHash network d

/-! ## vesting -/

def nanosPerDay : Time := 86400 * 10 ^ 9

/-- the whole days between two times; `time.Duration` saturates. -/
def elapsedDays (start now : Time) : Int :=
  min (dayStart now - dayStart start) (2 ^ 63 - 1) / nanosPerDay

def computeVestingShouldReleased (totalAmount : Int) (start : Time) (durationDays : Nat)
    (now : Time) : Int :=
  if totalAmount ≤ 0 ∨ durationDays = 0 ∨ now < start then 0
  else if durationDays ≤ elapsedDays start now then totalAmount
  else totalAmount * elapsedDays start now / durationDays

def VestingRecord.lockedAmountAt (v : VestingRecord) (now : Time) : Int :=
  if v.status = .deprecated then 0
  else max (v.totalAmount -
    computeVestingShouldReleased v.totalAmount v.startTime v.durationDays now) 0

def vestingReleaseReason (fromReleased toReleased : Int) : Text :=
  reason4 .vestingRelease (Text.decimal vestingID) (Text.ofInt fromReleased) (Text.ofInt toReleased)

def releaseVestingToRelayAccount (fromReleased toReleased : Int) : Relay CommitFunc := do
  Tx.require (fromReleased ≤ toReleased) .invalidReleaseRange
  Tx.require (0 < toReleased - fromReleased) .releaseAmountNotPositive
  let db ← Tx.getDb
  Tx.require (db.relayAccountEvents.reasonTaken
    (vestingReleaseReason vestingID fromReleased toReleased) = false) .vestingReleaseRangeInvalid
  creditRelayAccount .vestingRelease (vestingReleaseReason vestingID fromReleased toReleased) address
    (toReleased - fromReleased)

def updateVestingRecord (f : VestingRecord → VestingRecord) (hf : ∀ v, (f v).id = v.id) :
    Relay Unit :=
  Tx.modifyDb fun db => { db with vestingRecords := db.vestingRecords.modify vestingID f hf }

def releaseDueVesting (env : Env) (record : VestingRecord) : Relay Unit := do
  let shouldReleased := computeVestingShouldReleased record.totalAmount record.startTime
    record.durationDays env.now
  if shouldReleased ≤ record.releasedAmount then
    Tx.when (record.totalAmount ≤ record.releasedAmount)
      (updateVestingRecord record.id (fun v => { v with status := .completed }) fun _ => rfl)
  else
    Tx.require (shouldReleased ≤ record.totalAmount) .vestingReleaseExceedsSchedule
    let commitFunc ← releaseVestingToRelayAccount record.id record.address record.releasedAmount
      shouldReleased
    updateVestingRecord record.id (fun v => { v with
      releasedAmount := shouldReleased
      status := if shouldReleased = record.totalAmount then .completed else .active }) fun _ => rfl
    runCommitFunc commitFunc

def processSingleVestingRelease (env : Env) (vestingID : Nat) : Relay Unit :=
  Tx.transaction do
    let db ← Tx.getDb
    let record ← Tx.orFail (db.vestingRecords.get vestingID) .vestingRecordNotFound
    Tx.when (record.status = .active ∧ record.slashed = false) (releaseDueVesting env record)

def hasPendingVestingReleaseEvent (db : Db) : Bool :=
  db.relayAccountEvents.rows.any fun e => e.type = .vestingRelease ∧ e.status = .pending

/-- the records that a round of releases visits; ids count up, so the rows are in their order. -/
def dueVestingIDs (db : Db) : List Nat :=
  (db.vestingRecords.rows.filter fun v => v.status = .active ∧ v.slashed = false).map (·.id)

def processDueVestingReleases (env : Env) : Relay Unit := do
  let db ← Tx.getDb
  Tx.when (hasPendingVestingReleaseEvent db = false)
    (Tx.each (processSingleVestingRelease env) (dueVestingIDs db))

end CrynuxRelay
