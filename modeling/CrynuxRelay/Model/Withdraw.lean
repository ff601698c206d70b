import CrynuxRelay.Model.Node

/-!
# Withdrawals

A withdrawal is a record and a charge of the amount and the fee.  The relay wallet resolves the
record later: fulfilled, and the fee goes to the fee address, or rejected, and the charge goes back.

* `calculateWithdrawalFee`, `withdraw`, `createWithdrawRequest` -- the request;
* `fulfillWithdraw`, `rejectWithdraw` -- the resolutions.  Each reads the record and then writes from
  what it has read: `fulfillWithdrawRecord` and `rejectWithdrawRecord` are the parts after the read.
-/

namespace CrynuxRelay

/-! ## the fee -/

def etherToWei (ether : Nat) : Int := (ether : Int) * 10 ^ 18

/-- the ratio of the last tier before the first one that `amount` does not reach. -/
def withdrawalFeeRatio (amount : Int) : Rat → List (Nat × Rat) → Rat
  | ratio, [] => ratio
  | ratio, tier :: tiers =>
    if amount < etherToWei tier.1 then ratio else withdrawalFeeRatio amount tier.2 tiers

/-- the fixed fee, and the share of the amount rounded towards zero. -/
def calculateWithdrawalFee (network : FundingNetwork) (amount : Int) : Int :=
  let fee := etherToWei network.withdrawalFee
  let ratio := withdrawalFeeRatio amount 0 network.withdrawalFeeTiers
  if 0 < ratio then fee + (amount * ratio.num).tdiv ratio.den else fee

/-! ## requests -/

def dayStart (now : Time) : Time := now - now % (86400 * 10 ^ 9)

def todayCount (db : Db) (now : Time) (network : Text) (p : WithdrawRecord → Bool) : Nat :=
  db.withdrawRecords.count fun r =>
    p r && decide (r.network = network ∧ dayStart now ≤ r.createdAt ∧ r.status ≠ .failed)

/-- the next number of the auto-increment column, while there is one. -/
def nextWithdrawID (db : Db) : Nat := db.withdrawRecords.keys.foldl max 0 + 1

variable (env : Env) (withdrawID : Nat) (record : WithdrawRecord)

def createWithdrawRecord : Relay Nat := do
  let db ← Tx.getDb
  Tx.require (nextWithdrawID db < 2 ^ 64) .duplicateKey
  Tx.modifyDb fun db =>
    { db with withdrawRecords := db.withdrawRecords.insert { record with id := nextWithdrawID db } }
  pure (nextWithdrawID db)

/-- `Updates` of a record by its id, whatever the row holds. -/
def updateWithdrawRecord (f : WithdrawRecord → WithdrawRecord) (hf : ∀ r, (f r).id = r.id) :
    Relay Unit :=
  Tx.modifyDb fun db => { db with withdrawRecords := db.withdrawRecords.modify withdrawID f hf }

/-- the charge of a withdrawal, with the decrement of the cache.  The commit checks the balance
again; between the two checks the balance does not change. -/
def chargeWithdrawFromRelayAccount (address : Text) (amount : Int) : Relay (Nat × CommitFunc) := do
  let balance ← getRelayAccountFromCache address
  Tx.require (amount ≤ balance) .insufficientRelayAccount
  let eventID ← createRelayAccountEventWithID .withdraw
    (reason2 .withdraw (Text.decimal withdrawID)) address amount
  pure (eventID, [⟨address, -amount⟩])

def withdrawalFeeOf (network : FundingNetwork) (address : Text) (amount : Int) : Int :=
  if address = env.withdrawalFeeAddress ∨ address = env.daoTaskFeeShareAddress then 0
  else calculateWithdrawalFee network amount

def withdraw (address benefitAddress : Text) (amount : Int) (network : Text) : Relay Nat := do
  let networkConfig ← Tx.orFail (env.fundingNetwork network) .unsupportedWithdrawNetwork
  let withdrawalFee := withdrawalFeeOf env networkConfig address amount
  Tx.transaction do
    let db ← Tx.getDb
    Tx.require (todayCount db env.now network (fun r => r.address = address) <
      networkConfig.maxWithdrawalsPerDay) .withdrawDailyLimitExceeded
    Tx.require (todayCount db env.now network (fun r => r.benefitAddress = benefitAddress) <
      networkConfig.maxWithdrawalsPerDay) .withdrawDailyLimitExceeded
    let id ← createWithdrawRecord
      { id := 0, address, benefitAddress, amount, network, withdrawalFee, createdAt := env.now }
    let charge ← chargeWithdrawFromRelayAccount id address (amount + withdrawalFee)
    updateWithdrawRecord id (fun r => { r with relayAccountEventID := charge.1 }) fun _ => rfl
    runCommitFunc charge.2
    pure id

/-- the fields of a withdraw request; `signer` is the address recovered from the signature. -/
structure CreateWithdrawInput where
  address : Text
  amount : Text
  benefitAddress : Text
  network : Text
  signer : Option Text

def isHexAddress (s : Text) : Bool :=
  let digits := match s with
    | '0' :: 'x' :: r | '0' :: 'X' :: r => r
    | r => r
  digits.length = 40 ∧ digits.all fun c =>
    c.isDigit || (decide ('a' ≤ c) && decide (c ≤ 'f')) || (decide ('A' ≤ c) && decide (c ≤ 'F'))

/-- the handler; an amount that is no number fails before it is used. -/
def createWithdrawRequest (userAddress : Text) (input : CreateWithdrawInput) : Relay Nat := do
  Tx.require (userAddress = input.address) (.validationError "address" "Address mismatch")
  let signer ← Tx.orFail input.signer (.validationError "signature" "Invalid signature")
  Tx.require (signer = input.address) (.validationError "address" "Signature address mismatch")
  let networkConfig ← Tx.orFail (env.fundingNetwork input.network)
    (.validationError "network" "Unsupported withdraw network")
  let amount ← Tx.orFail (Text.parseInt input.amount) .invalidStatement
  Tx.require (etherToWei networkConfig.withdrawalMin ≤ amount)
    (.validationError "amount" "Amount is too small")
  let expected ← Tx.orFail (env.benefitAddress input.address input.network) .chain
  Tx.require (isHexAddress input.benefitAddress = true ∧
    equalFold expected input.benefitAddress = true)
    (.validationError "benefit_address" "Benefit address mismatch")
  Tx.mapErr (fun
    | .insufficientRelayAccount =>
      .validationError "amount" "Insufficient relay account balance"
    | .withdrawDailyLimitExceeded => .validationError "amount" "Daily withdrawal limit exceeded"
    | e => e) (withdraw env input.address input.benefitAddress amount input.network)

/-! ## resolutions -/

def getWithdrawRecord : Relay WithdrawRecord := do
  let db ← Tx.getDb
  Tx.orFail (db.withdrawRecords.get withdrawID) .recordNotFound

/-- the part of `FulfillWithdraw` after the read. -/
def fulfillWithdrawRecord (txHash : Text) : Relay Unit :=
  Tx.when (record.status ≠ .success) do
    Tx.require (record.localStatus = .processed) .withdrawRequestNotProcessedLocally
    Tx.require (record.status = .pending) .withdrawRequestNotPending
    updateWithdrawRecord record.id
      (fun r => { r with status := .success, txHash := some txHash }) fun _ => rfl
    Tx.when (0 < record.withdrawalFee) do
      let commitFunc ← fulfillWithdrawFeeIncome record.id env.withdrawalFeeAddress
        record.withdrawalFee
      runCommitFunc commitFunc

def fulfillWithdraw (txHash : Text) : Relay Unit :=
  Tx.transaction do
    let record ← getWithdrawRecord withdrawID
    fulfillWithdrawRecord env record txHash

/-- the part of `RejectWithdraw` after the read. -/
def rejectWithdrawRecord : Relay Unit :=
  Tx.when (record.status ≠ .failed) do
    Tx.require (record.localStatus = .processed) .withdrawRequestNotProcessedLocally
    Tx.require (record.status = .pending) .withdrawRequestNotPending
    updateWithdrawRecord record.id (fun r => { r with status := .failed }) fun _ => rfl
    let commitFunc ← rejectWithdrawToRelayAccount record.id record.address
      (record.amount + record.withdrawalFee)
    runCommitFunc commitFunc

def rejectWithdraw : Relay Unit :=
  Tx.transaction do
    let record ← getWithdrawRecord withdrawID
    rejectWithdrawRecord record

end CrynuxRelay
