import CrynuxRelay.Base.Ledger
import CrynuxRelay.Model.State

/-!
# Relay accounts: reasons, validation, projection, cache

Every change of a balance is an event with a unique reason text.  The projector reads the pending
events in batches, validates each one against the tables it was derived from, and adds the valid
ones to the `relay_accounts` rows.  The cache takes the same amounts when the events are created.

* `splitRelayAccountEventReason` -- the parts of a reason;
* `validatePendingRelayAccountEvents` -- the two passes of the validator;
* `processPendingRelayAccountEvents`, `initRelayAccountCache` -- the projector and the start-up;
* `getRelayAccountFromCache`, `createRelayAccountEvent` and the functions that post money.
-/

namespace CrynuxRelay

/-! ## the chain -/

/-- the data of a native transfer that the relay reads. -/
structure TransactionTransfer where
  sender : Text
  toDepositAddress : Bool
  value : Int
  input : List Nat

structure DepositTxData where
  fromAddress : Text
  amount : Int

inductive FundingTokenType
  | native | erc20
  deriving DecidableEq

/-- the answers of the chain clients; `none` is `ethereum.NotFound`. -/
structure Chain where
  hasClient : Text → Bool
  receiptStatus : Text → Text → Except Err (Option Bool)
  fundingTokenType : Text → Option FundingTokenType
  transactionTransfer : Text → Text → Except Err (Option TransactionTransfer)
  erc20Deposit : Text → Text → Option DepositTxData

def isRelayAccountDepositTransfer (t : TransactionTransfer) : Bool :=
  t.toDepositAddress && decide (0 < t.value) && t.input.isEmpty

variable (t : RelayAccountEventType) (chain : Chain) (events : List RelayAccountEvent)
  (e : RelayAccountEvent) (reason : Text) (db : Db) (address : Text)

/-- the deposit that transaction `txHash` of `network` makes, if it makes one. -/
def Chain.validDepositTx (txHash network : Text) : Except Err (Option DepositTxData) := do
  if chain.hasClient network = false then throw .chain
  match ← chain.receiptStatus network txHash with
  | some true =>
    match chain.fundingTokenType network with
    | some .native =>
      match ← chain.transactionTransfer network txHash with
      | some t =>
        if isRelayAccountDepositTransfer t then pure (some ⟨t.sender, t.value⟩) else pure none
      | none => pure none
    | some .erc20 => pure (chain.erc20Deposit network txHash)
    | none => pure none
  | _ => pure none

/-! ## reasons -/

/-- `fmt.Sprintf` of the type and the parts of a reason. -/
def reason2 (x : Text) : Text := Text.decimal t.code ++ '-' :: x

def reason3 (x y : Text) : Text := reason2 t (x ++ '-' :: y)

def reason4 (x y z : Text) : Text := reason3 t x (y ++ '-' :: z)

def RelayAccountEventType.reasonParts : RelayAccountEventType → Nat
  | .deposit | .userDelegation => 3
  | .vestingRelease => 4
  | _ => 2

def splitRelayAccountEventReason : Option (List Text) :=
  let parts := Text.splitN '-' t.reasonParts reason
  if parts.length = t.reasonParts ∧ parts.head? = some (Text.decimal t.code) then some parts
  else none

def parseVestingCreatedReason : Option Nat :=
  match splitRelayAccountEventReason .vestingCreated reason with
  | some [_, x] =>
    match Text.parseUint 64 x with
    | some n => if n = 0 then none else some n
    | none => none
  | _ => none

def parseVestingReleaseReason : Option (Nat × Int × Int) :=
  match splitRelayAccountEventReason .vestingRelease reason with
  | some [_, x, y, z] => do
    let id ← Text.parseUint 64 x
    let fromReleased ← Text.parseInt y
    let toReleased ← Text.parseInt z
    pure (id, fromReleased, toReleased)
  | _ => none

def equalFold (a b : Text) : Bool := a.map Char.toLower = b.map Char.toLower

/-! ## validation -/

/-- the first pass: the reason has the shape of the event's type. -/
def isCandidateEvent : Bool :=
  match splitRelayAccountEventReason e.type e.reason with
  | none => false
  | some parts =>
    match e.type, parts with
    | .withdraw, [_, x] | .withdrawRefund, [_, x] | .withdrawFeeIncome, [_, x] =>
      (Text.parseUint 64 x).isSome
    | .vestingCreated, _ => (parseVestingCreatedReason e.reason).isSome
    | .vestingRelease, [_, x, y, z] =>
      (Text.parseUint 64 x).isSome && (Text.parseInt y).isSome && (Text.parseInt z).isSome
    | _, _ => true

def RelayAccountEventType.isDebit : RelayAccountEventType → Bool
  | .taskPayment | .withdraw => true
  | _ => false

def taskIncomeAllowed (t : InferenceTask) : Bool :=
  t.status = .endSuccess ∨ t.status = .endGroupSuccess ∨ t.status = .endGroupRefund ∨
    (t.status = .endAborted ∧ t.abortReason = .creatorValidationTimeout)

def taskRefundAllowed (t : InferenceTask) : Bool :=
  t.status = .endGroupRefund ∨ (t.status = .endAborted ∧ t.abortReason ≠ .creatorValidationTimeout)

/-- the rule of an event's type in the second pass, without the balance check. -/
def eventRule (e : RelayAccountEvent) : Bool :=
  match e.type, splitRelayAccountEventReason e.type e.reason with
  | .deposit, some [_, txHash, network] =>
    match chain.validDepositTx txHash network with
    | .ok (some d) => equalFold d.fromAddress e.address && decide (d.amount = e.amount)
    | _ => false
  | .taskPayment, some [_, c] =>
    match db.tasks.get c with
    | some t => decide (e.amount = t.taskFee)
    | none => false
  | .taskIncome, some [_, c] | .daoTaskShare, some [_, c] | .userDelegation, some [_, c, _] =>
    match db.tasks.get c with
    | some t => taskIncomeAllowed t
    | none => false
  | .taskRefund, some [_, c] =>
    match db.tasks.get c with
    | some t => decide (e.amount = t.taskFee) && taskRefundAllowed t
    | none => false
  | .withdraw, some [_, x] | .withdrawRefund, some [_, x] | .withdrawFeeIncome, some [_, x] =>
    match Text.parseUint 64 x with
    | some id => (db.withdrawRecords.get id).isSome
    | none => false
  | .vestingCreated, some _ =>
    match parseVestingCreatedReason e.reason with
    | some id =>
      match db.vestingRecords.get id with
      | some v => equalFold v.address e.address && decide (e.amount = 0)
      | none => false
    | none => false
  | .vestingRelease, some [_, x, y, z] =>
    match Text.parseUint 64 x, Text.parseInt y, Text.parseInt z with
    | some id, some fromReleased, some toReleased =>
      match db.vestingRecords.get id with
      | some v =>
        equalFold v.address e.address && decide (0 ≤ fromReleased ∧ 0 ≤ toReleased ∧
          fromReleased ≤ toReleased ∧ 0 < toReleased - fromReleased ∧
          toReleased - fromReleased = e.amount ∧ toReleased ≤ v.totalAmount ∧
          toReleased = v.releasedAmount)
      | none => false
    | _, _, _ => false
  | _, _ => false

def RelayAccountEvent.signed : Int :=
  if e.type.isDebit then -e.amount else e.amount

def RelayAccountEvent.posting : Posting Text Int := ⟨e.address, e.signed⟩

def balanceAddressSet : List Text :=
  (events.filter fun e => e.type.isDebit).map (·.address)

def relayBalanceMap (addresses : List Text) : Text → Option Int := fun a =>
  if a ∈ addresses then some ((db.relayAccounts a).getD 0) else none

def debitCovered (balances : Text → Option Int) (e : RelayAccountEvent) : Bool :=
  match balances e.address with
  | some b => decide (e.type.isDebit = true → e.amount ≤ b)
  | none => true

def addToBalance (balances : Text → Option Int) (e : RelayAccountEvent) : Text → Option Int :=
  match balances e.address with
  | some b => Function.update balances e.address (some (b + e.signed))
  | none => balances

/-- the second pass, with the running balances of the batch: valid events and invalid ones. -/
def validateCandidates (chain : Chain) (db : Db) : (Text → Option Int) → List RelayAccountEvent →
      List RelayAccountEvent × List RelayAccountEvent
  | _, [] => ([], [])
  | balances, e :: l =>
    if eventRule chain db e && debitCovered balances e then
      let r := validateCandidates chain db (addToBalance balances e) l
      (e :: r.1, r.2)
    else
      let r := validateCandidates chain db balances l
      (r.1, e :: r.2)

def lookupDeposits (chain : Chain) : List RelayAccountEvent → Except Err Unit
  | [] => pure ()
  | e :: l =>
    match e.type, splitRelayAccountEventReason e.type e.reason with
    | .deposit, some [_, txHash, network] => do
      let _ ← chain.validDepositTx txHash network
      lookupDeposits chain l
    | _, _ => lookupDeposits chain l

def validatePendingRelayAccountEvents (events : List RelayAccountEvent) :
    Except Err (List RelayAccountEvent × List RelayAccountEvent) := do
  let candidateEvents := events.filter isCandidateEvent
  lookupDeposits chain candidateEvents
  let r := validateCandidates chain db (relayBalanceMap db (balanceAddressSet candidateEvents))
    candidateEvents
  pure (r.1, (events.filter fun e => !isCandidateEvent e) ++ r.2)

/-! ## projection -/

def isPending : Bool := e.status = .pending

def pendingEvents : List RelayAccountEvent :=
  db.relayAccountEvents.rows.filter isPending

def getPendingRelayAccountEvents (limit : Nat) : Relay (List RelayAccountEvent) := do
  let db ← Tx.getDb
  pure ((pendingEvents db).take limit)

def markRecords (withdrawEventIDs depositEventIDs : List Nat) (st : LocalStatus) (db : Db) : Db :=
  { db with
    withdrawRecords := db.withdrawRecords.mapRows (fun r =>
      if r.relayAccountEventID ∈ withdrawEventIDs ∧ r.localStatus = .pending then
        { r with localStatus := st } else r) fun r => by split <;> rfl
    depositRecords := db.depositRecords.map fun r =>
      if r.relayAccountEventID ∈ depositEventIDs ∧ r.localStatus = .pending then
        { r with localStatus := st } else r }

def idsOf : List Nat := events.map (·.id)

def idsOfType : List Nat :=
  idsOf (events.filter fun e => e.type = t)

def markInvalid : Db :=
  markRecords (idsOfType .withdraw events) (idsOfType .deposit events) .invalid
    { db with relayAccountEvents :=
        db.relayAccountEvents.mark (fun e => e.id ∈ idsOf events) .invalid }

def mergeRelayAccountEvents : (Text → Option Int) → List RelayAccountEvent → Text → Option Int
  | merged, [] => merged
  | merged, e :: l =>
    mergeRelayAccountEvents
      (Function.update merged e.address (some ((merged e.address).getD 0 + e.signed))) l

/-- add the merged amounts to the rows of their accounts, creating the missing rows. -/
def addMergedAccounts : Db :=
  { db with relayAccounts := fun a =>
      match mergeRelayAccountEvents (fun _ => none) events a with
      | some x => some ((db.relayAccounts a).getD 0 + x)
      | none => db.relayAccounts a }

def markProcessed : Db :=
  markRecords (idsOfType .withdraw events) (idsOfType .deposit events) .processed
    { db with relayAccountEvents :=
        db.relayAccountEvents.mark (fun e => e.id ∈ idsOf events ∧ isPending e) .processed }

def processPendingRelayAccountEvents : Relay Unit := do
  let db ← Tx.getDb
  match validatePendingRelayAccountEvents chain db events with
  | .error e => Tx.fail e
  | .ok (validEvents, invalidEvents) =>
    Tx.modifyDb (markInvalid invalidEvents)
    Tx.transaction do
      Tx.modifyDb (addMergedAccounts validEvents)
      -- a `CASE` expression without a `WHEN` is not SQL
      Tx.require (validEvents ≠ []) .invalidStatement
      Tx.modifyDb (markProcessed validEvents)

/-- the body of the loops that drain the queue, at most `fuel` times. -/
def drainPendingRelayAccountEvents (chain : Chain) : Nat → Relay Unit
  | 0 => pure ()
  | fuel + 1 => do
    let events ← getPendingRelayAccountEvents 50
    if events = [] then pure ()
    else
      processPendingRelayAccountEvents chain events
      drainPendingRelayAccountEvents chain fuel

/-! ## the cache -/

def loadRelayAccounts (cache : Text → Option Int) : Text → Option Int := fun a =>
  match cache a with
  | some b => some b
  | none => db.relayAccounts a

/-- load the rows, then drain the queue; each round takes an event off the queue. -/
def initRelayAccountCache : Relay Unit := do
  let db ← Tx.getDb
  Tx.modifyMem fun m =>
    { m with relayAccountCache := loadRelayAccounts db m.relayAccountCache }
  drainPendingRelayAccountEvents chain (pendingEvents db).length

def getRelayAccountFromCache : Relay Int := do
  let m ← Tx.getMem
  match m.relayAccountCache address with
  | some b => pure b
  | none => do
    let db ← Tx.getDb
    let b := (db.relayAccounts address).getD 0
    Tx.modifyMem fun m =>
      { m with relayAccountCache := Function.update m.relayAccountCache address (some b) }
    pure b

def addToCache (p : Posting Text Int) : Relay Unit :=
  Tx.modifyMem fun m =>
    { m with
      relayAccountCache := Function.update m.relayAccountCache p.account
        (some ((m.relayAccountCache p.account).getD 0 + p.amount)) }

/-- the cache increments that a function leaves to its caller. -/
abbrev CommitFunc := List (Posting Text Int)

def runCommitFunc (f : CommitFunc) : Relay Unit := Tx.each addToCache f

/-! ## posting -/

structure EventDraft where
  type : RelayAccountEventType
  reason : Text
  address : Text
  amount : Int

def createRelayAccountEventWithID (amount : Int) : Relay Nat := do
  let db ← Tx.getDb
  Tx.require (db.relayAccountEvents.reasonTaken reason = false) .duplicateKey
  Tx.modifyDb fun db =>
    { db with relayAccountEvents := db.relayAccountEvents.append t reason address amount }
  pure (db.relayAccountEvents.rows.length + 1)

def createRelayAccountEvent (amount : Int) : Relay Unit := do
  let _ ← createRelayAccountEventWithID t reason address amount
  pure ()

/-- an event of type `t` that credits `address`, with the increment of the cache. -/
def creditRelayAccount (amount : Int) : Relay CommitFunc := do
  createRelayAccountEvent t reason address amount
  let _ ← getRelayAccountFromCache address
  pure [⟨address, amount⟩]

def refundTaskPaymentToRelayAccount (taskIDCommitment address : Text) (amount : Int) :
    Relay CommitFunc :=
  creditRelayAccount .taskRefund (reason2 .taskRefund taskIDCommitment) address amount

def fulfillWithdrawFeeIncome (withdrawID : Nat) (feeAddress : Text) (fee : Int) :
    Relay CommitFunc :=
  creditRelayAccount .withdrawFeeIncome
    (reason2 .withdrawFeeIncome (Text.decimal withdrawID)) feeAddress fee

def rejectWithdrawToRelayAccount (withdrawID : Nat) (address : Text) (amount : Int) :
    Relay CommitFunc :=
  creditRelayAccount .withdrawRefund
    (reason2 .withdrawRefund (Text.decimal withdrawID)) address amount

end CrynuxRelay
