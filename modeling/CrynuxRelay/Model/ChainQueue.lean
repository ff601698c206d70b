import CrynuxRelay.Base.Run
import CrynuxRelay.Base.Table
import CrynuxRelay.Base.Text

/-!
# The queue of outgoing chain transactions

Rows of outgoing transactions are sent and confirmed by two services.  Each of them polls the rows that
it is for, page by page, into copies; then it claims the copies one by one and puts them in a queue.  The
sender works on one copy at a time, the confirmer on up to ten; both release the claim at the end.

* `BlockchainTransaction`, `markSent`, `markConfirmed`, `markFailed`, `createRetryTransaction` -- rows and
  what is written to them;
* `Poller`, `Poller.step` -- the pages, the claims and the queue of a service;
* `checkTransaction`, `confirmDecision` -- the decisions of the sender and of the confirmer, from
  their copies;
* `ChainState`, `ChainOp.exec` -- the two services, interleaved.
-/

namespace CrynuxRelay

/-! ## rows -/

inductive TransactionStatus
  | pending | sent | confirmed | failed
  deriving DecidableEq, Repr

/-- a time of a row that counts only if it is valid; other times are stored as `NULL`. -/
structure NullTime where
  time : Nat
  valid : Bool
  deriving DecidableEq, Repr

/-- what is sent to the network. -/
structure TransactionPayload where
  network : Text
  fromAddress : Text
  toAddress : Text
  value : Text
  data : Option Text
  deriving DecidableEq, Repr

structure BlockchainTransaction where
  id : Nat
  createdAt : Nat
  payload : TransactionPayload
  status : TransactionStatus
  txHash : Option Text
  nonce : Option Nat
  retryCount : Nat
  maxRetries : Nat
  retryTransactionID : Option Nat
  nextRetryAt : NullTime
  sentAt : Option Nat
  deriving DecidableEq, Repr

abbrev TransactionTable := Table BlockchainTransaction.id

variable (now retryInterval : Nat) (tx : BlockchainTransaction) (txs : TransactionTable)

def nextID : Nat := txs.keys.foldr max 0 + 1

def queueTransaction (payload : TransactionPayload) (maxRetries : Nat) (txs : TransactionTable) :
    TransactionTable :=
  txs.insert
    { id := nextID txs, createdAt := now, payload := payload, status := .pending, txHash := none,
      nonce := none, retryCount := 0, maxRetries := maxRetries, retryTransactionID := none,
      nextRetryAt := ⟨0, false⟩, sentAt := none }

def markSent (txHash : Text) (nonce : Nat) (txs : TransactionTable) : TransactionTable :=
  txs.modify tx.id
    (fun r => { r with status := .sent, txHash := some txHash, nonce := some nonce, sentAt := some now })
    fun _ => rfl

def markConfirmed : TransactionTable :=
  txs.modify tx.id (fun r => { r with status := .confirmed }) fun _ => rfl

/-- the hash gets a suffix, so that it stays unique. -/
def markFailed : TransactionTable :=
  txs.modify tx.id
    (fun r => { r with
      status := .failed
      txHash := (tx.txHash.map fun h => h ++ '_' :: Text.decimal tx.retryCount).or r.txHash })
    fun _ => rfl

/-- the row that `CreateRetryTransaction` saves: its retry time is set, but not valid. -/
def retryTransaction (id : Nat) (tx : BlockchainTransaction) : BlockchainTransaction where
  id := id
  createdAt := now
  payload := tx.payload
  status := .pending
  txHash := none
  nonce := none
  retryCount := tx.retryCount + 1
  maxRetries := tx.maxRetries
  retryTransactionID := some (tx.retryTransactionID.getD tx.id)
  nextRetryAt := ⟨now + retryInterval, false⟩
  sentAt := none

def createRetryTransaction : TransactionTable :=
  txs.insert (retryTransaction now retryInterval (nextID txs) tx)

def getRetryTransactionsByID (id : Nat) : List BlockchainTransaction :=
  txs.rows.filter fun r => r.retryTransactionID = some id

/-! ## pollers -/

/-- a service between its steps: copies that are polled and not yet claimed, claims, and the queue. -/
structure Poller where
  reading : Bool := true
  polled : List BlockchainTransaction := []
  claims : List Nat := []
  queue : List BlockchainTransaction := []

def batchSize : Nat := 50

/-- the channel holds a hundred copies, and the poller waits with one more. -/
def queueCapacity : Nat := 100

def nextPage (status : TransactionStatus) (offset : Nat) : List BlockchainTransaction :=
  ((txs.rows.filter fun r => r.status = status).drop offset).take batchSize

/-- read one more page, or try to claim the next copy. -/
def Poller.step (status : TransactionStatus) (p : Poller) : Poller :=
  if p.reading then
    match nextPage txs status p.polled.length with
    | [] => { p with reading := false }
    | page => { p with polled := p.polled ++ page }
  else
    match p.polled with
    | [] => { p with reading := true }
    | tx :: rest =>
      if tx.id ∈ p.claims then { p with polled := rest }
      else if p.queue.length ≤ queueCapacity then
        { p with polled := rest, claims := tx.id :: p.claims, queue := p.queue ++ [tx] }
      else p

def Poller.release (p : Poller) (id : Nat) : Poller :=
  { p with claims := p.claims.filter fun c => c ≠ id }

/-! ## sender and confirmer -/

structure NetworkConfig where
  sendWaitTime : Nat
  receiptWaitTime : Nat
  retryInterval : Nat
  sentTransactionCountLimit : Nat

structure ChainConfig where
  blockchains : Text → Option NetworkConfig

inductive SendStage
  | dequeued
  | checked
  | submitted (nonce : Nat)
  | finished
  deriving DecidableEq, Repr

structure SendJob where
  tx : BlockchainTransaction
  stage : SendStage

inductive SendDecision
  | skip
  | timedOut
  | send
  deriving DecidableEq, Repr

def checkTransaction (cfg : ChainConfig) (now : Nat) (txs : TransactionTable)
    (tx : BlockchainTransaction) : SendDecision :=
  if tx.status ≠ .pending then .skip
  else if tx.txHash.isSome then .skip
  else if tx.nextRetryAt.valid ∧ now < tx.nextRetryAt.time then .skip
  else
    match cfg.blockchains tx.payload.network with
    | none => .skip
    | some c =>
      if tx.createdAt + c.sendWaitTime < now then .timedOut
      else if c.sentTransactionCountLimit ≤ (txs.rows.filter fun r =>
            r.payload.network = tx.payload.network ∧ r.status = .sent).length then .skip
      else .send

structure ConfirmJob where
  tx : BlockchainTransaction
  finished : Bool

/-- the answer to the request for a receipt; errors leave the row as it is. -/
inductive Receipt
  | notFound
  | successful
  | reverted
  deriving DecidableEq, Repr

/-- mark the row of a copy as failed and queue the next attempt, in one transaction. -/
def failAndRetry : TransactionTable :=
  if tx.retryCount < tx.maxRetries then
    createRetryTransaction now retryInterval tx (markFailed tx txs)
  else markFailed tx txs

inductive ConfirmDecision
  | wait
  | confirmed
  | failed (retryInterval : Nat)
  deriving DecidableEq, Repr

def confirmDecision (cfg : ChainConfig) (now : Nat) (receipt : Receipt) (tx : BlockchainTransaction) :
    ConfirmDecision :=
  match tx.txHash, tx.sentAt, cfg.blockchains tx.payload.network with
  | some _, some sentAt, some c =>
    if sentAt + c.receiptWaitTime < now then .failed c.retryInterval
    else
      match receipt with
      | .notFound => .wait
      | .successful => .confirmed
      | .reverted => .failed c.retryInterval
  | _, _, _ => .wait

def confirmTransaction : ConfirmDecision → TransactionTable
  | .wait => txs
  | .confirmed => markConfirmed tx txs
  | .failed retryInterval => failAndRetry now retryInterval tx txs

def newRetry : ConfirmDecision → List (Nat × Nat)
  | .wait => []
  | .confirmed => []
  | .failed _ => if tx.retryCount < tx.maxRetries then [(tx.id, nextID txs)] else []

/-! ## the system -/

/-- `submissions` are the rows given to the network, with their nonces; `pickups` the rows that the
sender decided to send, with the time; `retries` the attempts that were retried, with their retries. -/
structure ChainState where
  txs : TransactionTable
  now : Nat := 0
  sender : Poller := {}
  sending : Option SendJob := none
  confirmer : Poller := {}
  confirming : List ConfirmJob := []
  submissions : List (Nat × Nat) := []
  pickups : List (Nat × Nat) := []
  retries : List (Nat × Nat) := []

inductive ChainOp
  | tick (seconds : Nat)
  | queue (payload : TransactionPayload) (maxRetries : Nat)
  | pollPending
  | dequeue
  | check
  | submit (nonce : Nat) (accepted : Bool)
  | markSent (txHash : Text)
  | release
  | pollSent
  | startWorker
  | confirm (i : Nat) (receipt : Receipt)
  | releaseWorker (i : Nat)

def workerLimit : Nat := 10

def ChainOp.exec (cfg : ChainConfig) (op : ChainOp) (s : ChainState) : ChainState :=
  match op with
  | .tick seconds => { s with now := s.now + seconds }
  | .queue payload maxRetries => { s with txs := queueTransaction s.now payload maxRetries s.txs }
  | .pollPending => { s with sender := s.sender.step s.txs .pending }
  | .dequeue =>
    match s.sending, s.sender.queue with
    | none, tx :: rest =>
      { s with sender := { s.sender with queue := rest }, sending := some ⟨tx, .dequeued⟩ }
    | _, _ => s
  | .check =>
    match s.sending with
    | some ⟨tx, .dequeued⟩ =>
      match checkTransaction cfg s.now s.txs tx with
      | .skip => { s with sending := some ⟨tx, .finished⟩ }
      | .timedOut => { s with txs := markFailed tx s.txs, sending := some ⟨tx, .finished⟩ }
      | .send => { s with
          sending := some ⟨tx, .checked⟩, pickups := s.pickups ++ [(tx.id, s.now)] }
    | _ => s
  | .submit nonce accepted =>
    match s.sending with
    | some ⟨tx, .checked⟩ =>
      if accepted then
        { s with
          sending := some ⟨tx, .submitted nonce⟩, submissions := s.submissions ++ [(tx.id, nonce)] }
      else { s with sending := some ⟨tx, .finished⟩ }
    | _ => s
  | .markSent txHash =>
    match s.sending with
    | some ⟨tx, .submitted nonce⟩ =>
      { s with
        txs := CrynuxRelay.markSent s.now tx txHash nonce s.txs, sending := some ⟨tx, .finished⟩ }
    | _ => s
  | .release =>
    match s.sending with
    | some ⟨tx, .finished⟩ => { s with sender := s.sender.release tx.id, sending := none }
    | _ => s
  | .pollSent => { s with confirmer := s.confirmer.step s.txs .sent }
  | .startWorker =>
    match s.confirmer.queue with
    | tx :: rest =>
      if s.confirming.length < workerLimit then
        { s with
          confirmer := { s.confirmer with queue := rest }, confirming := s.confirming ++ [⟨tx, false⟩] }
      else s
    | [] => s
  | .confirm i receipt =>
    match s.confirming[i]? with
    | some ⟨tx, false⟩ =>
      let decision := confirmDecision cfg s.now receipt tx
      { s with
        txs := confirmTransaction s.now tx s.txs decision
        confirming := s.confirming.set i ⟨tx, true⟩
        retries := s.retries ++ newRetry tx s.txs decision }
    | _ => s
  | .releaseWorker i =>
    match s.confirming[i]? with
    | some ⟨tx, true⟩ =>
      { s with confirmer := s.confirmer.release tx.id, confirming := s.confirming.eraseIdx i }
    | _ => s

def Poller.claimed (p : Poller) : Option BlockchainTransaction :=
  if p.reading then none
  else
    match p.polled with
    | [] => none
    | tx :: _ => if tx.id ∈ p.claims ∨ queueCapacity < p.queue.length then none else some tx

end CrynuxRelay
