import CrynuxRelay.Base.Snapshot
import CrynuxRelay.Model.ChainQueue
import CrynuxRelay.Model.Delegation

/-!
# Batches of a delegated slash job

A node that is slashed has a job, which slashes its delegators in batches.  Each batch is an outgoing
transaction.  A call reads the next delegators from the chain, and then decides in one transaction, which
reads its job and the rows of the last batch from a snapshot without locking them.

* `hasOpenDelegatedSlashBatchTransaction`, `slashNodeDelegations` -- the parts of the decision;
* `commitSlashBatch` -- the transaction of `sendNextDelegatedSlashBatch`;
* `SlashOther.exec` -- the sender and the confirmer, and new jobs, in between.
-/

namespace CrynuxRelay

/-! ## rows -/

structure SlashBatchJob extends DelegatedSlashJob where
  latestBatchTransactionID : Option Nat := none
  deriving DecidableEq

def SlashBatchJob.key (job : SlashBatchJob) : Nat := job.id

def SlashBatchJob.complete (job : SlashBatchJob) : SlashBatchJob := { job with status := .completed }

def SlashBatchJob.process (txID : Nat) (job : SlashBatchJob) : SlashBatchJob :=
  { job with status := .processing, latestBatchTransactionID := some txID }

lemma SlashBatchJob.key_complete (job : SlashBatchJob) : job.complete.key = job.key := rfl

lemma SlashBatchJob.key_process (txID : Nat) (job : SlashBatchJob) : (job.process txID).key = job.key := rfl

abbrev SlashJobTable := Table SlashBatchJob.key

def nextSlashJobID (jobs : SlashJobTable) : Nat := jobs.keys.foldr max 0 + 1

inductive SlashEvent
  | batch (job tx : Nat)
  | completed (job : Nat)
  deriving DecidableEq, Repr

/-- `log` are the batches and the ends of all jobs so far. -/
structure SlashDb where
  chain : ChainState
  jobs : SlashJobTable
  log : List SlashEvent := []

/-! ## one call -/

structure SlashNetwork where
  delegatedStakingSlashBatchSize : Nat
  accountAddress : Text
  delegatedStaking : Text
  maxRetries : Nat

/-- `pack` encodes the call of the contract. -/
structure SlashEnv where
  chain : ChainConfig
  blockchains : Text → Option SlashNetwork
  pack : Text → List Text → Option Text

/-- a call, with the copy of the job that it was given and the page that it has read from the chain. -/
structure SlashCall where
  job : SlashBatchJob
  delegatorAddresses : List Text

def hasOpenDelegatedSlashBatchTransaction (txs : TransactionTable) (job : SlashBatchJob) : Bool :=
  match job.latestBatchTransactionID with
  | none => false
  | some id =>
    match txs.get id with
    | none => false
    | some tx =>
      if tx.status = .pending ∨ tx.status = .sent then true
      else (getRetryTransactionsByID txs tx.id).any fun r => r.status = .pending ∨ r.status = .sent

/-- the transaction of a batch, with its number of retries. -/
def slashNodeDelegations (env : SlashEnv) (nodeAddress : Text) (delegators : List Text) (network : Text) :
    Option (TransactionPayload × Nat) :=
  if delegators = [] then none
  else
    match env.blockchains network, env.pack nodeAddress delegators with
    | some c, some data =>
      some ({ network, fromAddress := c.accountAddress, toAddress := c.delegatedStaking, value := ['0'],
              data := some data }, c.maxRetries)
    | _, _ => none

/-- the rows after the transaction of a call; a call that fails leaves them. -/
def commitSlashBatch (env : SlashEnv) (c : SlashCall) (_ : Unit) (snapshot db : SlashDb) : SlashDb :=
  match env.blockchains c.job.network, snapshot.jobs.get c.job.id with
  | some network, some currentJob =>
    if network.delegatedStakingSlashBatchSize = 0 then db
    else if currentJob.status = .completed then db
    else if hasOpenDelegatedSlashBatchTransaction snapshot.chain.txs currentJob then db
    else if c.delegatorAddresses = [] then
      { db with
        jobs := db.jobs.modify c.job.id SlashBatchJob.complete SlashBatchJob.key_complete
        log := db.log ++ [.completed c.job.id] }
    else
      match slashNodeDelegations env c.job.nodeAddress c.delegatorAddresses c.job.network with
      | none => db
      | some (payload, maxRetries) =>
        { chain := (ChainOp.queue payload maxRetries).exec env.chain db.chain
          jobs := db.jobs.modify c.job.id (SlashBatchJob.process (nextID db.chain.txs))
            (SlashBatchJob.key_process _)
          log := db.log ++ [.batch c.job.id (nextID db.chain.txs)] }
  | _, _ => db

/-! ## calls, and what is in between -/

inductive SlashOther
  | chain (op : ChainOp)
  | createJob (nodeAddress network : Text)

def SlashOther.exec (env : SlashEnv) (e : SlashOther) (db : SlashDb) : SlashDb :=
  match e with
  | .chain op => { db with chain := op.exec env.chain db.chain }
  | .createJob nodeAddress network =>
    { db with
      jobs := db.jobs.insert { id := nextSlashJobID db.jobs, nodeAddress, network, status := .pending } }

abbrev SlashOp := Snapshot.Op SlashCall Unit SlashOther

def SlashOp.exec (env : SlashEnv) :
    SlashOp → Snapshot.Store SlashDb SlashCall → Snapshot.Store SlashDb SlashCall :=
  Snapshot.Op.exec (commitSlashBatch env) (SlashOther.exec env)

end CrynuxRelay
