import CrynuxRelay.Model.Task
import Mathlib.Data.List.Sort

/-!
# The ledger, step by step

A transaction that moves money inserts its events, loads the balances it needs into the cache, updates
them in a closure under the mutex of the cache, and commits.  `CreateTask` holds the mutex around its
transaction instead.  Other transactions and the batches of the projector run between any two of these
steps, and see an event from its commit on.

* `LedgerTx`, `LedgerTx.program` -- the transactions, and each one as a list of instructions;
* `LedgerState` -- the committed rows, the cache, and the transactions in flight;
* `LedgerOp.exec` -- one instruction of one transaction, an error of one, or a batch.
-/

namespace CrynuxRelay

/-! ## transactions -/

/-- the steps of a transaction.  `precheck` compares without the mutex, `charge` and `apply` are the
closures, and `lockCheck` and `subtract` are the ends of the critical section of `CreateTask`. -/
inductive Instr
  | load (address : Text)
  | precheck (address : Text) (amount : Int)
  | insert (events : List EventDraft)
  | apply (events : List EventDraft)
  | charge (address : Text) (amount : Int)
  | lockCheck (address : Text) (amount : Int)
  | commit
  | subtract (address : Text) (amount : Int)

inductive LedgerTx
  | createTask (taskIDCommitment creator : Text) (fee : Int)
  | withdraw (withdrawID : Nat) (address : Text) (total : Int)
  | fulfillWithdraw (withdrawID : Nat) (feeAddress : Text) (fee : Int)
  | rejectWithdraw (withdrawID : Nat) (address : Text) (total : Int)
  | taskRefund (taskIDCommitment creator : Text) (fee : Int)
  | taskIncome (env : Env) (payments : List TaskPayment)
  | vestingRelease (vestingID : Nat) (address : Text) (fromReleased toReleased : Int)

def settlementEvents (env : Env) (p : TaskPayment) : List EventDraft :=
  taskIncomeEvents env p.taskIDCommitment p.address p.payment p.network

namespace LedgerTx

def groups : LedgerTx → List (List EventDraft)
  | createTask c a fee => [[⟨.taskPayment, reason2 .taskPayment c, a, fee⟩]]
  | withdraw id a x => [[⟨.withdraw, reason2 .withdraw (Text.decimal id), a, x⟩]]
  | fulfillWithdraw id a fee =>
    [[⟨.withdrawFeeIncome, reason2 .withdrawFeeIncome (Text.decimal id), a, fee⟩]]
  | rejectWithdraw id a x =>
    [[⟨.withdrawRefund, reason2 .withdrawRefund (Text.decimal id), a, x⟩]]
  | taskRefund c a fee => [[⟨.taskRefund, reason2 .taskRefund c, a, fee⟩]]
  | taskIncome env payments => payments.map (settlementEvents env)
  | vestingRelease id a x y =>
    [[⟨.vestingRelease, reason4 .vestingRelease (Text.decimal id) (Text.ofInt x) (Text.ofInt y), a,
      y - x⟩]]

def drafts (tx : LedgerTx) : List EventDraft := tx.groups.flatten

def charged : LedgerTx → Option (Text × Int)
  | createTask _ a fee => some (a, fee)
  | withdraw _ a x => some (a, x)
  | _ => none

/-- a credit: insert and load group by group, then the closures. -/
def creditProgram (groups : List (List EventDraft)) : List Instr :=
  groups.flatMap (fun g => .insert g :: g.map fun d => .load d.address) ++
    groups.map .apply ++ [.commit]

def program : LedgerTx → List Instr
  | createTask c a fee =>
    [.load a, .lockCheck a fee, .insert (createTask c a fee).drafts, .commit, .subtract a fee]
  | withdraw id a x =>
    [.load a, .precheck a x, .insert (withdraw id a x).drafts, .charge a x, .commit]
  | tx => creditProgram tx.groups

end LedgerTx

/-- a transaction that has started.  `todo` are the instructions it has yet to do, `inserted` its events,
`applied` what it has added to the cache; `snapshot` are the rows of the accounts at its start. -/
structure Thread where
  tx : LedgerTx
  todo : List Instr
  snapshot : Text → Int
  inserted : List RelayAccountEvent := []
  applied : List (Posting Text Int) := []
  committed : Bool := false

/-! ## the state -/

structure LedgerState where
  projected : Text → Int := fun _ => 0
  events : List RelayAccountEvent := []
  nextID : Nat := 1
  cache : Text → Option Int := fun _ => none
  mutex : Option Nat := none
  flights : List Thread := []

namespace LedgerState

variable (s : LedgerState)

def pending : List RelayAccountEvent := s.events.filter isPending

def addToCache (ps : List (Posting Text Int)) : LedgerState :=
  { s with cache := fun a => (s.cache a).map (· + total ps a) }

def setFlight (i : Nat) (f : Thread) : LedgerState := { s with flights := s.flights.set i f }

def mutexFree (i : Nat) : Bool := s.mutex = none ∨ s.mutex = some i

end LedgerState

def increments (ds : List EventDraft) : List (Posting Text Int) :=
  ds.map fun d => ⟨d.address, d.amount⟩

def newEvents (first : Nat) (ds : List EventDraft) : List RelayAccountEvent :=
  ds.zipIdx.map fun p => ⟨first + p.2, p.1.address, p.1.amount, .pending, p.1.reason, p.1.type⟩

/-- a transaction that is rolled back has no events and has not changed the cache. -/
def Thread.rollback (f : Thread) : Thread :=
  { f with todo := [], inserted := [], applied := [], committed := false }

/-! ## the projector -/

/-- the second pass of the validator, with the checks against the other tables as a parameter. -/
def validateEvents (rule : RelayAccountEvent → Bool) : (Text → Option Int) →
    List RelayAccountEvent → List RelayAccountEvent × List RelayAccountEvent
  | _, [] => ([], [])
  | balances, e :: l =>
    if rule e && debitCovered balances e then
      let r := validateEvents rule (addToBalance balances e) l
      (e :: r.1, r.2)
    else
      let r := validateEvents rule balances l
      (r.1, e :: r.2)

def LedgerState.batch (s : LedgerState) : List RelayAccountEvent :=
  (s.pending.insertionSort fun e e' => e.id ≤ e'.id).take 50

def LedgerState.validated (s : LedgerState) (rule : RelayAccountEvent → Bool) :
    List RelayAccountEvent × List RelayAccountEvent :=
  validateEvents rule (fun a =>
    if a ∈ balanceAddressSet s.batch then some (s.projected a) else none) s.batch

/-- a batch: valid events are added to the rows of their accounts. -/
def LedgerState.project (s : LedgerState) (rule : RelayAccountEvent → Bool) : LedgerState :=
  { s with
    projected := fun a => s.projected a + total ((s.validated rule).1.map (·.posting)) a
    events := s.events.map fun e =>
      if e ∈ (s.validated rule).2 then { e with status := .invalid }
      else if e ∈ (s.validated rule).1 then { e with status := .processed }
      else e }

/-! ## steps -/

inductive LedgerOp
  | start (tx : LedgerTx)
  | step (i : Nat) (fresh : Bool)
  | fail (i : Nat)
  | project (rule : RelayAccountEvent → Bool)

/-- the next instruction of transaction `i`; one that needs the mutex waits for it.  A balance that is
not in the cache is read from the snapshot of the transaction, or as it is now. -/
def LedgerState.perform (s : LedgerState) (i : Nat) (f : Thread) (fresh : Bool) (instr : Instr)
    (rest : List Instr) : LedgerState :=
  match instr with
  | .load a =>
    if s.mutexFree i then
      { s.setFlight i { f with todo := rest } with
        cache := Function.update s.cache a
          (some ((s.cache a).getD (if fresh then s.projected a else f.snapshot a))) }
    else s
  | .precheck a x =>
    if (s.cache a).getD 0 < x then s.setFlight i f.rollback else s.setFlight i { f with todo := rest }
  | .insert ds =>
    { s.setFlight i { f with todo := rest, inserted := f.inserted ++ newEvents s.nextID ds } with
      nextID := s.nextID + ds.length }
  | .apply ds =>
    if s.mutexFree i then
      (s.addToCache (increments ds)).setFlight i
        { f with todo := rest, applied := f.applied ++ increments ds }
    else s
  | .charge a x =>
    if s.mutexFree i then
      if (s.cache a).getD 0 < x then s.setFlight i f.rollback
      else (s.addToCache [⟨a, -x⟩]).setFlight i
        { f with todo := rest, applied := f.applied ++ [⟨a, -x⟩] }
    else s
  | .lockCheck a x =>
    if s.mutexFree i then
      if (s.cache a).getD 0 < x then s.setFlight i f.rollback
      else { s.setFlight i { f with todo := rest } with mutex := some i }
    else s
  | .commit =>
    { s.setFlight i { f with todo := rest, committed := true } with
      events := s.events ++ f.inserted }
  | .subtract a x =>
    { (s.addToCache [⟨a, -x⟩]).setFlight i
        { f with todo := rest, applied := f.applied ++ [⟨a, -x⟩] } with mutex := none }

/-- an error before anything is in the cache or committed: the transaction is rolled back, and the
mutex is released if it was held. -/
def LedgerState.abort (s : LedgerState) (i : Nat) (f : Thread) : LedgerState :=
  if f.applied = [] ∧ f.committed = false then
    { s.setFlight i f.rollback with mutex := if s.mutex = some i then none else s.mutex }
  else s

def LedgerOp.exec (op : LedgerOp) (s : LedgerState) : LedgerState :=
  match op with
  | .start tx => { s with flights := s.flights ++ [⟨tx, tx.program, s.projected, [], [], false⟩] }
  | .step i fresh =>
    match s.flights[i]? with
    | some f =>
      match f.todo with
      | instr :: rest => s.perform i f fresh instr rest
      | [] => s
    | none => s
  | .fail i =>
    match s.flights[i]? with
    | some f => s.abort i f
    | none => s
  | .project rule => s.project rule

end CrynuxRelay
