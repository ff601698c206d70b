import CrynuxRelay.Model.System

/-!
# Deposits, step by step

The block processor commits the event of a deposit, then loads the balance, then increments it, and
other handlers run between the three.  A step that fails ends the pass over the block; the block is
processed again later, and then the deposit is skipped when it has an event.

* `DepositFlight` -- a deposit between the check for its event and the increment;
* `DepositOp`, `DepositOp.exec` -- the steps, next to the operations of the relay;
* `processed` -- the deposits that a pass has skipped or finished.
-/

namespace CrynuxRelay

/-- how far a deposit has come: its event is known to be missing, committed, or committed with the
balance loaded. -/
inductive DepositPhase
  | checked | inserted | loaded
  deriving DecidableEq, Repr

structure DepositFlight where
  txHash : Text
  network : Text
  deposit : DepositTxData
  phase : DepositPhase

structure DepositState where
  relay : RelayState
  deposits : List DepositFlight := []
  processed : List (Text × Text) := []

inductive DepositOp
  | relay (op : RelayOp)
  | check (txHash network : Text) (d : DepositTxData)
  | insert (i : Nat)
  | load (i : Nat)
  | commit (i : Nat)
  | fail (i : Nat)

variable (s : DepositState)

namespace DepositState

def world : World := s.relay.world

def move (w : World) (deposits : List DepositFlight) : DepositState :=
  { s with relay := { s.relay with world := w }, deposits := deposits }

def finish (txHash network : Text) : DepositState :=
  { s with processed := (txHash, network) :: s.processed }

end DepositState

/-- the commit of the event; when the insert fails, so does the pass. -/
def insertDeposit (i : Nat) (f : DepositFlight) : DepositState :=
  match createDeposit f.txHash f.deposit.fromAddress f.deposit.amount f.network s.world with
  | (.ok _, w) => s.move w (s.deposits.set i { f with phase := .inserted })
  | (.error _, w) => s.move w (s.deposits.eraseIdx i)

def loadDeposit (i : Nat) (f : DepositFlight) : DepositState :=
  s.move (Tx.after (getRelayAccountFromCache f.deposit.fromAddress) s.world)
    (s.deposits.set i { f with phase := .loaded })

def commitDeposit (i : Nat) (f : DepositFlight) : DepositState :=
  (s.move (Tx.after (runCommitFunc [⟨f.deposit.fromAddress, f.deposit.amount⟩]) s.world)
    (s.deposits.eraseIdx i)).finish f.txHash f.network

def DepositOp.exec (op : DepositOp) (s : DepositState) : DepositState :=
  match op with
  | .relay op => { s with relay := op.exec s.relay }
  | .check txHash network d =>
    if hasDepositEvent s.world.db txHash network then s.finish txHash network
    else s.move s.world (s.deposits ++ [⟨txHash, network, d, .checked⟩])
  | .insert i =>
    match s.deposits[i]? with
    | some f => if f.phase = .checked then insertDeposit s i f else s
    | none => s
  | .load i =>
    match s.deposits[i]? with
    | some f => if f.phase = .inserted then loadDeposit s i f else s
    | none => s
  | .commit i =>
    match s.deposits[i]? with
    | some f => if f.phase = .loaded then commitDeposit s i f else s
    | none => s
  | .fail i => s.move s.world (s.deposits.eraseIdx i)

end CrynuxRelay
