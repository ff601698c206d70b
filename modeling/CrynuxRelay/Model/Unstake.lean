import CrynuxRelay.Model.System

/-!
# The unstake events of the staking contract

`nodeTryUnstaked` reads the node, and then it makes up to three attempts on the copy, with a new read of the
status after every conflict.  Other operations of the relay run between its steps.

* `unstakeOnce` -- one pass of the switch over the status that the handler has read;
* `UnstakeCall` -- a call of the handler in progress;
* `UnstakeOp`, `UnstakeOp.exec` -- the steps of the calls, between all operations of the relay.
-/

namespace CrynuxRelay

lemma pendingQuit_address (n : Node) :
    ({ n with status := .pendingQuit } : Node).address = n.address := rfl

/-- a node without a task quits, a busy one quits later, and every other one is left alone. -/
def unstakeOnce (env : Env) (node : Node) : Relay Unit :=
  match node.status with
  | .available | .paused => setNodeStatusQuit env node false
  | .busy => node.updateStatus (fun n => { n with status := .pendingQuit }) pendingQuit_address
  | .quit | .pendingPause | .pendingQuit => pure ()

structure UnstakeCall where
  node : Node
  attempts : Nat := 3
  /-- the last attempt has met another status than the copy's. -/
  conflict : Bool := false

/-- `unstaked` are the nodes whose event has been processed and that have not joined again. -/
structure UnstakeState where
  relay : RelayState
  calls : List UnstakeCall := []
  unstaked : Text → Bool := fun _ => false

inductive UnstakeOp
  | relay (op : RelayOp)
  | observe (address network : Text) (blockTime : Time)
  | attempt (env : Env) (i : Nat)
  | sync (i : Nat)
  | fail (i : Nat)

def joinedBy (op : RelayOp) (w : World) : Option Text :=
  match op with
  | .request (.join env input) =>
    match (nodeJoin env input w).1 with
    | .ok _ => some input.address
    | .error _ => none
  | _ => none

/-- the read of the handler; an event of another network or from before the join is ignored. -/
def observeUnstake (db : Db) (address network : Text) (blockTime : Time) : Option UnstakeCall :=
  match db.nodes.get address with
  | none => none
  | some node =>
    if node.network ≠ network then none
    else if blockTime < node.joinTime then none
    else some { node := node }

def UnstakeState.done (s : UnstakeState) (i : Nat) (call : UnstakeCall) : UnstakeState :=
  { s with
    calls := s.calls.eraseIdx i
    unstaked := Function.update s.unstaked call.node.address true }

/-- what follows an attempt: a conflict uses it up, any other error ends the call. -/
def UnstakeState.attempted (s : UnstakeState) (i : Nat) (call : UnstakeCall) :
    Except Err Unit × World → UnstakeState
  | (.ok (), w) => { s with relay := { s.relay with world := w } }.done i call
  | (.error .nodeStatusChanged, w) =>
    { s with
      relay := { s.relay with world := w }
      calls := s.calls.set i { call with attempts := call.attempts - 1, conflict := true } }
  | (.error _, w) =>
    { s with
      relay := { s.relay with world := w }
      calls := s.calls.eraseIdx i }

def UnstakeState.attempt (s : UnstakeState) (env : Env) (i : Nat) (call : UnstakeCall) :
    UnstakeState :=
  s.attempted i call (unstakeOnce env call.node s.relay.world)

/-- the new read after a conflict; when no attempt is left the loop ends, with the error cleared. -/
def UnstakeState.sync (s : UnstakeState) (i : Nat) (call : UnstakeCall) : UnstakeState :=
  match s.relay.world.db.nodes.get call.node.address with
  | none => { s with calls := s.calls.eraseIdx i }
  | some row =>
    if call.attempts = 0 then s.done i call
    else
      { s with
        calls := s.calls.set i
          { call with node := { call.node with status := row.status }, conflict := false } }

def UnstakeOp.exec (op : UnstakeOp) (s : UnstakeState) : UnstakeState :=
  match op with
  | .relay op =>
    { s with
      relay := op.exec s.relay
      unstaked := match joinedBy op s.relay.world with
        | some a => Function.update s.unstaked a false
        | none => s.unstaked }
  | .observe address network blockTime =>
    match observeUnstake s.relay.world.db address network blockTime with
    | some call => { s with calls := s.calls ++ [call] }
    | none => s
  | .attempt env i =>
    match s.calls[i]? with
    | some call => if call.conflict then s else s.attempt env i call
    | none => s
  | .sync i =>
    match s.calls[i]? with
    | some call => if call.conflict then s.sync i call else s
    | none => s
  | .fail i => { s with calls := s.calls.eraseIdx i }

end CrynuxRelay
