import Mathlib.Data.Char
import Mathlib.Data.List.Lex
import Mathlib.Data.List.Sort
import CrynuxRelay.Model.Matching

/-!
# The locks of the node index

The lock of a node is a part of its slot in the index, and a refresh that finds the node gone takes
the slot out of the map while other calls may still wait for it.

* `IndexSlot` -- a slot with its identity: the same address may have one slot after the other;
* `Phase`, `IndexCall` -- a call of `ExecuteNodeStateUpdate` or `LockNodeIndexByAddress`, and how far it is;
* `IndexState` -- the map, the slots and the calls, with the states of the database so far;
* `IndexStep`, `IndexStep.exec` -- the calls advance by single steps, in any order.
-/

namespace CrynuxRelay

structure IndexSlot where
  address : Text
  serial : Nat
  deriving DecidableEq

/-- what the index should hold of a node: nothing when the row is missing or the node has quit. -/
def nodeEntry (node : Option Node) (files : List NodeModelFileRow) : Option NodeIndexEntry :=
  match node with
  | none => none
  | some node => if node.status = .quit then none else some (buildNodeIndexEntry node files)

/-! ## calls -/

inductive Phase
  | locking (todo : List Text)
  | waiting (slot : IndexSlot) (todo : List Text)
  | running
  | refreshing (todo : List IndexSlot)
  | readNode (slot : IndexSlot) (node : Option Node) (todo : List IndexSlot)
  | readFiles (slot : IndexSlot) (node : Node) (files : List NodeModelFileRow)
      (todo : List IndexSlot)
  | unlocking

inductive CallKind
  | executeNodeStateUpdate
  | lockNodeIndexByAddress
  deriving DecidableEq

/-- `committed` is the number of the database state that the call has committed last. -/
structure IndexCall where
  kind : CallKind
  addresses : List Text
  phase : Phase := .locking addresses
  held : List IndexSlot := []
  committed : Nat := 0

def uniqueAddresses (addresses : List Text) : List Text :=
  ((addresses.filter fun a => a ≠ []).dedup).insertionSort fun a b => a ≤ b

namespace IndexCall

variable (address : Text) (call : IndexCall)

def executeNodeStateUpdate (addresses : List Text) : IndexCall where
  kind := .executeNodeStateUpdate
  addresses := uniqueAddresses addresses

def lockNodeIndexByAddress : IndexCall where
  kind := .lockNodeIndexByAddress
  addresses := [address]

/-- the slots that the call has a reference to: those it holds and the one it waits for. -/
def refs : List IndexSlot :=
  match call.phase with
  | .waiting slot _ => slot :: call.held
  | _ => call.held

def pending : List Text :=
  match call.phase with
  | .locking _ | .waiting _ _ | .running => call.addresses
  | .refreshing todo => todo.map (·.address)
  | .readNode slot _ todo | .readFiles slot _ _ todo => (slot :: todo).map (·.address)
  | .unlocking => []

/-- the call is over for an address: it has unlocked it. -/
def CompletedOn (address : Text) : Prop :=
  call.phase = .unlocking ∧ address ∈ call.addresses ∧ ∀ slot ∈ call.held, slot.address ≠ address

end IndexCall

/-! ## the state -/

structure IndexState where
  past : List Db := []
  db : Db
  slots : Text → Option Nat
  made : Text → Nat
  holder : IndexSlot → Option Nat := fun _ => none
  entry : IndexSlot → Option NodeIndexEntry
  calls : List IndexCall := []

/-- the index after the start of the relay: a slot for each node that has not quit. -/
def initNodeIndex (db : Db) : IndexState where
  db := db
  slots := fun a => (nodeEntry (db.nodes.get a) (db.nodeModels a)).map fun _ => 0
  made := fun a => if (nodeEntry (db.nodes.get a) (db.nodeModels a)).isSome then 1 else 0
  entry := fun slot =>
    if slot.serial = 0 then nodeEntry (db.nodes.get slot.address) (db.nodeModels slot.address)
    else none

namespace IndexState

variable (s : IndexState) (address : Text) (c : Nat) (call : IndexCall)

def versions : List Db := s.past ++ [s.db]

def indexed : Option NodeIndexEntry :=
  (s.slots address).bind fun n => s.entry ⟨address, n⟩

def getSlot : IndexSlot × IndexState :=
  match s.slots address with
  | some n => (⟨address, n⟩, s)
  | none =>
    let slot : IndexSlot := ⟨address, s.made address⟩
    (slot, { s with
        slots := Function.update s.slots address (some slot.serial)
        made := Function.update s.made address (slot.serial + 1)
        holder := Function.update s.holder slot none
        entry := Function.update s.entry slot none })

def removeSlot : IndexState :=
  { s with slots := Function.update s.slots address none }

def storeEntry (slot : IndexSlot) (e : NodeIndexEntry) : IndexState :=
  { s with entry := Function.update s.entry slot (some e) }

def setHolder (slot : IndexSlot) (c : Option Nat) : IndexState :=
  { s with holder := Function.update s.holder slot c }

def setCall : IndexState :=
  { s with calls := s.calls.set c call }

def commit (db : Db) : IndexState :=
  { s with past := s.past ++ [s.db], db := db }

/-- the next step of a call: of its lock loop, of a refresh or of its unlock loop. -/
def advance : IndexState :=
  match call.phase with
  | .locking [] => s.setCall c { call with phase := .running }
  | .locking (address :: todo) =>
    let (slot, s) := s.getSlot address
    s.setCall c { call with phase := .waiting slot todo }
  | .waiting slot todo =>
    match s.holder slot with
    | some _ => s
    | none =>
      (s.setHolder slot (some c)).setCall c
        { call with phase := .locking todo, held := call.held ++ [slot] }
  | .running => s
  | .refreshing [] => s.setCall c { call with phase := .unlocking }
  | .refreshing (slot :: todo) =>
    s.setCall c { call with phase := .readNode slot (s.db.nodes.get slot.address) todo }
  | .readNode slot none todo =>
    (s.removeSlot slot.address).setCall c { call with phase := .refreshing todo }
  | .readNode slot (some node) todo =>
    if node.status = .quit then
      (s.removeSlot slot.address).setCall c { call with phase := .refreshing todo }
    else
      s.setCall c { call with phase := .readFiles slot node (s.db.nodeModels slot.address) todo }
  | .readFiles slot node files todo =>
    (s.storeEntry slot (buildNodeIndexEntry node files)).setCall c
      { call with phase := .refreshing todo }
  | .unlocking =>
    match call.held.getLast? with
    | none => s
    | some slot =>
      (s.setHolder slot none).setCall c { call with held := call.held.dropLast }

/-- the function of the call has returned, and the refreshes start.  `RefreshNodeIndexLocked` asks
the map for the slot once more. -/
def finish : IndexState :=
  match call.phase, call.kind, call.addresses with
  | .running, .lockNodeIndexByAddress, [address] =>
    let (slot, s) := s.getSlot address
    s.setCall c { call with phase := .refreshing [slot] }
  | .running, _, _ => s.setCall c { call with phase := .refreshing call.held }
  | _, _, _ => s

/-- a join that is refused before it has written anything. -/
def leave : IndexState :=
  match call.phase, call.kind, call.committed with
  | .running, .lockNodeIndexByAddress, 0 => s.setCall c { call with phase := .unlocking }
  | _, _, _ => s

def commitOf (db : Db) : IndexState :=
  match call.phase with
  | .running => (s.commit db).setCall c { call with committed := s.past.length + 1 }
  | _ => s

/-- a read of the refresh fails, which is only logged. -/
def failRefresh : IndexState :=
  match call.phase with
  | .refreshing (_ :: todo) => s.setCall c { call with phase := .refreshing todo }
  | .readNode _ (some node) todo =>
    if node.status = .quit then s else s.setCall c { call with phase := .refreshing todo }
  | _ => s

def withCall (f : IndexCall → IndexState) : IndexState :=
  match s.calls[c]? with
  | some call => f call
  | none => s

def start : IndexState :=
  { s with calls := s.calls ++ [call] }

end IndexState

/-! ## steps -/

/-- `write` is a write of another part of the relay. -/
inductive IndexStep
  | executeNodeStateUpdate (addresses : List Text)
  | lockNodeIndexByAddress (address : Text)
  | advance (c : Nat)
  | commit (c : Nat) (db : Db)
  | finish (c : Nat)
  | leave (c : Nat)
  | failRefresh (c : Nat)
  | write (db : Db)

def IndexStep.exec : IndexStep → IndexState → IndexState
  | executeNodeStateUpdate addresses, s => s.start (.executeNodeStateUpdate addresses)
  | lockNodeIndexByAddress address, s => s.start (.lockNodeIndexByAddress address)
  | advance c, s => s.withCall c (s.advance c)
  | commit c db, s => s.withCall c fun call => s.commitOf c call db
  | finish c, s => s.withCall c (s.finish c)
  | leave c, s => s.withCall c (s.leave c)
  | failRefresh c, s => s.withCall c (s.failRefresh c)
  | write db, s => s.commit db

end CrynuxRelay
