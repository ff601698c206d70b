import CrynuxRelay.Base.Keyset
import CrynuxRelay.Model.RelayAccount

/-!
# The stream of events to the wallet

Ids of events are allocated when a transaction inserts them, and rows become visible when it commits.
The wallet asks for the events above the largest id that it has received.

* `buildEventPayload`, `loadVestingRecordsForEvents`, `getRelayAccountEventLogs` -- one poll of the wallet;
* `ProjectorBatch` -- a batch of the projector between its query and its transaction;
* `StreamStep`, `StreamStep.exec` -- inserts, commits, the parts of a batch and polls, in any order.
-/

namespace CrynuxRelay

/-! ## rows -/

/-- an event with the columns that only the stream reads; `createdAt` in seconds. -/
structure StreamRow where
  event : RelayAccountEvent
  createdAt : Nat := 0
  mac : Text := []
  deriving DecidableEq

def StreamRow.id (r : StreamRow) : Nat := r.event.id

def EventDraft.row (d : EventDraft) (id createdAt : Nat) : StreamRow where
  event := ⟨id, d.address, d.amount, .pending, d.reason, d.type⟩
  createdAt := createdAt

def StreamRow.withStatus (st : RelayAccountEventStatus) (r : StreamRow) : StreamRow :=
  { r with event := { r.event with status := st } }

/-- `GenerateMAC` and `VerifyMAC` under the secret key of the relay. -/
structure Macs where
  generate : Text → Text
  verify : Text → Text → Bool

variable (macs : Macs) (events : Table StreamRow.id)

def Macs.valid (r : StreamRow) : Bool := macs.verify r.event.reason r.mac

/-! ## payloads -/

structure VestingCreatedPayload where
  vestingID : Nat
  address : Text
  totalAmount : Int
  releasedAmount : Int := 0
  startTime : Int
  durationDays : Nat
  deriving DecidableEq

def buildVestingCreatedPayload (v : VestingRecord) : VestingCreatedPayload where
  vestingID := v.id
  address := v.address
  totalAmount := v.totalAmount
  startTime := v.startTime / 1000000000
  durationDays := v.durationDays

inductive EventPayload
  | empty
  | deposit (txHash network : Text)
  | vestingCreated (payload : VestingCreatedPayload)
  | vestingRelease (vestingID : Nat)
  deriving DecidableEq

inductive EventLogsError
  | invalidDepositReason (eventID : Nat)
  | invalidVestingCreatedReason (eventID : Nat)
  | vestingRecordNotFound (eventID vestingID : Nat)
  | invalidVestingReleaseReason (eventID : Nat)
  deriving DecidableEq

def buildEventPayload (vestingMap : Nat → Option VestingRecord) (e : RelayAccountEvent) :
    Except EventLogsError EventPayload :=
  match e.type with
  | .deposit =>
    match splitRelayAccountEventReason .deposit e.reason with
    | some [_, txHash, network] => .ok (.deposit txHash network)
    | _ => .error (.invalidDepositReason e.id)
  | .vestingCreated =>
    match parseVestingCreatedReason e.reason with
    | some vestingID =>
      match vestingMap vestingID with
      | some record => .ok (.vestingCreated (buildVestingCreatedPayload record))
      | none => .error (.vestingRecordNotFound e.id vestingID)
    | none => .error (.invalidVestingCreatedReason e.id)
  | .vestingRelease =>
    match parseVestingReleaseReason e.reason with
    | some (vestingID, _, _) => .ok (.vestingRelease vestingID)
    | none => .error (.invalidVestingReleaseReason e.id)
  | _ => .ok .empty

def vestingIDsForEvents : List StreamRow → Except EventLogsError (List Nat)
  | [] => .ok []
  | r :: l =>
    if r.event.type ≠ .vestingCreated ∨ r.event.status ≠ .processed then vestingIDsForEvents l
    else
      match parseVestingCreatedReason r.event.reason with
      | none => .error (.invalidVestingCreatedReason r.id)
      | some vestingID => (vestingIDsForEvents l).map (vestingID :: ·)

def loadVestingRecordsForEvents (db : Db) (rows : List StreamRow) :
    Except EventLogsError (Nat → Option VestingRecord) :=
  (vestingIDsForEvents rows).map fun vestingIDs vestingID =>
    if vestingID ∈ vestingIDs then db.vestingRecords.get vestingID else none

/-! ## polls -/

structure RelayAccountEventLog where
  id : Nat
  createdAt : Nat
  address : Text
  amount : Int
  type : RelayAccountEventType
  payload : EventPayload
  deriving DecidableEq

def StreamRow.toLog (r : StreamRow) (payload : EventPayload) : RelayAccountEventLog :=
  ⟨r.id, r.createdAt, r.event.address, r.event.amount, r.event.type, payload⟩

/-- the loop over a page: the logs up to the first pending event, and the ids with a wrong MAC. -/
def collectEventLogs (macs : Macs) (vestingMap : Nat → Option VestingRecord) :
    List StreamRow → Except EventLogsError (List RelayAccountEventLog × List Nat)
  | [] => .ok ([], [])
  | r :: l =>
    match r.event.status with
    | .pending => .ok ([], [])
    | .invalid => collectEventLogs macs vestingMap l
    | .processed =>
      if macs.valid r then
        match buildEventPayload vestingMap r.event with
        | .error e => .error e
        | .ok payload =>
          (collectEventLogs macs vestingMap l).map fun p => (r.toLog payload :: p.1, p.2)
      else (collectEventLogs macs vestingMap l).map fun p => (p.1, r.id :: p.2)

def eventLogsPage (startID limit : Nat) : List StreamRow :=
  Keyset.page StreamRow.id limit (some startID) (events.rows.filter fun r => r.event.status ≠ .invalid)

def getRelayAccountEventLogs (db : Db) (events : Table StreamRow.id) (startID limit : Nat) :
    Except EventLogsError (List RelayAccountEventLog × List Nat) := do
  let page := eventLogsPage events startID limit
  let vestingMap ← loadVestingRecordsForEvents db page
  collectEventLogs macs vestingMap page

/-! ## the projector -/

def setInvalid (ids : List Nat) (events : Table StreamRow.id) : Table StreamRow.id :=
  events.mapRows (fun r => if r.id ∈ ids then r.withStatus .invalid else r)
    fun r => by split <;> rfl

def setProcessed (ids : List Nat) (events : Table StreamRow.id) : Table StreamRow.id :=
  events.mapRows (fun r =>
    if r.id ∈ ids ∧ r.event.status = .pending then
      { r.withStatus .processed with mac := macs.generate r.event.reason } else r)
    fun r => by split <;> rfl

def pendingRows (limit : Nat) : List StreamRow :=
  Keyset.page StreamRow.id limit none (events.rows.filter fun r => r.event.status = .pending)

/-- a batch of the projector: read, or validated with the events it accepts. -/
inductive ProjectorBatch
  | read (rows : List StreamRow)
  | validated (valid : List RelayAccountEvent)

/-! ## schedules -/

/-- the relay and the wallet; `db` has the other tables, `inFlight` the rows of open transactions. -/
structure StreamState where
  db : Db
  nextID : Nat := 1
  inFlight : List (Nat × StreamRow) := []
  events : Table StreamRow.id := Table.empty
  batch : Option ProjectorBatch := none
  delivered : List RelayAccountEventLog := []

inductive StreamStep
  | insert (tx : Nat) (d : EventDraft) (createdAt : Nat)
  | commit (tx : Nat)
  | rollback (tx : Nat)
  | other (db : Db)
  | readBatch (limit : Nat)
  | validate (chain : Chain)
  | process
  | failBatch
  | poll (limit : Nat)

namespace StreamState

def startID (s : StreamState) : Nat := (s.delivered.map (·.id)).foldr max 0

def reveal (r : StreamRow) : Table StreamRow.id :=
  if events.get r.id = none then events.insert r else events

def KeepsVestings (db db' : Db) : Prop :=
  ∀ v ∈ db.vestingRecords.rows, (db'.vestingRecords.get v.id).isSome

instance (db db' : Db) : Decidable (KeepsVestings db db') :=
  inferInstanceAs (Decidable (∀ v ∈ db.vestingRecords.rows, (db'.vestingRecords.get v.id).isSome))

end StreamState

namespace StreamStep

def exec : StreamStep → StreamState → StreamState
  | insert tx d createdAt, s =>
    { s with
      nextID := s.nextID + 1
      inFlight := s.inFlight ++ [(tx, d.row s.nextID createdAt)] }
  | commit tx, s =>
    { s with
      inFlight := s.inFlight.filter fun p => p.1 ≠ tx
      events := ((s.inFlight.filter fun p => p.1 = tx).map (·.2)).foldl StreamState.reveal s.events }
  | rollback tx, s => { s with inFlight := s.inFlight.filter fun p => p.1 ≠ tx }
  | other db, s =>
    -- the other tables change in any way, but vesting records stay
    if StreamState.KeepsVestings s.db db then { s with db := db } else s
  | readBatch limit, s =>
    match s.batch with
    | none => { s with batch := some (.read (pendingRows s.events limit)) }
    | some _ => s
  | validate chain, s =>
    match s.batch with
    | some (.read rows) =>
      match validatePendingRelayAccountEvents chain s.db (rows.map (·.event)) with
      | .error _ => { s with batch := none }
      | .ok (valid, invalid) =>
        { s with
          db := markRecords (idsOfType .withdraw invalid) (idsOfType .deposit invalid) .invalid s.db
          events := setInvalid (idsOf invalid) s.events
          batch := some (.validated valid) }
    | _ => s
  | process, s =>
    match s.batch with
    | some (.validated valid) =>
      if valid = [] then { s with batch := none }
      else
        { s with
          db := markRecords (idsOfType .withdraw valid) (idsOfType .deposit valid) .processed
            (addMergedAccounts valid s.db)
          events := setProcessed macs (idsOf valid) s.events
          batch := none }
    | _ => s
  | failBatch, s => { s with batch := none }
  | poll limit, s =>
    match getRelayAccountEventLogs macs s.db s.events s.startID limit with
    | .error _ => s
    | .ok (logs, invalidIDs) =>
      { s with
        events := if invalidIDs = [] then s.events else setInvalid invalidIDs s.events
        delivered := s.delivered ++ logs }

end StreamStep

end CrynuxRelay
