import CrynuxRelay.Base.Snapshot
import CrynuxRelay.Model.Withdraw

/-!
# Concurrent withdrawals

A call of `Withdraw` is one transaction: it counts the withdrawals of the day in its snapshot, by
address and by benefit address, and its commit adds a record.  No row is locked.

* `commitWithdraw` -- the transaction, from its snapshot and the rows at its commit;
* `resolveWithdraw` -- the relay wallet resolves a record in between.
-/

namespace CrynuxRelay

structure WithdrawRequest where
  address : Text
  benefitAddress : Text
  amount : Int
  network : Text

/-- what a call meets on one day: the clock at its counts and at its insert, and whether the account
covers the charge. -/
structure WithdrawMoment (day : Time) where
  now : Time
  now_day : dayStart now = day
  createdAt : Time
  createdAt_day : dayStart createdAt = day
  charged : Bool

def withinDailyLimit (networkConfig : FundingNetwork) (c : WithdrawRequest) (now : Time) (db : Db) : Prop :=
  todayCount db now c.network (fun r => r.address = c.address) < networkConfig.maxWithdrawalsPerDay ∧
    todayCount db now c.network (fun r => r.benefitAddress = c.benefitAddress) <
      networkConfig.maxWithdrawalsPerDay

instance (networkConfig : FundingNetwork) (c : WithdrawRequest) (now : Time) (db : Db) :
    Decidable (withinDailyLimit networkConfig c now db) :=
  inferInstanceAs (Decidable (_ ∧ _))

def WithdrawRequest.record (c : WithdrawRequest) (env : Env) (networkConfig : FundingNetwork) (id : Nat)
    (createdAt : Time) : WithdrawRecord :=
  { id, createdAt, address := c.address, benefitAddress := c.benefitAddress, amount := c.amount,
    network := c.network, withdrawalFee := withdrawalFeeOf env networkConfig c.address c.amount }

def commitWithdraw (env : Env) {day : Time} (c : WithdrawRequest) (m : WithdrawMoment day)
    (snapshot db : Db) : Db :=
  match env.fundingNetwork c.network with
  | none => db
  | some networkConfig =>
    if withinDailyLimit networkConfig c m.now snapshot ∧ m.charged = true then
      { db with
        withdrawRecords := db.withdrawRecords.insert
          (c.record env networkConfig (nextWithdrawID db) m.createdAt) }
    else db

/-- a pending record is fulfilled or rejected. -/
structure WithdrawResolution where
  withdrawID : Nat
  fulfilled : Bool

def resolveRecord (fulfilled : Bool) (r : WithdrawRecord) : WithdrawRecord :=
  if r.status = .pending then { r with status := if fulfilled then .success else .failed } else r

lemma id_resolveRecord (fulfilled : Bool) (r : WithdrawRecord) :
    (resolveRecord fulfilled r).id = r.id := by
  rw [resolveRecord]
  split
  · rfl
  · rfl

def resolveWithdraw (e : WithdrawResolution) (db : Db) : Db :=
  { db with
    withdrawRecords := db.withdrawRecords.modify e.withdrawID (resolveRecord e.fulfilled)
      (id_resolveRecord e.fulfilled) }

abbrev WithdrawOp (day : Time) := Snapshot.Op WithdrawRequest (WithdrawMoment day) WithdrawResolution

def WithdrawOp.exec (env : Env) {day : Time} :
    WithdrawOp day → Snapshot.Store Db WithdrawRequest → Snapshot.Store Db WithdrawRequest :=
  Snapshot.Op.exec (commitWithdraw env) resolveWithdraw

end CrynuxRelay
