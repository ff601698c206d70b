import Mathlib.Algebra.Order.BigOperators.Group.Finset
import CrynuxRelay.Base.Forever
import CrynuxRelay.Streams.Invariant

/-!
# Which events the wallet receives

An event is received just when it becomes visible before the wallet has received a larger id.

* `Reachable`, `exec_reachable` -- an event above the cursor is not passed over;
* `Late`, `exec_late` -- an event below it is never received;
* `stage`, `exec_stage` -- how far an id has come: no step takes it back, and polls bring it forward;
* `stream_delivers` -- an accepted event is received exactly once, or never, if it was late.
-/

namespace CrynuxRelay

open List Option Table StreamStep StreamState Nat

variable {s s' : StreamState} {k limit : Nat} {r x : StreamRow}

/-! ## above the cursor and below it -/

/-- the event is visible; if it is not rejected, it is above the cursor or was received. -/
def Reachable (id : Nat) (s : StreamState) : Prop :=
  (∃ r, s.events.get id = some r) ∧
    ∀ r, s.events.get id = some r → r.event.status ≠ .invalid → s.startID < id ∨ id ∈ s.receivedIDs

section delivery
variable {macs : Macs} {id : Nat}

lemma received_stays (i : StreamStep) (h : id ∈ s.receivedIDs) :
    id ∈ (i.exec macs s).receivedIDs := by
  rcases exec_delivered macs s i with hdel | ⟨limit, rfl⟩
  · rwa [receivedIDs, hdel]
  · have heff := poll_effect macs limit s
    cases heff with
    | failed _ _ hs => rw [hs]; exact h
    | returned logs ids _ _ hdel _ _ _ =>
      rw [receivedIDs, hdel, map_append]
      exact mem_append_left _ h

lemma startID_le_exec (i : StreamStep) : s.startID ≤ (i.exec macs s).startID :=
  startID_mono fun _ hn => received_stays i hn

/-- **a poll that goes beyond an event returns it**, unless it rejects it. -/
theorem poll_reachable (heff : PollEffect macs limit s s') (hget : s.events.get id = some r)
    {r' : StreamRow} (hget' : s'.events.get id = some r')
    (hst : r'.event.status ≠ .invalid) (hold : s.startID < id) :
    s'.startID < id ∨ id ∈ s'.receivedIDs := by
  cases heff with
  | failed _ _ hs => rw [hs]; exact .inl hold
  | returned logs ids hc hrows hdel _ _ _ =>
    have hid : r.id = id := key_of_get hget
    have hreceived : s'.receivedIDs = s.receivedIDs ++ logs.map (·.id) := by
      rw [receivedIDs, hdel, map_append]
      rfl
    by_cases hbeyond : ∃ n ∈ logs.map (·.id), id ≤ n
    · obtain ⟨n, hn, hle⟩ := hbeyond
      rw [hc.returned] at hn
      obtain ⟨x, hx, rfl⟩ := List.mem_map.1 hn
      -- the status of the row after the poll says that the poll has not rejected it
      rw [hrows, hget] at hget'
      have hr' := some.inj hget'
      beta_reduce at hr'
      split at hr'
      · rw [← hr'] at hst
        exact absurd rfl hst
      · next hno =>
        subst hr'
        have hpassed := mem_passed_of_le (hid.symm ▸ hget) (hid.symm ▸ hold) hst
          (mem_filter.1 hx).1 (hid.symm ▸ hle)
        have hproc := (mem_passed hpassed).2.2
        refine .inr ?_
        rw [hreceived, ← hid]
        refine mem_append_right _ (hc.mem_logs hpassed hproc ?_)
        by_contra hinvalid
        refine hno ?_
        rw [hc.rejected]
        exact List.mem_map_of_mem (mem_filter.2 ⟨hpassed, decide_eq_true
          ⟨hproc, Bool.eq_false_iff.2 hinvalid⟩⟩)
    · refine .inl (foldr_max_lt (zero_lt_of_lt hold) fun n hn => ?_)
      have hn : n ∈ s'.receivedIDs := hn
      rw [hreceived] at hn
      rcases mem_append.1 hn with hn | hn
      · exact lt_of_le_of_lt (le_startID hn) hold
      · exact not_le.1 fun hle => hbeyond ⟨n, hn, hle⟩

lemma exec_reachable (h : StreamInv macs s) (hr : Reachable id s) (i : StreamStep) :
    Reachable id (i.exec macs s) := by
  have hev := exec_events macs h.rows i
  obtain ⟨r, hget⟩ := hr.1
  obtain ⟨r', hget', hstep⟩ := hev.forth id r hget
  refine ⟨⟨r', hget'⟩, fun x hx hst => ?_⟩
  cases hget'.symm.trans hx
  rcases hr.2 r hget (hstep.not_invalid hst) with hold | hold
  · rcases exec_delivered macs s i with hdel | ⟨limit, rfl⟩
    · refine .inl ?_
      rwa [startID, hdel]
    · exact poll_reachable (poll_effect macs limit s) hget hget' hst
        hold
  · exact .inr (received_stays i hold)

/-- the event was not received, and the cursor has passed it. -/
def Late (id : Nat) (s : StreamState) : Prop := id ∉ s.receivedIDs ∧ id ≤ s.startID

theorem exec_late (h : Late id s) (i : StreamStep) : Late id (i.exec macs s) := by
  refine ⟨?_, le_trans h.2 (startID_le_exec i)⟩
  rcases exec_delivered macs s i with hdel | ⟨limit, rfl⟩
  · rw [receivedIDs, hdel]
    exact h.1
  · have heff := poll_effect macs limit s
    cases heff with
    | failed _ _ hs => rw [hs]; exact h.1
    | returned logs ids hc _ hdel _ _ _ =>
      rw [receivedIDs, hdel, map_append, mem_append]
      rintro (hmem | hmem)
      · exact h.1 hmem
      · exact absurd (hc.sorted.2 id hmem) (not_lt.2 h.2)

/-! ## progress -/

/-- how far an id has come: invisible, pending, accepted, and at last rejected or passed. -/
def stage (s : StreamState) (k : Nat) : Nat :=
  if k ≤ s.startID then 0
  else
    match s.events.get k with
    | none => 3
    | some r =>
      match r.event.status with
      | .pending => 2
      | .processed => 1
      | .invalid => 0

lemma stage_of_le (h : k ≤ s.startID) : stage s k = 0 := if_pos h

lemma stage_of_get (h : s.startID < k) (hget : s.events.get k = some r) : stage s k =
      match r.event.status with
      | .pending => 2 | .processed => 1 | .invalid => 0 := by
  rw [stage, if_neg (not_le.2 h), hget]

theorem exec_stage (h : StreamInv macs s) (i : StreamStep) (k : Nat) :
    stage (i.exec macs s) k ≤ stage s k := by
  have hev := exec_events macs h.rows i
  rcases lt_or_ge (i.exec macs s).startID k with hlt | hle
  · have hlt0 : s.startID < k := lt_of_le_of_lt (startID_le_exec i) hlt
    cases hget : s.events.get k with
    | none =>
      have h3 : stage s k = 3 := by rw [stage, if_neg (not_le.2 hlt0), hget]
      rw [h3, stage, if_neg (not_le.2 hlt)]
      split
      · exact le_refl 3
      · split <;> omega
    | some r =>
      obtain ⟨r', hget', hstep⟩ := hev.forth k r hget
      rw [stage_of_get hlt hget', stage_of_get hlt0 hget]
      cases hstep with
      | same he => rw [he]
      | processed hp he =>
        rw [hp, he]
        exact le_succ 1
      | rejected _ he =>
        rw [he]
        exact zero_le _
  · rw [stage_of_le hle]
    exact zero_le _

/-- **a poll brings the first row of its page forward**, if it is not pending. -/
theorem poll_stage (h : StreamInv macs s) (hx : x ∈ passed s.events s.startID limit) :
    stage ((poll limit).exec macs s) x.id < stage s x.id := by
  obtain ⟨hget, hlt, hst⟩ := mem_passed hx
  have h1 : stage s x.id = 1 := by rw [stage_of_get hlt hget, hst]
  rw [h1]
  have heff := poll_effect macs limit s
  generalize (poll limit).exec macs s = s' at heff ⊢
  cases heff with
  | failed e hfail _ =>
    obtain ⟨logs, ids, hok⟩ := getRelayAccountEventLogs_total macs s.startID limit h.rows.ready
    rw [hok] at hfail
    cases hfail
  | returned logs ids hc hrows hdel _ _ _ =>
    cases hvalid : macs.valid x with
    | true =>
      have hmem : x.id ∈ s'.receivedIDs := by
        rw [receivedIDs, hdel, map_append]
        exact mem_append_right _ (hc.mem_logs hx hst hvalid)
      rw [stage_of_le (le_startID hmem)]
      exact zero_lt_one
    | false =>
      have hmem : x.id ∈ ids := by
        rw [hc.rejected]
        exact List.mem_map_of_mem (mem_filter.2 ⟨hx, decide_eq_true ⟨hst, hvalid⟩⟩)
      have hget' : s'.events.get x.id = some (x.withStatus .invalid) := by
        rw [hrows, hget]
        simp only [map_some, hmem, if_true]
      rcases lt_or_ge s'.startID x.id with hlt' | hle'
      · rw [stage_of_get hlt' hget']
        exact zero_lt_one
      · rw [stage_of_le hle']
        exact zero_lt_one

end delivery

/-! ## every schedule -/

def streamAt (macs : Macs) (steps : Nat → StreamStep) (s₀ : StreamState) (n : Nat) : StreamState :=
  stateAt (StreamStep.exec macs) steps s₀ n

/-- the wallet never stops polling, and no event stays pending for ever. -/
structure FairStream (macs : Macs) (s₀ : StreamState) (steps : Nat → StreamStep) : Prop where
  polls : ∀ n, ∃ m, n ≤ m ∧ ∃ limit, 1 ≤ limit ∧ steps m = .poll limit
  settled : ∀ n id r, (streamAt macs steps s₀ n).events.get id = some r → r.event.status = .pending →
    ∃ m, n ≤ m ∧ ∀ r', (streamAt macs steps s₀ m).events.get id = some r' → r'.event.status ≠ .pending

structure EmptyStream (s : StreamState) : Prop where
  inFlight : s.inFlight = []
  events : ∀ id, s.events.get id = none
  batch : s.batch = none
  delivered : s.delivered = []

lemma EmptyStream.inv (h : EmptyStream s) (macs : Macs) : StreamInv macs s where
  rows :=
    { inFlight := fun p hp => absurd (h.inFlight ▸ hp) not_mem_nil
      ready := fun r hget => absurd ((h.events r.id).symm.trans hget) (some_ne_none r).symm
      read := fun rows hb => absurd (h.batch.symm.trans hb) (some_ne_none _).symm
      validated := fun valid hb => absurd (h.batch.symm.trans hb) (some_ne_none _).symm }
  sorted := by
    rw [receivedIDs, h.delivered]
    exact List.Pairwise.nil
  sound := fun g hg => absurd (h.delivered ▸ hg) not_mem_nil

section schedule
variable {macs : Macs} {s₀ : StreamState} {steps : Nat → StreamStep} {id n m : Nat}

lemma streamAt_inv (h₀ : StreamInv macs s₀) (n : Nat) : StreamInv macs (streamAt macs steps s₀ n) :=
  stateAt_invariant (StreamInv macs) (fun _ i h => exec_streamInv h i) (zero_le n) h₀

section
variable (h₀ : StreamInv macs s₀) (hnm : n ≤ m)
include h₀ hnm

lemma reachable_stays
    (h : Reachable id (streamAt macs steps s₀ n)) : Reachable id (streamAt macs steps s₀ m) := by
  have hstep : ∀ s i, StreamInv macs s ∧ Reachable id s →
      StreamInv macs (exec macs i s) ∧ Reachable id (exec macs i s) :=
    fun s i hs => ⟨exec_streamInv hs.1 i, exec_reachable hs.1 hs.2 i⟩
  exact (stateAt_invariant _ hstep hnm ⟨streamAt_inv h₀ n, h⟩).2

lemma stage_le (k : Nat) :
    stage (streamAt macs steps s₀ m) k ≤ stage (streamAt macs steps s₀ n) k := by
  have hstep : ∀ s i, StreamInv macs s ∧ stage s k ≤ stage (streamAt macs steps s₀ n) k →
      StreamInv macs (exec macs i s) ∧ stage (exec macs i s) k ≤ stage (streamAt macs steps s₀ n) k :=
    fun s i hs => ⟨exec_streamInv hs.1 i, le_trans (exec_stage hs.1 i k) hs.2⟩
  exact (stateAt_invariant _ hstep hnm ⟨streamAt_inv h₀ n, le_rfl⟩).2

end

def stagesUpTo (id : Nat) (s : StreamState) : Nat := ∑ k ∈ Finset.range (id + 1), stage s k

lemma stagesUpTo_lt (h₀ : StreamInv macs s₀) (hnm : n ≤ m) (hk : k ≤ id)
    (hlt : stage (streamAt macs steps s₀ m) k < stage (streamAt macs steps s₀ n) k) :
    stagesUpTo id (streamAt macs steps s₀ m) < stagesUpTo id (streamAt macs steps s₀ n) :=
  Finset.sum_lt_sum (fun j _ => stage_le h₀ hnm j) ⟨k, Finset.mem_range.2 (by omega), hlt⟩

lemma stage_lt_of_settled (hle : stage s' k ≤ stage s k) (hlt : s.startID < k)
    (hget : s.events.get k = some x) (hst : x.event.status = .pending)
    (hsettled : ∀ r, s'.events.get k = some r → r.event.status ≠ .pending) :
    stage s' k < stage s k := by
  have h2 : stage s k = 2 := by rw [stage_of_get hlt hget, hst]
  rw [h2] at hle ⊢
  rcases lt_or_ge s'.startID k with hlt' | hle'
  · cases hget' : s'.events.get k with
    | none => rw [stage, if_neg (not_le.2 hlt'), hget'] at hle; exact absurd hle (by decide)
    | some r =>
      have hne := hsettled r hget'
      rw [stage_of_get hlt' hget']
      cases hr : r.event.status with
      | pending => exact absurd hr hne
      | processed => exact one_lt_two
      | invalid => exact zero_lt_two
  · rw [stage_of_le hle']
    exact zero_lt_two

/-- **an accepted event that can be reached is received.** -/
theorem received_of_reachable (h₀ : StreamInv macs s₀) (fair : FairStream macs s₀ steps)
    (hr : Reachable id (streamAt macs steps s₀ n))
    (hget : (streamAt macs steps s₀ n).events.get id = some r) (hst : r.event.status = .processed)
    (hvalid : macs.valid r = true) : ∃ m, n ≤ m ∧ id ∈ (streamAt macs steps s₀ m).receivedIDs := by
  refine eventually_of_descent (fun m => stagesUpTo id (streamAt macs steps s₀ m)) fun l hnl => ?_
  obtain ⟨m, hlm, limit, hlimit, hpoll⟩ := fair.polls l
  have hmono : ∀ k, stage (streamAt macs steps s₀ m) k ≤ stage (streamAt macs steps s₀ l) k :=
    stage_le h₀ hlm
  have hstep : ∀ s i, StreamInv macs s ∧ s.events.get id = some r →
      StreamInv macs (exec macs i s) ∧ (exec macs i s).events.get id = some r := by
    rintro s i ⟨hs, hr⟩
    obtain ⟨r', hget', hrow⟩ := (exec_events macs hs.rows i).forth id r hr
    exact ⟨exec_streamInv hs i, (hrow.accepted hst hvalid) ▸ hget'⟩
  have hrow := (stateAt_invariant _ hstep (le_trans hnl hlm) ⟨streamAt_inv h₀ n, hget⟩).2
  have hid : r.id = id := key_of_get hget
  have hne : r.event.status ≠ .invalid := by rw [hst]; exact fun hc => nomatch hc
  rcases (reachable_stays h₀ (le_trans hnl hlm) hr).2 r hrow hne with hlt | hdone
  · -- the poll has a first row, at or below the event: it goes through it, or waits until it is settled
    obtain ⟨x, hx, hxid, hpass⟩ := exists_first hlimit (hid.symm ▸ hrow) (hid.symm ▸ hlt) hne
    obtain ⟨hxget, hxlt, -⟩ := mem_eventLogsPage hx
    by_cases hpending : x.event.status = .pending
    · obtain ⟨m', hmm', hsettled⟩ := fair.settled m x.id x hxget hpending
      refine ⟨m', le_trans hlm hmm', .inr (stagesUpTo_lt h₀ (le_trans hlm hmm') (hid ▸ hxid) ?_)⟩
      refine lt_of_lt_of_le (stage_lt_of_settled (stage_le h₀ hmm' x.id) hxlt hxget hpending hsettled) ?_
      exact hmono x.id
    · have hstep : streamAt macs steps s₀ (m + 1) =
          (poll limit).exec macs (streamAt macs steps s₀ m) := by
        rw [← hpoll]
        rfl
      refine ⟨m + 1, le_trans hlm (le_succ m), .inr
        (stagesUpTo_lt h₀ (le_trans hlm (le_succ m)) (hid ▸ hxid) ?_)⟩
      rw [hstep]
      exact lt_of_lt_of_le (poll_stage (streamAt_inv h₀ m) (hpass hpending)) (hmono x.id)
  · exact ⟨m, hlm, .inl hdone⟩

lemma startID_of_revealed {i : StreamStep} (hnone : s.events.get id = none)
    (hget : (i.exec macs s).events.get id = some r) : (i.exec macs s).startID = s.startID := by
  rcases exec_delivered macs s i with hdel | ⟨limit, rfl⟩
  · rw [startID, hdel]
    rfl
  · have heff := poll_effect macs limit s
    cases heff with
    | failed _ _ hs => rw [hs]
    | returned logs ids _ hrows _ _ _ _ =>
      rw [hrows, hnone] at hget
      cases hget

/-- **the wallet receives the ids in increasing order, and an accepted event exactly once** just when
the event became visible before the wallet had received a larger id. -/
theorem stream_delivers (macs : Macs) (s₀ : StreamState) (h₀ : EmptyStream s₀)
    (steps : Nat → StreamStep) (fair : FairStream macs s₀ steps) :
    (∀ n, (streamAt macs steps s₀ n).receivedIDs.Pairwise (· < ·) ∧
      ∀ g ∈ (streamAt macs steps s₀ n).delivered, ∃ r payload,
        (streamAt macs steps s₀ n).events.get g.id = some r ∧ r.event.status = .processed ∧
          macs.valid r = true ∧ g = r.toLog payload) ∧
    ∀ k n id r r', (streamAt macs steps s₀ k).events.get id = none →
      (streamAt macs steps s₀ (k + 1)).events.get id = some r →
      (streamAt macs steps s₀ n).events.get id = some r' → r'.event.status = .processed →
      macs.valid r' = true →
      ((∃ m, ∀ m', m ≤ m' → (streamAt macs steps s₀ m').receivedIDs.count id = 1) ↔
        (streamAt macs steps s₀ k).startID < id) := by
  have hinv : ∀ n, StreamInv macs (streamAt macs steps s₀ n) := streamAt_inv (h₀.inv macs)
  refine ⟨fun n => ⟨(hinv n).sorted, (hinv n).sound⟩, fun k n id r r' hnone hget hget' hst hvalid => ?_⟩
  constructor
  · rintro ⟨m, hm⟩
    by_contra hle
    have hlate : Late id (streamAt macs steps s₀ k) := by
      refine ⟨fun hmem => ?_, not_lt.1 hle⟩
      obtain ⟨g, hg, rfl⟩ := List.mem_map.1 hmem
      obtain ⟨x, -, hx, -⟩ := (hinv k).sound g hg
      exact absurd (hnone.symm.trans hx) (some_ne_none x).symm
    have hstays : Late id (streamAt macs steps s₀ (max k m)) :=
      stateAt_invariant (Late id) (fun _ i h => exec_late h i) (le_max_left k m) hlate
    refine hstays.1 (count_pos_iff.1 ?_)
    rw [hm _ (le_max_right k m)]
    exact zero_lt_one
  · intro hlt
    have hvisible : Reachable id (streamAt macs steps s₀ (k + 1)) := by
      refine ⟨⟨r, hget⟩, fun _ _ _ => .inl ?_⟩
      rw [show (streamAt macs steps s₀ (k + 1)).startID = (streamAt macs steps s₀ k).startID from
        startID_of_revealed hnone hget]
      exact hlt
    have hkn : k + 1 ≤ n := by
      by_contra hle
      have hstep : ∀ s i, (StreamInv macs s ∧ ∃ r, s.events.get id = some r) →
          StreamInv macs (exec macs i s) ∧ ∃ r, (exec macs i s).events.get id = some r := by
        rintro s i ⟨hs, r, hget⟩
        obtain ⟨r', hget', -⟩ := (exec_events macs hs.rows i).forth id r hget
        exact ⟨exec_streamInv hs i, r', hget'⟩
      obtain ⟨x, hx⟩ := (stateAt_invariant _ hstep (by omega : n ≤ k) ⟨hinv n, r', hget'⟩).2
      exact absurd (hnone.symm.trans hx) (some_ne_none x).symm
    obtain ⟨m, -, hmem⟩ := received_of_reachable (h₀.inv macs) fair
      (reachable_stays (h₀.inv macs) hkn hvisible) hget' hst hvalid
    refine ⟨m, fun m' hm => count_eq_one_of_mem ?_ ?_⟩
    · exact (hinv m').sorted.imp fun hab => ne_of_lt hab
    · exact stateAt_invariant (fun s : StreamState => id ∈ s.receivedIDs)
        (fun _ i h => received_stays i h) hm hmem

end schedule

/-! ## two payments -/

def paymentsStream : StreamState where
  db :=
    { tasks := (Table.empty.insert
        { taskIDCommitment := "0xc1".toList, creator := "0xa1".toList, taskFee := 3 }).insert
          { taskIDCommitment := "0xc2".toList, creator := "0xa1".toList, taskFee := 3 }
      relayAccounts := fun a => if a = "0xa1".toList then some 10 else none }

def payment (c : Text) : EventDraft := ⟨.taskPayment, reason2 .taskPayment c, "0xa1".toList, 3⟩

lemma emptyStream_payments : EmptyStream paymentsStream := ⟨rfl, fun _ => rfl, rfl, rfl⟩

def plainMacs : Macs := ⟨fun reason => reason, fun reason mac => reason = mac⟩

def onePayment : Nat → StreamStep
  | 0 => .insert 1 (payment "0xc1".toList) 0
  | 1 => .commit 1
  | 2 => .readBatch 50
  | 3 => .validate silentChain
  | 4 => .process
  | _ => .poll 10

lemma onePayment_settled {m : Nat} (hm : 5 ≤ m) :
    ∀ id r, (streamAt plainMacs onePayment paymentsStream m).events.get id = some r →
      r.event.status ≠ .pending := by
  induction m, hm using Nat.le_induction with
  | base =>
    intro id r hget
    have hid : r.id = id := key_of_get hget
    have hmem := mem_rows.2 (hid ▸ hget)
    rw [mem_singleton.1 hmem]
    exact fun hc => nomatch hc
  | succ m hm ih =>
    intro id r hget
    have hstep : streamAt plainMacs onePayment paymentsStream (m + 1) =
        (poll 10).exec plainMacs (streamAt plainMacs onePayment paymentsStream m) := by
      obtain ⟨j, rfl⟩ := Nat.exists_eq_add_of_le' hm
      rfl
    have heff := poll_effect plainMacs 10 (streamAt plainMacs onePayment paymentsStream m)
    rw [← hstep] at heff
    cases heff with
    | failed _ _ hs =>
      rw [hs] at hget
      exact ih id r hget
    | returned logs ids _ hrows _ _ _ _ =>
      rw [hrows] at hget
      obtain ⟨x, hx, rfl⟩ := map_eq_some_iff.1 hget
      split
      · exact fun hc => nomatch hc
      · exact ih id x hx

lemma fairStream_onePayment : FairStream plainMacs paymentsStream onePayment := by
  refine ⟨fun n => ⟨n + 5, le_add_right n 5, 10, by decide, rfl⟩, fun n id r _ _ => ?_⟩
  exact ⟨max n 5, le_max_left n 5, fun r' => onePayment_settled (le_max_right n 5) id r'⟩

theorem stream_delivers_at_onePayment : ∃ m, ∀ m', m ≤ m' →
      (streamAt plainMacs onePayment paymentsStream m').receivedIDs.count 1 = 1 := by
  have hget : (streamAt plainMacs onePayment paymentsStream 5).events.get 1 = some
      ⟨⟨1, "0xa1".toList, 3, .processed, reason2 .taskPayment "0xc1".toList, .taskPayment⟩, 0,
        reason2 .taskPayment "0xc1".toList⟩ := by
    decide +kernel
  refine ((stream_delivers plainMacs paymentsStream emptyStream_payments onePayment
    fairStream_onePayment).2 1 5 1 ((payment "0xc1".toList).row 1 0) _ rfl ?_ hget rfl ?_).2 ?_
  all_goals decide +kernel

/-- the second transaction commits first, and its event is projected and received before the first
transaction commits. -/
def lateCommit : List StreamStep :=
  [.insert 1 (payment "0xc1".toList) 0, .insert 2 (payment "0xc2".toList) 0, .commit 2, .readBatch 50,
    .validate silentChain, .process, .poll 10, .commit 1, .readBatch 50, .validate silentChain, .process]

/-- an accepted event with a right MAC that the wallet never receives: it became visible when the
wallet had received a larger id. -/
theorem late_commit_lost :
    ((run (StreamStep.exec plainMacs) lateCommit paymentsStream).events.get 1).map
        (fun r => (r.event.status, plainMacs.valid r)) = some (.processed, true) ∧
      (run (StreamStep.exec plainMacs) lateCommit paymentsStream).receivedIDs = [2] ∧
      ∀ rest, 1 ∉ (run (StreamStep.exec plainMacs) rest
        (run (StreamStep.exec plainMacs) lateCommit paymentsStream)).receivedIDs := by
  have hreceived : (run (exec plainMacs) lateCommit paymentsStream).receivedIDs = [2] := by
    decide +kernel
  refine ⟨by decide +kernel, hreceived, fun rest => ?_⟩
  have hlate : Late 1 (run (exec plainMacs) lateCommit paymentsStream) := by
    refine ⟨by rw [hreceived]; decide, ?_⟩
    exact le_trans (by decide) (le_startID (n := 2) (by rw [hreceived]; decide))
  have hstep : ∀ s i, Late 1 s → True → Late 1 (exec plainMacs i s) :=
    fun s i h _ => exec_late h i
  exact (run_invariant hstep rest _ (Along.of_forall (fun _ _ => trivial) rest _) hlate).1

end CrynuxRelay
