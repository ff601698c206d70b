import CrynuxRelay.Accounts.Marks
import CrynuxRelay.Base.Ranges
import CrynuxRelay.Model.Vesting
import CrynuxRelay.Vestings.Schedule

/-!
# Vesting releases are exact

A round starts when no release is pending and visits every record once, so no record is released again
before the projector has accepted its last release.

* `releasesOf` -- the ranges of the releases of a record, read back from the reasons of its events;
* `RecordExact`, `ReleaseEvent` -- a record with its releases, and a release with its record;
* `VestingInv` -- the invariant, with the records that the round in progress has left behind it.
-/

namespace CrynuxRelay

open List Table Tx Text

variable {id : Nat} {latest : Option Time} {v v' : VestingRecord} {t t' : Table VestingRecord.id}
    {db db' : Db}

/-! ## the releases of a record -/

def releaseOf (d : EventDraft) : Option (Nat × Int × Int) :=
  if d.type = .vestingRelease then parseVestingReleaseReason d.reason else none

def releasesOf (log : List EventDraft) (id : Nat) : List (Int × Int) :=
  log.filterMap fun d => (releaseOf d).bind fun r => if r.1 = id then some r.2 else none

def releaseDraft (id : Nat) (address : Text) (x y : Int) : EventDraft :=
  ⟨.vestingRelease, vestingReleaseReason id x y, address, y - x⟩

lemma vestingReleaseDraft_eq (v : VestingRecord) (y : Int) :
    vestingReleaseDraft v y = releaseDraft v.id v.address v.releasedAmount y := rfl

lemma releaseOf_releaseDraft (address : Text) {x : Int} (y : Int) (hid : id < 2 ^ 64) (hx : 0 ≤ x) :
    releaseOf (releaseDraft id address x y) = some (id, x, y) := by
  have hs : splitRelayAccountEventReason .vestingRelease (vestingReleaseReason id x y) =
      some [decimal RelayAccountEventType.vestingRelease.code, decimal id, ofInt x, ofInt y] :=
    splitReason_reason4 rfl (dash_not_mem_decimal id) (dash_not_mem_ofInt hx) _
  rw [releaseOf, releaseDraft, if_pos rfl, parseVestingReleaseReason, hs]
  simp only
  rw [parseUint_decimal hid, parseInt_ofInt, parseInt_ofInt]
  rfl

lemma releaseOf_other {d : EventDraft} (h : d.type ≠ .vestingRelease) : releaseOf d = none :=
  if_neg h

lemma releasesOf_append_release (log : List EventDraft) {n : Nat} (address : Text) {x : Int}
    (y : Int) (hn : n < 2 ^ 64) (hx : 0 ≤ x) (id : Nat) :
    releasesOf (log ++ [releaseDraft n address x y]) id =
      if n = id then releasesOf log id ++ [(x, y)] else releasesOf log id := by
  have hone : releasesOf [releaseDraft n address x y] id = if n = id then [(x, y)] else [] := by
    by_cases h : n = id
    · subst h
      simp [releasesOf, releaseOf_releaseDraft address y hn hx]
    · simp [releasesOf, releaseOf_releaseDraft address y hn hx, h]
  rw [releasesOf, filterMap_append]
  show releasesOf log id ++ releasesOf [releaseDraft n address x y] id = _
  rw [hone]
  split
  · rfl
  · exact append_nil _

/-! ## the invariant -/

/-- what the schedule of a record has come to at the latest time of a round. -/
def scheduledAt (v : VestingRecord) : Option Time → Int
  | none => 0
  | some now => v.scheduled now

structure RecordExact (log : List EventDraft) (latest : Option Time) (id : Nat) (v : VestingRecord) :
    Prop where
  id_pos : 0 < id
  id_lt : id < 2 ^ 64
  total_pos : 0 < v.totalAmount
  duration_pos : 0 < v.durationDays
  chain : Contiguous 0 (releasesOf log id) v.releasedAmount
  schedule : v.releasedAmount ≤ scheduledAt v latest
  status : v.status = .active ∨ (v.status = .completed ∧ v.releasedAmount = v.totalAmount)

lemma RecordExact.nonneg {log : List EventDraft} (h : RecordExact log latest id v) :
    0 ≤ v.releasedAmount := h.chain.le

lemma scheduledAt_mem (hT : 0 < v.totalAmount) (hD : 0 < v.durationDays) (latest : Option Time) :
    0 ≤ scheduledAt v latest ∧ scheduledAt v latest ≤ v.totalAmount := by
  cases latest with
  | none => exact ⟨le_refl 0, hT.le⟩
  | some now => exact ⟨scheduled_nonneg hT hD, scheduled_le_total hT hD⟩

lemma RecordExact.le_total {log : List EventDraft} (h : RecordExact log latest id v) :
    v.releasedAmount ≤ v.totalAmount :=
  le_trans h.schedule (scheduledAt_mem h.total_pos h.duration_pos latest).2

/-- a release event with its record: it was never rejected, and while it is pending it is the last
release of the record. -/
structure ReleaseEvent (db : Db) (e : RelayAccountEvent) (id : Nat) (x y : Int) (v : VestingRecord) :
    Prop where
  record : db.vestingRecords.get id = some v
  draft : e.draft = releaseDraft id v.address x y
  nonneg : 0 ≤ x
  lt : x < y
  le : y ≤ v.releasedAmount
  last : e.status = .pending → y = v.releasedAmount
  kept : e.status ≠ .invalid

def PendingRelease (db : Db) (id : Nat) : Prop :=
  ∃ e ∈ db.relayAccountEvents.rows, e.status = .pending ∧ ∃ x y, releaseOf e.draft = some (id, x, y)

/-- the round in progress has left the records with a pending release behind it. -/
structure ReleaseRoundInv (db : Db) (latest : Option Time) (r : ReleaseRound) : Prop where
  sorted : (r.startID :: r.todo).Pairwise (· < ·)
  behind : ∀ id, PendingRelease db id → id ≤ r.startID
  records : ∀ id ∈ r.todo, ∃ v, db.vestingRecords.get id = some v
  time : ∃ t, latest = some t ∧ r.env.now ≤ t

structure VestingInv (s : VestingState) : Prop where
  records : ∀ id v, s.world.db.vestingRecords.get id = some v →
    RecordExact (logOf s.world.db) s.latest id v
  named : ∀ d ∈ logOf s.world.db, ∃ x, d.reason = reason2 d.type x
  events : ∀ e ∈ s.world.db.relayAccountEvents.rows, e.type = .vestingRelease →
    ∃ id x y v, ReleaseEvent s.world.db e id x y v
  round : ∀ r, s.round = some r → ReleaseRoundInv s.world.db s.latest r

/-! ## steps that release nothing -/

/-- a record that was released as far, with another flag or completed. -/
structure VestingKept (v v' : VestingRecord) : Prop where
  address : v'.address = v.address
  totalAmount : v'.totalAmount = v.totalAmount
  releasedAmount : v'.releasedAmount = v.releasedAmount
  startTime : v'.startTime = v.startTime
  durationDays : v'.durationDays = v.durationDays
  status : v'.status = v.status ∨ (v'.status = .completed ∧ v.totalAmount ≤ v.releasedAmount)

lemma VestingKept.refl (v : VestingRecord) : VestingKept v v := ⟨rfl, rfl, rfl, rfl, rfl, .inl rfl⟩

lemma VestingKept.scheduledAt (h : VestingKept v v') (latest : Option Time) :
    CrynuxRelay.scheduledAt v' latest = CrynuxRelay.scheduledAt v latest := by
  cases latest with
  | none => rfl
  | some now =>
    show computeVestingShouldReleased _ _ _ _ = computeVestingShouldReleased _ _ _ _
    rw [h.totalAmount, h.startTime, h.durationDays]

lemma RecordExact.kept {log log' : List EventDraft} (h : RecordExact log latest id v)
    (hv : VestingKept v v') (hlog : releasesOf log' id = releasesOf log id) :
    RecordExact log' latest id v' where
  id_pos := h.id_pos
  id_lt := h.id_lt
  total_pos := hv.totalAmount ▸ h.total_pos
  duration_pos := hv.durationDays ▸ h.duration_pos
  chain := by rw [hlog, hv.releasedAmount]; exact h.chain
  schedule := by rw [hv.scheduledAt, hv.releasedAmount]; exact h.schedule
  status := by
    have hle := h.le_total
    rw [hv.releasedAmount, hv.totalAmount]
    rcases hv.status with hst | ⟨hst, hall⟩
    · rw [hst]
      exact h.status
    · exact .inr ⟨hst, le_antisymm hle hall⟩

/-- the records of `t'` are those of `t`, each released as far. -/
def RecordsAlike (t t' : Table VestingRecord.id) : Prop :=
  ∀ id, Option.Rel VestingKept (t.get id) (t'.get id)

lemma RecordsAlike.refl (t : Table VestingRecord.id) : RecordsAlike t t := by
  intro id
  cases t.get id with
  | none => exact .none
  | some v => exact .some (VestingKept.refl v)

lemma RecordsAlike.forth (h : RecordsAlike t t') (hget : t.get id = some v) :
    ∃ v', t'.get id = some v' ∧ VestingKept v v' := by
  have hid := h id
  rw [hget] at hid
  generalize t'.get id = o at hid ⊢
  cases hid with
  | some hv => exact ⟨_, rfl, hv⟩

lemma RecordsAlike.back (h : RecordsAlike t t') (hget : t'.get id = some v') :
    ∃ v, t.get id = some v ∧ VestingKept v v' := by
  have hid := h id
  rw [hget] at hid
  generalize t.get id = o at hid ⊢
  cases hid with
  | some hv => exact ⟨_, rfl, hv⟩

lemma recordsAlike_mapRows (t : Table VestingRecord.id) (f : VestingRecord → VestingRecord)
    (hf : ∀ v, (f v).id = v.id) (hk : ∀ v, VestingKept v (f v)) : RecordsAlike t (t.mapRows f hf) := by
  intro id
  rw [get_mapRows]
  cases t.get id with
  | none => exact .none
  | some v => exact .some (hk v)

/-- the log gets other events and other statuses: no release is rejected or pending again. -/
structure LogAlike (db db' : Db) : Prop where
  rows : ∃ (f : RelayAccountEvent → RelayAccountEventStatus) (es : List RelayAccountEvent),
    db'.relayAccountEvents.rows =
      (db.relayAccountEvents.rows.map fun e => { e with status := f e }) ++ es ∧
    (∀ e ∈ es, e.type ≠ .vestingRelease ∧ ∃ x, e.reason = reason2 e.type x) ∧
    ∀ e ∈ db.relayAccountEvents.rows, e.type = .vestingRelease →
      f e = e.status ∨ (e.status = .pending ∧ f e = .processed)

lemma logAlike_of_eq (h : db'.relayAccountEvents = db.relayAccountEvents) : LogAlike db db' :=
  ⟨fun e => e.status, [], by rw [h, map_id', append_nil], nofun, fun _ _ _ => .inl rfl⟩

section alike
variable {s : VestingState} {w' : World}

lemma LogAlike.log (h : LogAlike db db') :
    (∀ id, releasesOf (logOf db') id = releasesOf (logOf db) id) ∧
      ((∀ d ∈ logOf db, ∃ x, d.reason = reason2 d.type x) →
        ∀ d ∈ logOf db', ∃ x, d.reason = reason2 d.type x) := by
  obtain ⟨f, es, hrows, hes, -⟩ := h.rows
  have hlog : logOf db' = logOf db ++ es.map (·.draft) := by
    rw [logOf, hrows, map_append, map_map]
    rfl
  rw [hlog]
  refine ⟨fun id => ?_, ?_⟩
  · rw [releasesOf, filterMap_append]
    refine (congrArg (releasesOf (logOf db) id ++ ·) (filterMap_eq_nil_iff.2 fun d hd => ?_)).trans (append_nil _)
    obtain ⟨e, he, rfl⟩ := mem_map.1 hd
    rw [releaseOf_other (hes e he).1]
    rfl
  · intro hnamed d hd
    rcases mem_append.1 hd with hd | hd
    · exact hnamed d hd
    · obtain ⟨e, he, rfl⟩ := mem_map.1 hd
      exact (hes e he).2

lemma LogAlike.pendingRelease (h : LogAlike db db') (hp : PendingRelease db' id) :
    PendingRelease db id := by
  obtain ⟨f, es, hrows, hes, hf⟩ := h.rows
  obtain ⟨e', he', hst, x, y, hrel⟩ := hp
  have hty : e'.draft.type = .vestingRelease := by
    by_contra hno
    rw [releaseOf_other hno] at hrel
    cases hrel
  rw [hrows, mem_append] at he'
  rcases he' with he' | he'
  · obtain ⟨e, he, rfl⟩ := mem_map.1 he'
    refine ⟨e, he, ?_, x, y, hrel⟩
    rcases hf e he hty with hsame | ⟨hpend, -⟩
    · rwa [← hsame]
    · exact hpend
  · exact absurd hty (hes e' he').1

/-- **a step that releases nothing.** -/
theorem VestingInv.alike (h : VestingInv s)
    (hrec : RecordsAlike s.world.db.vestingRecords w'.db.vestingRecords)
    (hlog : LogAlike s.world.db w'.db) : VestingInv (s.withWorld w') := by
  refine ⟨?_, hlog.log.2 h.named, ?_, ?_⟩
  · intro id v' hget'
    obtain ⟨v, hget, hv⟩ := hrec.back hget'
    exact (h.records id v hget).kept hv (hlog.log.1 id)
  · intro e' he' hty
    obtain ⟨f, es, hrows, hes, hf⟩ := hlog.rows
    have he' : e' ∈ w'.db.relayAccountEvents.rows := he'
    rw [hrows, mem_append] at he'
    rcases he' with he' | he'
    · obtain ⟨e, he, rfl⟩ := mem_map.1 he'
      obtain ⟨id, x, y, v, hev⟩ := h.events e he hty
      obtain ⟨v', hget', hv⟩ := hrec.forth hev.record
      refine ⟨id, x, y, v', hget', ?_, hev.nonneg, hev.lt, ?_, ?_, ?_⟩
      · rw [hv.address]
        exact hev.draft
      · rw [hv.releasedAmount]
        exact hev.le
      · intro hst
        rw [hv.releasedAmount]
        refine hev.last ?_
        rcases hf e he hty with hsame | ⟨hpend, -⟩
        · rwa [← hsame]
        · exact hpend
      · rcases hf e he hty with hsame | ⟨-, hproc⟩
        · show f e ≠ .invalid
          rw [hsame]
          exact hev.kept
        · show f e ≠ .invalid
          rw [hproc]
          exact fun hc => nomatch hc
    · exact absurd hty (hes e' he').1
  · intro r hr
    have hround := h.round r hr
    exact ⟨hround.sorted, fun id hp => hround.behind id (hlog.pendingRelease hp),
      fun id hid => (hround.records id hid).elim fun _ hv => (hrec.forth hv).imp fun _ h => h.1, hround.time⟩

end alike

/-! ## other events, new records, flags -/

lemma logAlike_post {t : RelayAccountEventType} (ht : t ≠ .vestingRelease) (x address : Text)
    (amount : Int) (w : World) :
    LogAlike w.db (after (createRelayAccountEvent t (reason2 t x) address amount) w).db ∧
      (after (createRelayAccountEvent t (reason2 t x) address amount) w).db.vestingRecords =
        w.db.vestingRecords := by
  rcases ok_or_fails (createRelayAccountEvent t (reason2 t x) address amount) w with
    ⟨u, h⟩ | ⟨e, h⟩
  · obtain ⟨hr, hw⟩ := (ok_createRelayAccountEvent (d := ⟨t, reason2 t x, address, amount⟩)).1 h
    rw [hw]
    obtain ⟨es, hrows, hes, -⟩ := appends_appendEvent hr
    refine ⟨⟨fun e => e.status, es, ?_, ?_, fun _ _ _ => .inl rfl⟩, rfl⟩
    · rw [hrows, map_id']
    · intro e he
      have hd : e.draft ∈ [(⟨t, reason2 t x, address, amount⟩ : EventDraft)] :=
        hes ▸ mem_map_of_mem he
      have hd := mem_singleton.1 hd
      have hty : e.type = t := congrArg EventDraft.type hd
      refine ⟨hty ▸ ht, x, ?_⟩
      rw [hty]
      exact congrArg EventDraft.reason hd
  · obtain ⟨-, -, hw⟩ := (fails_createRelayAccountEvent (d := ⟨t, reason2 t x, address, amount⟩)).1 h
    rw [hw]
    exact ⟨logAlike_of_eq rfl, rfl⟩

lemma VestingInv.releasesOf_eq_nil {s : VestingState} (h : VestingInv s)
    (hid : s.world.db.vestingRecords.get id = none) : releasesOf (logOf s.world.db) id = [] := by
  refine filterMap_eq_nil_iff.2 fun d hd => ?_
  obtain ⟨e, he, rfl⟩ := mem_map.1 hd
  by_cases hty : e.type = .vestingRelease
  · obtain ⟨n, x, y, v, hev⟩ := h.events e he hty
    have hn : n ≠ id := by
      rintro rfl
      have hget := hev.record
      rw [hid] at hget
      cases hget
    rw [hev.draft, releaseOf_releaseDraft _ _ (h.records n v hev.record).id_lt hev.nonneg]
    exact if_neg hn
  · rw [releaseOf_other hty]
    rfl

def withVesting (v : VestingRecord) (w : World) : World :=
  ⟨{ w.db with vestingRecords := w.db.vestingRecords.insert v }, w.mem⟩

lemma VestingInv.insert {s : VestingState} (h : VestingInv s)
    (hfree : s.world.db.vestingRecords.get v.id = none) (hpos : 0 < v.id) (hlt : v.id < 2 ^ 64)
    (hT : 0 < v.totalAmount) (hD : 0 < v.durationDays) (hr : v.releasedAmount = 0)
    (hst : v.status = .active) : VestingInv (s.withWorld (withVesting v s.world)) := by
  have hget := fun j => get_insert s.world.db.vestingRecords v j hfree
  have hold : ∀ {j u}, s.world.db.vestingRecords.get j = some u →
      (s.world.db.vestingRecords.insert v).get j = some u := by
    intro j u hj
    rw [hget, if_neg, hj]
    rintro rfl
    rw [hfree] at hj
    cases hj
  refine ⟨?_, h.named, ?_, ?_⟩
  · intro j u hj
    have hj := (hget j).symm.trans hj
    split at hj
    · next he =>
      cases hj
      refine ⟨he ▸ hpos, he ▸ hlt, hT, hD, ?_, ?_, .inl hst⟩
      · show Contiguous 0 (releasesOf (logOf s.world.db) j) _
        rw [he, h.releasesOf_eq_nil hfree, hr]
        rfl
      · rw [hr]
        exact (scheduledAt_mem hT hD _).1
    · exact h.records j u hj
  · intro e he hty
    obtain ⟨n, x, y, u, hev⟩ := h.events e he hty
    exact ⟨n, x, y, u, hold hev.record, hev.draft, hev.nonneg, hev.lt, hev.le, hev.last, hev.kept⟩
  · intro r hround
    have hr' := h.round r hround
    exact ⟨hr'.sorted, hr'.behind, fun j hj => by
      obtain ⟨u, hu⟩ := hr'.records j hj
      exact ⟨u, hold hu⟩, hr'.time⟩

lemma vestingKept_flag (v : VestingRecord) (b : Bool) : VestingKept v { v with slashed := b } :=
  ⟨rfl, rfl, rfl, rfl, rfl, .inl rfl⟩

lemma createVestingRecord_cases (id : Nat) (input : NewVesting) (w : World) :
    (after (createVestingRecord id input) w).db = w.db ∨
      ((0 < input.durationDays ∧ 0 < input.totalAmount ∧ 0 < id ∧ id < 2 ^ 64 ∧
          w.db.vestingRecords.get id = none) ∧
        (after (createVestingRecord id input) w).db.vestingRecords =
          (withVesting (input.record id) w).db.vestingRecords ∧
        LogAlike w.db (after (createVestingRecord id input) w).db) := by
  rcases ok_or_fails (createVestingRecord id input) w with ⟨u, hok⟩ | ⟨e, hfails⟩
  · generalize after (createVestingRecord id input) w = w' at hok ⊢
    rw [createVestingRecord, ok_require_bind, ok_require_bind, ok_transaction,
      ok_getDb_bind, ok_require_bind, ok_modifyDb_bind] at hok
    obtain ⟨hD, ⟨hT, -⟩, ⟨hpos, hlt, hfree⟩, hok⟩ := hok
    have hpost := logAlike_post (t := .vestingCreated) (fun hc => nomatch hc) (decimal id)
      input.address 0 (withVesting (input.record id) w)
    have hok : Ok _ (withVesting (input.record id) w) u w' := hok
    rw [hok.after_eq] at hpost
    exact .inr ⟨⟨hD, hT, hpos, hlt, hfree⟩, hpost.2, ⟨hpost.1.rows⟩⟩
  · have hatomic : Tx.Atomic (createVestingRecord id input) := by
      unfold createVestingRecord
      exact Tx.atomic
    exact .inl (hatomic _ _ _ hfails)

section
variable {s : VestingState} (h : VestingInv s)
include h

lemma VestingInv.create (id : Nat) (input : NewVesting) :
    VestingInv (s.withWorld (after (createVestingRecord id input) s.world)) := by
  rcases createVestingRecord_cases id input s.world with hdb | ⟨⟨hD, hT, hpos, hlt, hfree⟩, hrec, hlog⟩
  · exact h.alike (by rw [hdb]; exact RecordsAlike.refl _) (logAlike_of_eq (by rw [hdb]))
  · have hins := h.insert (v := input.record id) hfree hpos hlt hT hD rfl rfl
    exact hins.alike (by rw [hrec]; exact RecordsAlike.refl _) ⟨hlog.rows⟩

/-! ## the projector -/

/-- **the projector rejects no release**: a pending one is the last of its record. -/
theorem VestingInv.eventRule (chain : Chain) {e : RelayAccountEvent}
    (he : e ∈ s.world.db.relayAccountEvents.rows) (hty : e.type = .vestingRelease)
    (hp : e.status = .pending) : CrynuxRelay.eventRule chain s.world.db e = true := by
  obtain ⟨id, x, y, v, hev⟩ := h.events e he hty
  have hrec := h.records id v hev.record
  have hy := hev.last hp
  refine eventRule_vestingRelease hrec.id_lt ⟨v.address, v.totalAmount, x, y, ?_, hev.nonneg, hev.lt,
    hy ▸ hrec.le_total, hev.draft⟩
  rw [hev.record, hy]
  rfl

lemma VestingInv.project (chain : Chain) (limit : Nat) :
    VestingInv (s.withWorld (after (projectPending chain limit) s.world)) ∧
      LogAlike s.world.db (after (projectPending chain limit) s.world).db := by
  obtain ⟨f, hm, -⟩ := projectPending_marks chain limit s.world
  have hlog : LogAlike s.world.db (after (projectPending chain limit) s.world).db := by
    refine ⟨f, [], by rw [hm.rows, append_nil], nofun, ?_⟩
    intro e he hty
    by_cases hb : e ∈ projectorBatch s.world.db limit
    · have hp := (mem_projectorBatch hb).2
      have hdebit : e.type.isDebit = false := by rw [hty]; rfl
      rcases hm.accepted e hb hdebit (h.eventRule chain he hty hp) with hf | hf
      · exact .inl (hf.trans hp.symm)
      · exact .inr ⟨hp, hf⟩
    · exact .inl (hm.outside e he hb)
  exact ⟨h.alike (by rw [hm.vestings]; exact RecordsAlike.refl _) hlog, hlog⟩

end

end CrynuxRelay
