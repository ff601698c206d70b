import CrynuxRelay.Vestings.Releases

/-!
# Rounds of releases keep the invariant

* `VestingInv.not_recorded`, `VestingInv.release_total` -- no release of a round fails;
* `VestingInv.released` -- the record and its event after a release;
* `exec_inv` -- every step keeps the invariant.
-/

namespace CrynuxRelay

open List Option Table Tx VestingRecord VestingStep

variable {env : Env} {id : Nat} {w' : World} {v : VestingRecord} {y : Int} {s : VestingState}
  {w : World} {db : Db} {r : ReleaseRound} {rest : List Nat}

/-! ## one release -/

lemma releaseDueVesting_total
    (hle : v.scheduled env.now ≤ v.totalAmount) (hr : v.releasedAmount < v.scheduled env.now →
      ¬ Recorded w.db (vestingReleaseDraft v (v.scheduled env.now)).reason) :
    Total (releaseDueVesting env v) w fun _ _ => True := by
  by_cases hmore : v.scheduled env.now ≤ v.releasedAmount
  · have hdo : releaseDueVesting env v = Tx.when (v.totalAmount ≤ v.releasedAmount)
        (updateVestingRecord v.id completed id_completed) := if_pos hmore
    rw [hdo]
    exact total_when ⟨(), _, ok_modifyDb.2 rfl, trivial⟩ trivial
  · have hlt := Int.not_le.1 hmore
    have hr := not_recorded_iff.2 (hr hlt)
    have hcredit := (ok_creditRelayAccount (w := w)).2 ⟨hr, rfl, rfl⟩
    have hrelease : Total (releaseVestingToRelayAccount v.id v.address v.releasedAmount
        (v.scheduled env.now)) w fun _ _ => True :=
      total_require_bind hlt.le (total_require_bind (Int.sub_pos_of_lt hlt)
        (total_getDb_bind (total_require_bind hr ⟨_, _, hcredit, trivial⟩)))
    refine (congrArg (fun x => Total x w _) (if_neg hmore)).mpr ?_
    refine total_require_bind hle (total_bind (hrelease.mono fun f w1 _ _ => ?_))
    exact Ok.total_then (ok_modifyDb.2 rfl) ⟨(), _, ok_runCommitFunc.2 rfl, trivial⟩

/-- **a range above the released amount was never released before.** -/
theorem VestingInv.not_recorded (h : VestingInv s) (hget : s.world.db.vestingRecords.get id = some v)
    (hy : v.releasedAmount < y) :
    ¬ Recorded s.world.db (vestingReleaseReason id v.releasedAmount y) := by
  intro hrec
  obtain ⟨d, hd, hreason⟩ := recorded_iff_log.1 hrec
  obtain ⟨x, hx⟩ := h.named d hd
  obtain ⟨e, he, rfl⟩ := List.mem_map.1 hd
  have hty : e.draft.type = .vestingRelease := (reason2_inj.1 (hx.symm.trans hreason)).1
  obtain ⟨n, x', y', v', hev⟩ := h.events e he hty
  have hread : releaseOf e.draft = releaseOf (releaseDraft id v.address v.releasedAmount y) := by
    rw [releaseOf, hty, hreason]
    rfl
  have hexact := h.records id v hget
  rw [hev.draft, releaseOf_releaseDraft _ _ (h.records n v' hev.record).id_lt hev.nonneg,
    releaseOf_releaseDraft _ _ hexact.id_lt hexact.nonneg] at hread
  cases hread
  have hv : v' = v := some.inj (hev.record.symm.trans hget)
  have hle := hev.le
  rw [hv] at hle
  exact absurd hy (not_lt.2 hle)

theorem VestingInv.release_total (h : VestingInv s) (hget : s.world.db.vestingRecords.get id = some v)
    (env : Env) : Total (processSingleVestingRelease env id) s.world fun _ _ => True := by
  have hexact := h.records id v hget
  have hid : v.id = id := key_of_get hget
  refine total_transaction (total_getDb_bind (total_orFail_bind hget ?_))
  refine total_when (releaseDueVesting_total ?_ fun hlt => ?_) trivial
  · exact scheduled_le_total hexact.total_pos hexact.duration_pos
  · have hr := h.not_recorded hget hlt
    rwa [← hid] at hr

/-! ## after a release -/

def releasedWorld (v : VestingRecord) (y : Int) (w : World) : World :=
  modifyVesting v.id (VestingRecord.releasedTo v.totalAmount y) (VestingRecord.id_releasedTo _ _)
    (credit (vestingReleaseDraft v y) w)

/-- the records and the events after a release: one record released further, and one event more. -/
structure Released (db db' : Db) (id : Nat) (v : VestingRecord) (y : Int) (e : RelayAccountEvent) :
    Prop where
  record : db.vestingRecords.get id = some v
  more : v.releasedAmount < y
  get : ∀ j, db'.vestingRecords.get j =
    if j = id then some (v.releasedTo v.totalAmount y) else db.vestingRecords.get j
  rows : db'.relayAccountEvents.rows = db.relayAccountEvents.rows ++ [e]
  draft : e.draft = releaseDraft id v.address v.releasedAmount y
  pending : e.status = .pending

lemma released_releasedWorld (hget : w.db.vestingRecords.get id = some v)
    (hmore : v.releasedAmount < y) (hr : ¬ Recorded w.db (vestingReleaseDraft v y).reason) :
    ∃ e, Released w.db (releasedWorld v y w).db id v y e := by
  have hid : v.id = id := key_of_get hget
  obtain ⟨es, hrows, hes, hpend⟩ := appends_appendEvent (not_recorded_iff.2 hr)
  obtain ⟨e, rfl⟩ : ∃ e, es = [e] := length_eq_one_iff.1 (by
    rw [← length_map, hes, length_singleton])
  refine ⟨e, hget, hmore, fun j => ?_, hrows, ?_, hpend e mem_cons_self⟩
  · rw [releasedWorld, modifyVesting, get_modify, hid]
    split
    · show (w.db.vestingRecords.get id).map _ = _
      rw [hget]
      rfl
    · rfl
  · rw [← hid, ← vestingReleaseDraft_eq]
    exact (cons.inj hes).1

section released
variable {db' : Db} {e : RelayAccountEvent}

lemma Released.logOf (hrel : Released db db' id v y e) :
    CrynuxRelay.logOf db' = CrynuxRelay.logOf db ++ [releaseDraft id v.address v.releasedAmount y] := by
  rw [CrynuxRelay.logOf, hrel.rows, map_append, map_singleton, hrel.draft]
  rfl

section
variable (hrel : Released s.world.db db' id v y e) (h : VestingInv s)
include hrel h

lemma Released.releasesOf (j : Nat) : CrynuxRelay.releasesOf (CrynuxRelay.logOf db') j =
      if id = j then CrynuxRelay.releasesOf (CrynuxRelay.logOf s.world.db) j ++ [(v.releasedAmount, y)]
      else CrynuxRelay.releasesOf (CrynuxRelay.logOf s.world.db) j := by
  have hexact := h.records id v hrel.record
  rw [hrel.logOf]
  exact releasesOf_append_release _ _ _ hexact.id_lt hexact.nonneg j

lemma Released.records (hy : y ≤ scheduledAt v s.latest) {j : Nat} {u : VestingRecord}
    (hj : db'.vestingRecords.get j = some u) : RecordExact (CrynuxRelay.logOf db') s.latest j u := by
  have hexact := h.records id v hrel.record
  rw [hrel.get] at hj
  split at hj
  · next he =>
    cases hj
    subst he
    refine ⟨hexact.id_pos, hexact.id_lt, hexact.total_pos, hexact.duration_pos, ?_, ?_, ?_⟩
    · rw [hrel.releasesOf h, if_pos rfl]
      exact hexact.chain.snoc hrel.more
    · cases hl : s.latest with
      | _ => rw [hl] at hy; exact hy
    · by_cases hall : y = v.totalAmount
      · exact .inr ⟨if_pos hall, hall⟩
      · exact .inl (if_neg hall)
  · next hne =>
    refine (h.records j u hj).kept (VestingKept.refl u) ?_
    rw [hrel.releasesOf h, if_neg (Ne.symm hne)]

/-- the new event is the last of its record; the older ones must not be pending. -/
lemma Released.events (hno : ¬ PendingRelease s.world.db id) {e' : RelayAccountEvent}
    (he' : e' ∈ db'.relayAccountEvents.rows) (hty : e'.type = .vestingRelease) :
    ∃ id x y v, ReleaseEvent db' e' id x y v := by
  have hexact := h.records id v hrel.record
  rw [hrel.rows, mem_append, mem_singleton] at he'
  rcases he' with hold | rfl
  · obtain ⟨n, x, z, u, hev⟩ := h.events e' hold hty
    by_cases hn : n = id
    · subst hn
      obtain rfl : u = v := some.inj (hev.record.symm.trans hrel.record)
      refine ⟨n, x, z, _, (hrel.get n).trans (if_pos rfl), hev.draft, hev.nonneg, hev.lt,
        le_trans hev.le hrel.more.le, fun hst => absurd ⟨e', hold, hst, x, z, ?_⟩ hno, hev.kept⟩
      rw [hev.draft, releaseOf_releaseDraft _ _ hexact.id_lt hev.nonneg]
    · exact ⟨n, x, z, u, ((hrel.get n).trans (if_neg hn)).trans hev.record, hev.draft, hev.nonneg,
        hev.lt, hev.le, hev.last, hev.kept⟩
  · refine ⟨id, v.releasedAmount, y, _, (hrel.get id).trans (if_pos rfl), hrel.draft, hexact.nonneg,
      hrel.more, le_refl _, fun _ => rfl, ?_⟩
    rw [hrel.pending]
    exact fun hc => nomatch hc

lemma Released.pendingRelease {n : Nat}
    (hp : PendingRelease db' n) : PendingRelease s.world.db n ∨ n = id := by
  have hexact := h.records id v hrel.record
  obtain ⟨e', he', hst, x, z, hread⟩ := hp
  rw [hrel.rows, mem_append, mem_singleton] at he'
  rcases he' with hold | rfl
  · exact .inl ⟨e', hold, hst, x, z, hread⟩
  · rw [hrel.draft, releaseOf_releaseDraft _ _ hexact.id_lt hexact.nonneg] at hread
    cases hread
    exact .inr rfl

end

end released

lemma ReleaseRoundInv.next {db' : Db} {latest : Option Time} (h : ReleaseRoundInv db latest r)
    (htodo : r.todo = id :: rest) (hp : ∀ n, PendingRelease db' n → PendingRelease db n ∨ n = id)
    (hrec : ∀ n v, db.vestingRecords.get n = some v → ∃ v', db'.vestingRecords.get n = some v') :
    r.startID < id ∧ ReleaseRoundInv db' latest (r.next id rest) := by
  have hsorted := h.sorted
  rw [htodo] at hsorted
  obtain ⟨hhead, htail⟩ := pairwise_cons.1 hsorted
  have hlt : r.startID < id := hhead id mem_cons_self
  refine ⟨hlt, htail, fun n hn => ?_, fun n hn => ?_, h.time⟩
  · rcases hp n hn with hn | rfl
    · exact le_trans (h.behind n hn) hlt.le
    · exact le_refl _
  · obtain ⟨v, hv⟩ := h.records n (by rw [htodo]; exact mem_cons_of_mem _ hn)
    exact hrec n v hv

/-- **after a release** the new event is the last one of its record, and the only one that can be
pending. -/
theorem VestingInv.released (h : VestingInv s) {e : RelayAccountEvent} (hround : s.round = some r)
    (htodo : r.todo = id :: rest)
    (hrel : Released s.world.db w'.db id v (v.scheduled r.env.now) e) :
    VestingInv { s with world := w', round := some (r.next id rest) } := by
  have hri := h.round r hround
  have hexact := h.records id v hrel.record
  have hrec : ∀ n u, s.world.db.vestingRecords.get n = some u → ∃ u', w'.db.vestingRecords.get n = some u' := by
    intro n u hn
    rw [hrel.get]
    split
    · exact ⟨_, rfl⟩
    · exact ⟨u, hn⟩
  obtain ⟨hlt, hnext⟩ := hri.next htodo (fun n => hrel.pendingRelease h) hrec
  refine ⟨fun j u hj => hrel.records h ?_ hj, fun d hd => ?_, fun e' he' hty => ?_, fun r' hr' => ?_⟩
  · obtain ⟨t, ht, hnow⟩ := hri.time
    rw [ht]
    exact scheduled_mono hexact.total_pos hexact.duration_pos hnow
  · rcases mem_append.1 (hrel.logOf ▸ hd) with hd | hd
    · exact h.named d hd
    · rw [mem_singleton.1 hd]
      exact ⟨_, rfl⟩
  · refine hrel.events h (fun hp => ?_) he' hty
    exact absurd (hri.behind id hp) (not_le.2 hlt)
  · cases hr'
    exact hnext

/-! ## the steps of a round -/

inductive ReleaseEffect (env : Env) (v : VestingRecord) (w w' : World) : Prop
  | notDue (h : ¬ (v.status = .active ∧ v.slashed = false)) (hw : w' = w)
  | nothing (h : v.scheduled env.now ≤ v.releasedAmount) (hmore : v.releasedAmount < v.totalAmount)
    (hw : w' = w)
  | completed (h : v.totalAmount ≤ v.releasedAmount)
    (hw : w' = modifyVesting v.id VestingRecord.completed VestingRecord.id_completed w)
  | released (hactive : v.status = .active) (hslashed : v.slashed = false) (e : RelayAccountEvent)
    (h : Released w.db w'.db v.id v (v.scheduled env.now) e)

/-- **the step of a round at a record**: the release succeeds, and the round goes on behind it. -/
theorem VestingInv.release_cases (h : VestingInv s)
    (hrec : ∃ v, s.world.db.vestingRecords.get id = some v) (rest : List Nat) :
    ∃ v w', s.world.db.vestingRecords.get id = some v ∧ ReleaseEffect r.env v s.world w' ∧
      s.release r id rest = { s with world := w', round := some (r.next id rest) } := by
  obtain ⟨v, hget⟩ := hrec
  have hid : v.id = id := key_of_get hget
  obtain ⟨u, w', hok, -⟩ := h.release_total hget r.env
  refine ⟨v, w', hget, ?_, ?_⟩
  · have hrun := hok
    rw [processSingleVestingRelease, ok_transaction, ok_getDb_bind] at hrun
    obtain ⟨v', hget', hrun⟩ := ok_orFail_bind.1 hrun
    obtain rfl : v' = v := some.inj (hget'.symm.trans hget)
    rcases ok_when.1 hrun with ⟨hdue, hrel⟩ | ⟨hdue, hw⟩
    · have hdue := of_decide_eq_true hdue
      rcases releaseDueVesting_cases hrel with ⟨hle, hmore, hw⟩ | ⟨hall, hw⟩ | ⟨hmore, -, hr, hw⟩
      · exact .nothing hle hmore hw
      · exact .completed hall hw
      · obtain ⟨e, hreleased⟩ := released_releasedWorld (hid ▸ hget) hmore hr
        exact .released hdue.1 hdue.2 e (hw ▸ hreleased)
    · exact .notDue (of_decide_eq_false hdue) hw
  · rw [VestingState.release, show processSingleVestingRelease r.env id s.world = (.ok u, w') from hok]

lemma recordsAlike_completed (hget : w.db.vestingRecords.get v.id = some v)
    (hall : v.totalAmount ≤ v.releasedAmount) : RecordsAlike w.db.vestingRecords
      (modifyVesting v.id completed id_completed w).db.vestingRecords := by
  intro j
  rw [modifyVesting, get_modify]
  split
  · next he =>
    rw [he, hget]
    exact .some ⟨rfl, rfl, rfl, rfl, rfl, .inr ⟨rfl, hall⟩⟩
  · exact RecordsAlike.refl _ j

lemma VestingInv.withRound (h : VestingInv s) {o : Option ReleaseRound}
    (ho : ∀ r, o = some r → ReleaseRoundInv s.world.db s.latest r) : VestingInv { s with round := o } :=
  ⟨h.records, h.named, h.events, ho⟩

lemma VestingInv.noRound (h : VestingInv s) : VestingInv { s with round := none } :=
  h.withRound fun r hr => absurd hr (some_ne_none r).symm

lemma VestingInv.release (h : VestingInv s) (hround : s.round = some r)
    (htodo : r.todo = id :: rest) : VestingInv (s.release r id rest) := by
  have hri := h.round r hround
  have hrec := hri.records id (by rw [htodo]; exact mem_cons_self)
  obtain ⟨v, w', hget, heff, heq⟩ := h.release_cases (r := r) hrec rest
  have hid : v.id = id := key_of_get hget
  rw [heq]
  have hskip : VestingInv { s with round := some (r.next id rest) } := by
    refine h.withRound fun r' hr' => ?_
    cases hr'
    exact (hri.next htodo (fun n hn => .inl hn) fun n v hv => ⟨v, hv⟩).2
  cases heff with
  | notDue _ hw => rw [hw]; exact hskip
  | nothing _ _ hw => rw [hw]; exact hskip
  | completed hall hw =>
    rw [hw]
    exact hskip.alike (recordsAlike_completed (hid ▸ hget) hall) (logAlike_of_eq rfl)
  | released _ _ e hrel =>
    rw [hid] at hrel
    exact h.released hround htodo hrel

lemma VestingInv.begin (h : VestingInv s) (env : Env)
    (hno : hasPendingVestingReleaseEvent s.world.db = false) :
    VestingInv
      { s with
        round := some { env := env }
        latest := some (max env.now (s.latest.getD env.now)) } := by
  refine ⟨fun id v hget => ?_, h.named, h.events, fun r hr => ?_⟩
  · have hexact := h.records id v hget
    refine ⟨hexact.id_pos, hexact.id_lt, hexact.total_pos, hexact.duration_pos, hexact.chain, ?_,
      hexact.status⟩
    refine le_trans hexact.schedule ?_
    cases s.latest with
    | none => exact scheduled_nonneg hexact.total_pos hexact.duration_pos
    | some t => exact scheduled_mono hexact.total_pos hexact.duration_pos (le_max_right _ _)
  · cases hr
    refine ⟨pairwise_singleton _ _, fun id hp => ?_, nofun, _, rfl, le_max_left _ _⟩
    obtain ⟨e, he, hst, x, y, hread⟩ := hp
    have hty : e.type = .vestingRelease := by
      by_contra hne
      rw [releaseOf_other hne] at hread
      cases hread
    exact absurd (decide_eq_true ⟨hty, hst⟩) (any_eq_false.1 hno e he)

lemma mem_releasePage {startID batchSize : Nat} (hv : v ∈ releasePage db startID batchSize) :
    db.vestingRecords.get v.id = some v ∧ startID < v.id := by
  obtain ⟨hmem, hlt⟩ := Keyset.mem_above.1 (Keyset.mem_above_of_page hv)
  exact ⟨mem_rows.1 (mem_filter.1 hmem).1, hlt startID rfl⟩

lemma VestingInv.readPage (h : VestingInv s) (hround : s.round = some r)
    (batchSize : Nat) : VestingInv { s with
        round := some { r with todo := (releasePage s.world.db r.startID batchSize).map (·.id) } } := by
  have hri := h.round r hround
  refine h.withRound fun r' hr' => ?_
  cases hr'
  have hmem : ∀ id ∈ (releasePage s.world.db r.startID batchSize).map (·.id),
      r.startID < id ∧ ∃ v, s.world.db.vestingRecords.get id = some v := by
    intro id hid
    obtain ⟨v, hv, rfl⟩ := List.mem_map.1 hid
    exact ⟨(mem_releasePage hv).2, v, (mem_releasePage hv).1⟩
  have hnd : ((s.world.db.vestingRecords.rows.filter fun v =>
      decide (v.status = .active ∧ v.slashed = false)).map VestingRecord.id).Nodup :=
    (nodup_map_key_rows _).sublist (filter_sublist.map _)
  exact ⟨pairwise_cons.2 ⟨fun id hid => (hmem id hid).1, Keyset.pairwise_page hnd⟩, hri.behind,
    fun id hid => (hmem id hid).2, hri.time⟩

/-! ## every step -/

theorem exec_inv (h : VestingInv s) (i : VestingStep) : VestingInv (i.exec s) := by
  cases i with
  | create id input => exact h.create id input
  | post t x address amount =>
    rw [exec]
    split
    · exact h
    · next ht =>
      obtain ⟨hlog, hrec⟩ := logAlike_post ht x address amount s.world
      exact h.alike (by rw [hrec]; exact RecordsAlike.refl _) hlog
  | slash address | restore address =>
    refine h.alike (recordsAlike_mapRows _ _ (fun v => by split <;> rfl) fun v => ?_) (logAlike_of_eq rfl)
    split
    · exact vestingKept_flag v _
    · exact VestingKept.refl v
  | project chain limit => exact (h.project chain limit).1
  | beginRound env =>
    rw [exec]
    split
    · exact h
    · split
      · exact h
      · next hno => exact h.begin env (Bool.eq_false_iff.2 hno)
  | readPage batchSize =>
    rw [exec]
    split
    · next r hround =>
      split
      · split
        · exact h.noRound
        · exact h.readPage hround batchSize
      · exact h
    · exact h
  | releaseNext =>
    rw [exec]
    split
    · next r hround =>
      split
      · next id rest htodo => exact h.release hround htodo
      · exact h
    · exact h
  | stop => exact h.noRound

end CrynuxRelay
