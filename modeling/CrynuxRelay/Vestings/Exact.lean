import CrynuxRelay.Vestings.Rounds

/-!
# Every run releases exactly

* `exec_cases` -- a step releases nothing, or a part of one record that is active and not slashed;
* `Ahead`, `exec_visits` -- the round in progress comes to every active record;
* `run_releases_exact` -- the releases of every run, and when a round completes a record.
-/

namespace CrynuxRelay

open List Option Table VestingStep VestingRecord

variable {db' : Db} {s : VestingState} {v' : VestingRecord} {id n : Nat} {i : VestingStep}
  {env : Env}
  {db : Db} {v : VestingRecord} {e : RelayAccountEvent} {r : ReleaseRound}

/-! ## what a step does -/

structure NoRelease (db db' : Db) : Prop where
  kept : ∀ id v, db.vestingRecords.get id = some v →
    ∃ v', db'.vestingRecords.get id = some v' ∧ VestingKept v v'
  log : LogAlike db db'

lemma noRelease_of_alike (hrec : RecordsAlike db.vestingRecords db'.vestingRecords)
    (hlog : LogAlike db db') : NoRelease db db' := ⟨fun _ _ hget => hrec.forth hget, hlog⟩

lemma noRelease_of_eq (hrec : db'.vestingRecords = db.vestingRecords)
    (hlog : LogAlike db db') : NoRelease db db' :=
  noRelease_of_alike (by rw [hrec]; exact RecordsAlike.refl _) hlog

lemma NoRelease.refl (db : Db) : NoRelease db db := noRelease_of_eq rfl (logAlike_of_eq rfl)

/-- **a step** releases nothing, or a part of one record that is active and not slashed. -/
theorem exec_cases (h : VestingInv s) (i : VestingStep) : NoRelease s.world.db (i.exec s).world.db ∨
      ∃ v y e, v.status = .active ∧ v.slashed = false ∧
        Released s.world.db (i.exec s).world.db v.id v y e := by
  cases i with
  | create id input =>
    refine .inl ?_
    rcases createVestingRecord_cases id input s.world with hdb | ⟨⟨-, -, -, -, hfree⟩, hrec, hlog⟩
    · exact hdb.symm ▸ NoRelease.refl _
    · refine ⟨fun j v hget => ⟨v, ?_, VestingKept.refl v⟩, hlog⟩
      refine (congrArg (Table.get · j) hrec).trans ?_
      show (s.world.db.vestingRecords.insert (input.record id)).get j = some v
      rw [get_insert _ _ _ hfree, if_neg, hget]
      intro he
      rw [he] at hget
      exact absurd (hget.symm.trans hfree) (some_ne_none v)
  | post t x address amount =>
    rw [exec]
    split
    · exact .inl (NoRelease.refl _)
    · next ht =>
      obtain ⟨hlog, hrec⟩ := logAlike_post ht x address amount s.world
      exact .inl (noRelease_of_eq hrec hlog)
  | slash address | restore address =>
    refine .inl (noRelease_of_alike
      (recordsAlike_mapRows _ _ (fun v => by split <;> rfl) fun v => ?_) (logAlike_of_eq rfl))
    split
    · exact vestingKept_flag v _
    · exact VestingKept.refl v
  | project chain limit =>
    obtain ⟨f, hm, -⟩ := projectPending_marks chain limit s.world
    exact .inl (noRelease_of_eq hm.vestings (h.project chain limit).2)
  | beginRound env =>
    rw [exec]
    split
    · exact .inl (NoRelease.refl _)
    · split
      all_goals exact .inl (NoRelease.refl _)
  | readPage batchSize =>
    rw [exec]
    split
    · split
      · split
        all_goals exact .inl (NoRelease.refl _)
      · exact .inl (NoRelease.refl _)
    · exact .inl (NoRelease.refl _)
  | releaseNext =>
    rw [exec]
    split
    · next r hround =>
      split
      · next id rest htodo =>
        have hrec := (h.round r hround).records id (by rw [htodo]; exact mem_cons_self)
        obtain ⟨v, w', hget, heff, heq⟩ := h.release_cases (r := r) hrec rest
        have hid : v.id = id := key_of_get hget
        rw [heq]
        cases heff with
        | notDue _ hw => exact .inl (hw ▸ NoRelease.refl _)
        | nothing _ _ hw => exact .inl (hw ▸ NoRelease.refl _)
        | completed hall hw =>
          refine .inl ?_
          rw [hw]
          exact noRelease_of_alike (recordsAlike_completed (hid ▸ hget) hall) (logAlike_of_eq rfl)
        | released hactive hslashed e hrel => exact .inr ⟨v, _, e, hactive, hslashed, hrel⟩
      · exact .inl (NoRelease.refl _)
    · exact .inl (NoRelease.refl _)
  | stop => exact .inl (NoRelease.refl _)

def VestingRecord.plan (v : VestingRecord) : Text × Int × Time × Nat :=
  (v.address, v.totalAmount, v.startTime, v.durationDays)

structure RecordStep (s s' : VestingState) (id : Nat) (v v' : VestingRecord) : Prop where
  record : s'.world.db.vestingRecords.get id = some v'
  plan : v'.plan = v.plan
  le : v.releasedAmount ≤ v'.releasedAmount
  slashed : v.slashed = true → v'.releasedAmount = v.releasedAmount ∧
    releasesOf (logOf s'.world.db) id = releasesOf (logOf s.world.db) id
  completed : v.status = .completed → v'.status = .completed ∧ v'.releasedAmount = v.releasedAmount

lemma VestingKept.plan (h : VestingKept v v') : v'.plan = v.plan := by
  rw [VestingRecord.plan, h.address, h.totalAmount, h.startTime, h.durationDays]
  rfl

/-- **a record after a step**: it never goes back, and it stays as it is while it is slashed. -/
theorem exec_record (h : VestingInv s) (i : VestingStep)
    (hget : s.world.db.vestingRecords.get id = some v) : ∃ v', RecordStep s (i.exec s) id v v' := by
  rcases exec_cases h i with hno | ⟨u, y, e, hactive, hslashed, hrel⟩
  · obtain ⟨v', hget', hv⟩ := hno.kept id v hget
    refine ⟨v', hget', hv.plan, hv.releasedAmount.ge, fun _ => ⟨hv.releasedAmount, hno.log.log.1 id⟩,
      fun hst => ⟨?_, hv.releasedAmount⟩⟩
    rcases hv.status with hsame | ⟨hc, -⟩
    · exact hsame.trans hst
    · exact hc
  · by_cases hid : id = u.id
    · obtain rfl : u = v := some.inj (hrel.record.symm.trans (hid ▸ hget))
      refine ⟨_, (hrel.get id).trans (if_pos hid), rfl, hrel.more.le, fun hs => ?_, fun hst => ?_⟩
      · rw [hslashed] at hs
        cases hs
      · rw [hactive] at hst
        cases hst
    · refine ⟨v, ((hrel.get id).trans (if_neg hid)).trans hget, rfl, le_refl _,
        fun _ => ⟨rfl, ?_⟩, fun hst => ⟨hst, rfl⟩⟩
      rw [hrel.releasesOf h, if_neg (Ne.symm hid)]

/-! ## accepted releases -/

def acceptedRelease (n : Nat) (s : VestingState) : Bool :=
  s.world.db.relayAccountEvents.rows.any fun e =>
    e.id = n ∧ e.type = .vestingRelease ∧ e.status = .processed

def accepts (n : Nat) (s : VestingState) (i : VestingStep) : Bool :=
  !acceptedRelease n s && acceptedRelease n (i.exec s)

lemma acceptedRelease_iff : acceptedRelease n s = true ↔ ∃ e ∈ s.world.db.relayAccountEvents.rows,
      e.id = n ∧ e.type = .vestingRelease ∧ e.status = .processed := by
  rw [acceptedRelease, List.any_eq_true]
  simp only [decide_eq_true_eq]

lemma acceptedRelease_eq (he : e ∈ s.world.db.relayAccountEvents.rows)
    (hty : e.type = .vestingRelease) : acceptedRelease e.id s = decide (e.status = .processed) := by
  rw [Bool.eq_iff_iff, acceptedRelease_iff, decide_eq_true_eq]
  constructor
  · rintro ⟨e', he', hid, -, hst⟩
    rwa [← EventLog.eq_of_id _ he' he hid]
  · exact fun hst => ⟨e, he, rfl, hty, hst⟩

/-- **an accepted release stays accepted.** -/
theorem accepted_stays (h : VestingInv s) (i : VestingStep)
    (hacc : acceptedRelease n s = true) : acceptedRelease n (i.exec s) = true := by
  obtain ⟨e, he, hid, hty, hst⟩ := acceptedRelease_iff.1 hacc
  rcases exec_cases h i with hno | ⟨u, y, e', -, -, hrel⟩
  · obtain ⟨f, es, hrows, -, hf⟩ := hno.log.rows
    refine acceptedRelease_iff.2 ⟨{ e with status := f e }, ?_, hid, hty, ?_⟩
    · rw [hrows]
      exact mem_append_left _ (mem_map_of_mem he)
    · rcases hf e he hty with hsame | ⟨hp, -⟩
      · exact hsame.trans hst
      · rw [hst] at hp
        cases hp
  · refine acceptedRelease_iff.2 ⟨e, ?_, hid, hty, hst⟩
    rw [hrel.rows]
    exact mem_append_left _ he

/-! ## a round comes to every record -/

def VestingRecord.Complete (v : VestingRecord) : Prop :=
  v.releasedAmount = v.totalAmount ∧ v.status = .completed

/-- the round has still to visit the record: it is on the page, or behind it. -/
def Ahead (r : ReleaseRound) (id : Nat) : Prop := id ∈ r.todo ∨ ∀ k ∈ r.startID :: r.todo, k < id

lemma Ahead.next {k : Nat} {rest : List Nat} (h : Ahead r id) (htodo : r.todo = k :: rest)
    (hne : k ≠ id) : Ahead (r.next k rest) id := by
  rw [Ahead, htodo] at h
  rcases h with h | h
  · exact .inl ((mem_cons.1 h).resolve_left (Ne.symm hne))
  · exact .inr fun j hj => h j (mem_cons_of_mem _ hj)

lemma ahead_page (batchSize : Nat) (hget : db.vestingRecords.get id = some v)
    (hactive : v.status = .active) (hslashed : v.slashed = false) (hlt : r.startID < id) :
    releasePage db r.startID batchSize ≠ [] ∧
      Ahead { r with todo := (releasePage db r.startID batchSize).map (·.id) } id := by
  have hid : v.id = id := key_of_get hget
  have hrow : v ∈ db.vestingRecords.rows := mem_rows.2 (hid ▸ hget)
  have habove : v ∈ Keyset.above VestingRecord.id (some r.startID)
      (db.vestingRecords.rows.filter fun v => decide (v.status = .active ∧ v.slashed = false)) := by
    refine Keyset.mem_above.2 ⟨mem_filter.2 ⟨hrow, decide_eq_true ⟨hactive, hslashed⟩⟩, ?_⟩
    intro k hk
    cases hk
    exact hid ▸ hlt
  have hinj : ∀ a ∈ db.vestingRecords.rows.filter fun v =>
      decide (v.status = .active ∧ v.slashed = false), ∀ b ∈ db.vestingRecords.rows.filter fun v =>
      decide (v.status = .active ∧ v.slashed = false), a.id = b.id → a = b := fun a ha b hb hab =>
    inj_on_of_nodup_map (nodup_map_key_rows db.vestingRecords) (mem_filter.1 ha).1
      (mem_filter.1 hb).1 hab
  have hlimit : 1 ≤ if batchSize = 0 then 100 else batchSize := by split <;> omega
  refine ⟨Keyset.page_ne_nil hlimit habove, ?_⟩
  by_cases hmem : v ∈ releasePage db r.startID batchSize
  · exact .inl (mem_map.2 ⟨v, hmem, hid⟩)
  · refine .inr fun k hk => ?_
    rcases mem_cons.1 hk with rfl | hk
    · exact hlt
    · -- a record of the page at or above `v` would bring `v` onto the page
      obtain ⟨u, hu, rfl⟩ := mem_map.1 hk
      by_contra hge
      exact hmem (Keyset.mem_page_of_le hinj habove hu (hid ▸ not_lt.1 hge))

/-- the record is complete, or the round with this time has still to visit it. -/
def Underway (env : Env) (id : Nat) (plan : Text × Int × Time × Nat) (s : VestingState) : Prop :=
  ∃ v, s.world.db.vestingRecords.get id = some v ∧ v.plan = plan ∧
    (v.Complete ∨ ∃ r, s.round = some r ∧ r.env = env ∧ Ahead r id)

def Unslashed (id : Nat) (s : VestingState) : Prop :=
  ∀ v, s.world.db.vestingRecords.get id = some v → v.slashed = false

lemma RecordStep.complete {s' : VestingState}
    (h : RecordStep s s' id v v') (hc : v.Complete) : v'.Complete := by
  have htotal : v'.totalAmount = v.totalAmount := congrArg (fun p => p.2.1) h.plan
  obtain ⟨hst, hrel⟩ := h.completed hc.2
  exact ⟨by rw [hrel, htotal]; exact hc.1, hst⟩

lemma underway_sameRound (h : VestingInv s)
    {plan : Text × Int × Time × Nat} (hu : Underway env id plan s)
    (hround : ∀ r, s.round = some r → (i.exec s).round = some r) : Underway env id plan (i.exec s) := by
  obtain ⟨v, hget, hplan, hcase⟩ := hu
  obtain ⟨v', hstep⟩ := exec_record h i hget
  refine ⟨v', hstep.record, hstep.plan.trans hplan, ?_⟩
  rcases hcase with hc | ⟨r, hr, henv, hahead⟩
  · exact .inl (hstep.complete hc)
  · exact .inr ⟨r, hround r hr, henv, hahead⟩

/-- **the visit of a record on or after its last day completes it.** -/
theorem release_completes (h : VestingInv s) (hget : s.world.db.vestingRecords.get id = some v)
    (rest : List Nat) (hactive : v.status = .active) (hslashed : v.slashed = false)
    (hlast : v.scheduled r.env.now = v.totalAmount) :
    ∃ v', (s.release r id rest).world.db.vestingRecords.get id = some v' ∧ v'.plan = v.plan ∧
      v'.Complete := by
  obtain ⟨u, w', hget', heff, heq⟩ := h.release_cases (r := r) ⟨v, hget⟩ rest
  obtain rfl : u = v := some.inj (hget'.symm.trans hget)
  have hid : u.id = id := key_of_get hget
  rw [heq]
  cases heff with
  | notDue hdue _ => exact absurd ⟨hactive, hslashed⟩ hdue
  | nothing hle hmore _ =>
    rw [hlast] at hle
    exact absurd hmore (not_lt.2 hle)
  | completed hall hw =>
    refine ⟨u.completed, ?_, rfl, le_antisymm (h.records id u hget).le_total hall, rfl⟩
    rw [hw]
    show (modifyVesting _ _ _ _).db.vestingRecords.get id = _
    rw [modifyVesting, get_modify, if_pos hid.symm, hid, hget]
    rfl
  | released _ _ e hrel =>
    exact ⟨_, (hrel.get id).trans (if_pos hid.symm), rfl, hlast, if_pos hlast⟩

section visits
variable {plan : Text × Int × Time × Nat}

lemma readPage_visits (h : VestingInv s) (hu : Underway env id plan s) (hs : Unslashed id s)
    (batchSize : Nat) : Underway env id plan ((readPage batchSize).exec s) := by
  obtain ⟨v, hget, hplan, hcase⟩ := hu
  have hsame : ((readPage batchSize).exec s).world = s.world := by
    rw [exec]
    split
    · split
      · split <;> rfl
      · rfl
    · rfl
  refine ⟨v, by rw [hsame]; exact hget, hplan, ?_⟩
  rcases (h.records id v hget).status with hactive | ⟨hst, hall⟩
  · refine hcase.imp_right ?_
    rintro ⟨r, hr, henv, hahead⟩
    by_cases htodo : r.todo = []
    · have hlt : r.startID < id := by
        rw [Ahead, htodo] at hahead
        exact hahead.resolve_left not_mem_nil _ mem_cons_self
      obtain ⟨hpage, hnext⟩ := ahead_page batchSize hget hactive (hs v hget) hlt
      refine ⟨{ r with todo := (releasePage s.world.db r.startID batchSize).map (·.id) }, ?_, henv,
        hnext⟩
      simp only [exec, hr, htodo, if_true]
    · refine ⟨r, ?_, henv, hahead⟩
      simp only [exec, hr, htodo, if_false]
  · exact .inl ⟨hall, hst⟩

section
variable (h : VestingInv s) (hu : Underway env id plan s) (hs : Unslashed id s)
  (hlast : ∀ v : VestingRecord, v.plan = plan → v.scheduled env.now = v.totalAmount)
include h hu hs hlast

lemma releaseNext_visits : Underway env id plan (releaseNext.exec s) := by
  obtain ⟨v, hget, hplan, hcase⟩ := hu
  obtain ⟨v', hstep⟩ := exec_record h .releaseNext hget
  rcases (h.records id v hget).status with hactive | ⟨hst, hall⟩
  · rcases hcase with hc | ⟨r, hr, henv, hahead⟩
    · exact ⟨v', hstep.record, hstep.plan.trans hplan, .inl (hstep.complete hc)⟩
    · cases htodo : r.todo with
      | nil =>
        refine ⟨v', hstep.record, hstep.plan.trans hplan, .inr ⟨r, ?_, henv, hahead⟩⟩
        simp only [exec, hr, htodo]
      | cons k rest =>
        have hexec : releaseNext.exec s = s.release r k rest := by
          simp only [exec, hr, htodo]
        rw [hexec] at hstep ⊢
        by_cases hk : k = id
        · subst hk
          obtain ⟨u, hu, huplan, hc⟩ := release_completes h hget rest hactive (hs v hget)
            (henv ▸ hlast v hplan)
          exact ⟨u, hu, huplan.trans hplan, .inl hc⟩
        · have hrec := (h.round r hr).records k (by rw [htodo]; exact mem_cons_self)
          obtain ⟨-, w', -, -, heq⟩ := h.release_cases (r := r) hrec rest
          exact ⟨v', hstep.record, hstep.plan.trans hplan,
            .inr ⟨r.next k rest, by rw [heq], henv, hahead.next htodo hk⟩⟩
  · exact ⟨v', hstep.record, hstep.plan.trans hplan, .inl (hstep.complete ⟨hall, hst⟩)⟩

/-- **a round on or after the last day of a record goes on to its visit**, while the record is not
slashed and the round is not cut short. -/
theorem exec_visits (hi : i ≠ .stop) : Underway env id plan (i.exec s) := by
  cases i with
  | post t x address amount =>
    refine underway_sameRound h hu fun r hr => ?_
    rw [exec]
    split
    · exact hr
    · exact hr
  | beginRound env' =>
    refine underway_sameRound h hu fun r hr => ?_
    simp only [exec, hr]
  | readPage batchSize => exact readPage_visits h hu hs batchSize
  | releaseNext => exact releaseNext_visits h hu hs hlast
  | stop => exact absurd rfl hi
  | _ => exact underway_sameRound h hu fun r hr => hr

end

end visits

/-! ## a round comes to its end -/

/-- what is left of a round: the ids that it may still visit, and the page that it may have to read. -/
def roundRest : Option ReleaseRound → Nat
  | none => 0
  | some r => 2 * (2 ^ 64 - r.startID) + if r.todo = [] then 1 else 0

def ownStep (batchSize : Nat) : Option ReleaseRound → VestingStep
  | some ⟨_, _, _ :: _⟩ => .releaseNext
  | _ => .readPage batchSize

lemma ownStep_rest (h : VestingInv s) (batchSize : Nat) (hr : s.round = some r) :
    roundRest ((ownStep batchSize s.round).exec s).round < roundRest s.round := by
  have hri := h.round r hr
  cases htodo : r.todo with
  | nil =>
    have hstep : ownStep batchSize s.round = .readPage batchSize := by
      rw [hr]
      obtain ⟨env, startID, todo⟩ := r
      cases htodo
      rfl
    rw [hstep]
    simp only [exec, hr, htodo, if_true]
    split
    · simp [roundRest, htodo]
    · next hne =>
      have hpage : (releasePage s.world.db r.startID batchSize).map (·.id) ≠ [] := fun hc =>
        hne (map_eq_nil_iff.1 hc)
      simp only [roundRest, htodo, if_true, if_neg hpage]
      omega
  | cons id rest =>
    have hstep : ownStep batchSize s.round = .releaseNext := by
      rw [hr]
      obtain ⟨env, startID, todo⟩ := r
      cases htodo
      rfl
    have hrec := hri.records id (by rw [htodo]; exact mem_cons_self)
    obtain ⟨v, w', hget, -, heq⟩ := h.release_cases (r := r) hrec rest
    have hsorted := hri.sorted
    rw [htodo] at hsorted
    have hlt : r.startID < id := (pairwise_cons.1 hsorted).1 id mem_cons_self
    have hid := (h.records id v hget).id_lt
    rw [hstep]
    simp only [exec, hr, htodo, heq, roundRest, ReleaseRound.next]
    split <;> simp <;> omega

/-- **a round that is left alone comes to its end.** -/
theorem round_ends (h : VestingInv s) (batchSize : Nat) :
    ∃ own : List VestingStep, (∀ i ∈ own, i = .readPage batchSize ∨ i = .releaseNext) ∧
      (run exec own s).round = none := by
  induction hn : roundRest s.round using Nat.strong_induction_on generalizing s with
  | _ n ih =>
    cases hr : s.round with
    | none => exact ⟨[], fun i hi => absurd hi not_mem_nil, hr⟩
    | some r =>
      have hlt := ownStep_rest h batchSize hr
      rw [hn] at hlt
      obtain ⟨own, hown, hend⟩ := ih _ hlt (exec_inv h (ownStep batchSize s.round)) rfl
      refine ⟨ownStep batchSize s.round :: own, fun i hi => ?_, hend⟩
      rcases mem_cons.1 hi with rfl | hi
      · unfold ownStep
        split
        · exact .inr rfl
        · exact .inl rfl
      · exact hown i hi

/-! ## every run -/

structure NoVestings (s : VestingState) : Prop where
  records : ∀ id, s.world.db.vestingRecords.get id = none
  events : s.world.db.relayAccountEvents.rows = []
  round : s.round = none
  latest : s.latest = none

lemma NoVestings.inv (h : NoVestings s) : VestingInv s where
  records := fun id v hget => absurd ((h.records id).symm.trans hget) (some_ne_none v).symm
  named := fun d hd => by
    rw [logOf, h.events] at hd
    exact absurd hd not_mem_nil
  events := fun e he _ => by
    rw [h.events] at he
    exact absurd he not_mem_nil
  round := fun r hr => absurd (h.round.symm.trans hr) (some_ne_none r).symm

lemma run_inv (h : VestingInv s) (steps : List VestingStep) : VestingInv (run exec steps s) := by
  have hstep : ∀ s i, VestingInv s → True → VestingInv (exec i s) :=
    fun _ i hs _ => exec_inv hs i
  exact run_invariant hstep steps s (Along.of_forall (fun _ _ => trivial) steps s) h

/-- **a round that begins on or after the last day of a record completes it**, unless the record is
slashed before its visit or the round is cut short. -/
theorem round_completes (h : VestingInv s)
    (hround : s.round = none) (hno : hasPendingVestingReleaseEvent s.world.db = false)
    (hget : s.world.db.vestingRecords.get id = some v)
    (hday : OnOrAfterDay v.startTime v.durationDays env.now)
    (hmax : v.durationDays ≤ maxElapsedDays) {rest : List VestingStep}
    (hrest : Along exec (fun s i => i ≠ .stop ∧ Unslashed id s) rest
      ((beginRound env).exec s))
    (hend : (run exec rest ((beginRound env).exec s)).round = none) :
    ∃ v', (run exec rest
        ((beginRound env).exec s)).world.db.vestingRecords.get id = some v' ∧
      v'.plan = v.plan ∧ v'.Complete := by
  have hexact := h.records id v hget
  have hlast : ∀ u : VestingRecord, u.plan = v.plan → u.scheduled env.now = u.totalAmount := by
    intro u hu
    simp only [plan, Prod.mk.injEq] at hu
    obtain ⟨-, hT, hstart, hD⟩ := hu
    rw [scheduled, hT, hstart, hD]
    exact scheduled_eq_total hexact.total_pos hexact.duration_pos hday hmax
  have hbegin : (beginRound env).exec s = { s with
        round := some { env := env }
        latest := some (max env.now (s.latest.getD env.now)) } := by
    simp only [exec, hround, hno, Bool.false_eq_true, if_false]
  have hu : Underway env id v.plan ((beginRound env).exec s) := by
    rw [hbegin]
    refine ⟨v, hget, rfl, .inr ⟨{ env := env }, rfl, rfl, .inr fun k hk => ?_⟩⟩
    rw [mem_singleton.1 hk]
    exact hexact.id_pos
  have hstep : ∀ s i, VestingInv s ∧ Underway env id v.plan s → i ≠ .stop ∧ Unslashed id s →
      VestingInv (exec i s) ∧ Underway env id v.plan (exec i s) :=
    fun s i hs hi => ⟨exec_inv hs.1 i, exec_visits hs.1 hs.2 hi.2 hlast hi.1⟩
  obtain ⟨-, v', hget', hplan, hcase⟩ := run_invariant hstep rest _ hrest ⟨exec_inv h _, hu⟩
  refine ⟨v', hget', hplan, hcase.resolve_right ?_⟩
  rintro ⟨r, hr, -, -⟩
  rw [hend] at hr
  cases hr

lemma run_plan (h : VestingInv s) (rest : List VestingStep)
    (hget : s.world.db.vestingRecords.get id = some v) :
    ∃ v', (run exec rest s).world.db.vestingRecords.get id = some v' ∧ v'.plan = v.plan := by
  induction rest generalizing s v with
  | nil => exact ⟨v, hget, rfl⟩
  | cons i rest ih =>
    obtain ⟨u, hstep⟩ := exec_record h i hget
    obtain ⟨v', hget', hplan⟩ := ih (exec_inv h i) hstep.record
    exact ⟨v', hget', hplan.trans hstep.plan⟩

lemma beginRound_world (s : VestingState) (env : Env) :
    ((beginRound env).exec s).world = s.world := by
  rw [exec]
  split
  · rfl
  · split <;> rfl

/-- a record with more days than a `Duration` holds is never complete. -/
lemma VestingInv.not_complete (h : VestingInv s) (hget : s.world.db.vestingRecords.get id = some v)
    (hmax : maxElapsedDays < v.durationDays) : ¬ v.Complete := by
  intro hc
  have hexact := h.records id v hget
  have hlt : scheduledAt v s.latest < v.totalAmount := by
    cases s.latest with
    | none => exact hexact.total_pos
    | some t => exact scheduled_lt_of_long hexact.total_pos hmax
  have hle := hexact.schedule
  rw [hc.1] at hle
  exact absurd hlt (not_lt.2 hle)

/-- **the releases of a run**: `s` is the state after `steps`, from `s₀` on. -/
structure ReleasesExact (s₀ : VestingState) (steps : List VestingStep) (s : VestingState) : Prop where
  /-- the ranges of a record lead from zero to what is released of it, within its schedule. -/
  chain : ∀ id v, s.world.db.vestingRecords.get id = some v →
    Contiguous 0 (releasesOf (logOf s.world.db) id) v.releasedAmount ∧
      v.releasedAmount ≤ v.totalAmount ∧ v.releasedAmount ≤ scheduledAt v s.latest
  /-- every release is one of these ranges; none is rejected, and none is accepted twice. -/
  accepted : ∀ e ∈ s.world.db.relayAccountEvents.rows, e.type = .vestingRelease →
    (∃ id x y v, s.world.db.vestingRecords.get id = some v ∧ e.draft = releaseDraft id v.address x y ∧
      (x, y) ∈ releasesOf (logOf s.world.db) id) ∧
    e.status ≠ .invalid ∧
    countAlong VestingStep.exec (accepts e.id) steps s₀ = if e.status = .processed then 1 else 0
  /-- a batch of the projector that goes through accepts every release in it. -/
  projected : ∀ chain limit, (projectPending chain limit s.world).1.isOk = true →
    ∀ e ∈ projectorBatch s.world.db limit, e.type = .vestingRelease →
      { e with status := .processed } ∈
        (Tx.after (projectPending chain limit) s.world).db.relayAccountEvents.rows
  /-- a record never goes back, and nothing of it is released while it is slashed. -/
  step : ∀ i id v, s.world.db.vestingRecords.get id = some v →
    ∃ v', (VestingStep.exec i s).world.db.vestingRecords.get id = some v' ∧
      v.releasedAmount ≤ v'.releasedAmount ∧
      (v.slashed = true → v'.releasedAmount = v.releasedAmount ∧
        releasesOf (logOf (VestingStep.exec i s).world.db) id = releasesOf (logOf s.world.db) id)
  /-- a round that is left alone comes to its end. -/
  ends : ∀ batchSize, ∃ own : List VestingStep,
    (∀ i ∈ own, i = .readPage batchSize ∨ i = .releaseNext) ∧ (run VestingStep.exec own s).round = none
  /-- a round on or after the last day leaves the record complete, just when a `Duration` holds its
  days. -/
  completes : ∀ env id v rest, s.round = none → hasPendingVestingReleaseEvent s.world.db = false →
    s.world.db.vestingRecords.get id = some v →
    OnOrAfterDay v.startTime v.durationDays env.now →
    Along VestingStep.exec (fun s i => i ≠ .stop ∧ Unslashed id s) rest
      ((VestingStep.beginRound env).exec s) →
    (run VestingStep.exec rest ((VestingStep.beginRound env).exec s)).round = none →
    ∃ v', (run VestingStep.exec rest
        ((VestingStep.beginRound env).exec s)).world.db.vestingRecords.get id = some v' ∧
      v'.plan = v.plan ∧ (v'.Complete ↔ v.durationDays ≤ maxElapsedDays)

lemma accepts_once {s0 : VestingState} (h : NoVestings s0) (steps : List VestingStep)
    (he : e ∈ (run exec steps s0).world.db.relayAccountEvents.rows) (hty : e.type = .vestingRelease) :
    countAlong exec (accepts e.id) steps s0 = if e.status = .processed then 1 else 0 := by
  have hstep : ∀ s i, VestingInv s → True → VestingInv (exec i s) :=
    fun _ i hs _ => exec_inv hs i
  have hkeep : ∀ s i, VestingInv s → True → acceptedRelease e.id s = true →
      acceptedRelease e.id (exec i s) = true := fun _ i hs _ hacc => accepted_stays hs i hacc
  have hturns := countAlong_turns hstep hkeep steps s0
    (Along.of_forall (fun _ _ => trivial) steps s0) h.inv
  have hstart : acceptedRelease e.id s0 = false := by
    rw [acceptedRelease, h.events]
    rfl
  rw [hstart, acceptedRelease_eq he hty, Bool.toNat_false, Nat.zero_add] at hturns
  refine hturns.trans ?_
  split
  · next hst => rw [decide_eq_true hst]; rfl
  · next hst => rw [decide_eq_false hst]; rfl

/-- **the releases of every run are exact and without a gap**, and a round on or after the last day of
a record completes it just when its days fit in a `Duration`. -/
theorem run_releases_exact (s₀ : VestingState) (h₀ : NoVestings s₀) (steps : List VestingStep) :
    ReleasesExact s₀ steps (run VestingStep.exec steps s₀) := by
  have h := run_inv h₀.inv steps
  refine ⟨fun id v hget => ?_, fun e he hty => ?_, fun chain limit hok e he hty => ?_,
    fun i id v hget => ?_, round_ends h, ?_⟩
  · have hexact := h.records id v hget
    exact ⟨hexact.chain, hexact.le_total, hexact.schedule⟩
  · obtain ⟨id, x, y, v, hev⟩ := h.events e he hty
    refine ⟨⟨id, x, y, v, hev.record, hev.draft, ?_⟩, hev.kept, accepts_once h₀ steps he hty⟩
    refine mem_filterMap.2 ⟨e.draft, mem_map_of_mem he, ?_⟩
    rw [hev.draft, releaseOf_releaseDraft _ _ (h.records id v hev.record).id_lt hev.nonneg]
    exact if_pos rfl
  · obtain ⟨f, hm, hdone⟩ := projectPending_marks chain limit (run VestingStep.exec steps s₀).world
    obtain ⟨hrow, hp⟩ := mem_projectorBatch he
    have hdebit : e.type.isDebit = false := by rw [hty]; rfl
    have hf : f e = .processed :=
      (hm.accepted e he hdebit (h.eventRule chain hrow hty hp)).resolve_left (hdone hok e he)
    rw [hm.rows, ← hf]
    exact mem_map_of_mem hrow
  · obtain ⟨v', hstep⟩ := exec_record h i hget
    exact ⟨v', hstep.record, hstep.le, hstep.slashed⟩
  · intro env id v rest hround hno hget hday hrest hend
    rcases Nat.lt_or_ge maxElapsedDays v.durationDays with hlong | hmax
    · -- a record of so many days is complete in no state, whatever round has visited it
      rw [← beginRound_world _ env] at hget
      obtain ⟨v', hget', hplan⟩ := run_plan (exec_inv h (.beginRound env)) rest hget
      have hD : v'.durationDays = v.durationDays := congrArg (fun p => p.2.2.2) hplan
      refine ⟨v', hget', hplan, iff_of_false ?_ (Nat.not_le.2 hlong)⟩
      exact (run_inv (exec_inv h _) rest).not_complete hget' (hD ▸ hlong)
    · obtain ⟨v', hget', hplan, hc⟩ := round_completes h hround hno hget hday hmax hrest hend
      exact ⟨v', hget', hplan, iff_of_true hc hmax⟩

def emptyVestings : VestingState := { world := ⟨{}, {}⟩ }

lemma noVestings_empty : NoVestings emptyVestings := ⟨fun _ => rfl, rfl, rfl, rfl⟩

/-- a vesting over two days: a round on each day, the projector after each, and a slash that is taken
back. -/
def twoDays : List VestingStep :=
  [.create 1 ⟨"0xa".toList, 100, 0, 2⟩, .beginRound { now := nanosPerDay }, .readPage 100, .releaseNext,
    .readPage 100, .project silentChain 10, .slash "0xa".toList, .restore "0xa".toList,
    .beginRound { now := 2 * nanosPerDay }, .readPage 100, .releaseNext, .readPage 100]

theorem run_releases_exact_at_twoDays :
    ReleasesExact emptyVestings twoDays (run VestingStep.exec twoDays emptyVestings) ∧
      releasesOf (logOf (run VestingStep.exec twoDays emptyVestings).world.db) 1 = [(0, 50), (50, 100)] :=
  ⟨run_releases_exact emptyVestings noVestings_empty twoDays, by decide +kernel⟩

/-- a round on the last day of a record of 106752 days leaves a part of it, and the record active: the
days since the start are more than a `Duration` holds. -/
theorem long_vesting_incomplete :
    let s := run VestingStep.exec [.create 1 ⟨"0xa".toList, 106752, 0, 106752⟩] emptyVestings
    let now := 106752 * nanosPerDay
    let s' := run VestingStep.exec [.readPage 100, .releaseNext, .readPage 100]
      ((VestingStep.beginRound { now := now }).exec s)
    OnOrAfterDay 0 106752 now ∧ s'.round = none ∧ s'.world.db.vestingRecords.get 1 =
        some ⟨1, "0xa".toList, 106752, 106751, 0, 106752, .active, false⟩ := by
  refine ⟨?_, ?_, ?_⟩
  · show dayStart 0 + (106752 : Nat) * nanosPerDay ≤ dayStart _
    decide +kernel
  · decide +kernel
  · decide +kernel

end CrynuxRelay
