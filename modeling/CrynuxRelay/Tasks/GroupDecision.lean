import CrynuxRelay.Tasks.GroupFailure

/-!
# What a group validation decides

* `InferenceTask.settledAs` -- the copy of a member after its transition, which is its row;
* `validated_rows` -- a successful validation: the rows that it leaves, with the decision on the members in
  the order of their speed;
* `groupWriteBack`, `writeBack_identity_iff` -- the copies that the caller gets back.
-/

namespace CrynuxRelay

open List Option Table Tx

/-! ## sorted members -/

section
variable {α : Type} {lt : α → α → Bool}

variable (htrans : ∀ a b c, lt a b = true → lt b c = true → lt a c = true)
include htrans

lemma pairwise_insertBy {a : α} {l : List α} (hl : l.Pairwise fun x y => lt x y = true)
    (htotal : ∀ b ∈ l, lt a b = true ∨ lt b a = true) :
    (insertBy lt a l).Pairwise fun x y => lt x y = true := by
  induction l with
  | nil => exact pairwise_singleton _ _
  | cons b l ih =>
    obtain ⟨hb, hl⟩ := pairwise_cons.1 hl
    rw [insertBy]
    split
    · next hab =>
      refine pairwise_cons.2 ⟨fun x hx => ?_, pairwise_cons.2 ⟨hb, hl⟩⟩
      rcases mem_cons.1 hx with rfl | hx
      · exact hab
      · exact htrans _ _ _ hab (hb x hx)
    · next hab =>
      have hba := (htotal b mem_cons_self).resolve_left hab
      refine pairwise_cons.2 ⟨fun x hx => ?_, ih hl fun c hc => htotal c (mem_cons_of_mem b hc)⟩
      rcases mem_cons.1 ((insertBy_perm lt a l).mem_iff.1 hx) with rfl | hx
      · exact hba
      · exact hb x hx

lemma pairwise_sortBy {l : List α} (hnd : l.Nodup) (htotal : ∀ a ∈ l, ∀ b ∈ l, a ≠ b → lt a b = true ∨
    lt b a = true) : (sortBy lt l).Pairwise fun x y => lt x y = true := by
  induction l with
  | nil => exact List.Pairwise.nil
  | cons a l ih =>
    obtain ⟨ha, hnd⟩ := nodup_cons.1 hnd
    refine pairwise_insertBy htrans (ih hnd fun x hx y hy =>
      htotal x (mem_cons_of_mem a hx) y (mem_cons_of_mem a hy)) fun b hb => ?_
    have hb := (sortBy_perm lt l).mem_iff.1 hb
    refine htotal a mem_cons_self b (mem_cons_of_mem a hb) ?_
    rintro rfl
    exact ha hb

end

lemma fasterThan_iff {t1 t2 : InferenceTask} : fasterThan t1 t2 = true ↔
    @LT.lt Int _ t1.executionTime t2.executionTime ∨
      @Eq Int t1.executionTime t2.executionTime ∧ t1.id < t2.id := by
  unfold fasterThan
  split
  · next h => simp [h]
  · next h => simp [h]

section
variable {db : Db} {tasks refreshed : List InferenceTask}

def settledRows (db : Db) (tasks : List InferenceTask) : List InferenceTask :=
  sortBy fasterThan (lockedRows db tasks)

lemma mem_settledRows {r : InferenceTask} :
    r ∈ settledRows db tasks ↔ r ∈ lockedRows db tasks := (sortBy_perm _ _).mem_iff

lemma pairwise_settledRows (hids : UniqueIds db) (hperm : refreshed.Perm (lockedRows db tasks)) :
    (sortBy fasterThan refreshed).Pairwise fun x y => fasterThan x y = true := by
  refine pairwise_sortBy (fun _ _ _ h h' => by rw [fasterThan_iff] at h h' ⊢; omega)
    (hperm.nodup_iff.2 (nodup_lockedRows db tasks).of_map) fun a ha b hb hne => ?_
  have ha := (mem_lockedRows.1 (hperm.mem_iff.1 ha)).1
  have hb := (mem_lockedRows.1 (hperm.mem_iff.1 hb)).1
  have hid : a.id ≠ b.id := by
    intro e
    have hc := hids _ _ _ _ ha hb e
    rw [hc, hb] at ha
    exact hne (some.inj ha).symm
  rw [fasterThan_iff, fasterThan_iff]
  omega

lemma sorted_refreshed (hids : UniqueIds db) (hperm : refreshed.Perm (lockedRows db tasks)) :
    sortBy fasterThan refreshed = settledRows db tasks := by
  have hp : (sortBy fasterThan refreshed).Perm (settledRows db tasks) :=
    (sortBy_perm _ _).trans (hperm.trans (sortBy_perm _ _).symm)
  refine hp.eq_of_pairwise (fun a b _ _ hab hba => ?_) (pairwise_settledRows hids hperm)
    (pairwise_settledRows hids (List.Perm.refl _))
  rw [fasterThan_iff] at hab hba
  omega

end

/-! ## what the decision reads -/

section
variable {taskID : Text}

lemma compareTaskScore_congr {t1 m1 t2 m2 : InferenceTask} (h1 : SameMember taskID t1 m1)
    (h2 : SameMember taskID t2 m2) (threshold : Nat) :
    compareTaskScore m1 m2 threshold = compareTaskScore t1 t2 threshold := by
  rw [h1, h2]
  rfl

lemma groupNextStatus_congr {l l' : List InferenceTask} (h : List.Forall₂ (SameMember taskID) l l')
    (threshold : Nat) : groupNextStatus threshold l' = groupNextStatus threshold l := by
  have hex : List.Forall₂ (SameMember taskID) (executedMembers l) (executedMembers l') := by
    induction h with
    | nil => exact .nil
    | @cons t t' l l' ht _ ih =>
      have hst : t'.status = t.status := by rw [ht]
      rw [executedMembers, executedMembers, filter_cons, filter_cons, hst]
      split
      · exact .cons ht ih
      · exact ih
  unfold executedMembers at hex
  unfold groupNextStatus
  generalize (l.filter fun t => t.status ≠ .endAborted) = x at hex
  generalize (l'.filter fun t => t.status ≠ .endAborted) = y at hex
  have hrow : ∀ {t m : InferenceTask}, SameMember taskID t m →
      m.status = t.status ∧ m.taskIDCommitment = t.taskIDCommitment := by
    intro t m hm
    rw [hm]
    exact ⟨rfl, rfl⟩
  rcases hex with _ | ⟨h0, _ | ⟨h1, _ | ⟨h2, _ | ⟨-, -⟩⟩⟩⟩
  · rfl
  · rfl
  · simp only [compareTaskScore_congr h0 h1, hrow h0, hrow h1]
  · simp only [compareTaskScore_congr h0 h1, compareTaskScore_congr h0 h2,
      compareTaskScore_congr h1 h2, hrow h0, hrow h1, hrow h2]
  · rfl

end

/-! ## the rows after a validation -/

/-- the copy of a member after its transition, with the columns that the transition writes. -/
def InferenceTask.settledAs (env : Env) (st : TaskStatus) (finished : Nat) (m : InferenceTask) :
    InferenceTask :=
  match st with
  | .endInvalidated => m.invalidatedAs m.taskID env.now
  | .groupValidated => { m with
      status := .groupValidated
      validatedTime := some env.now
      deadlineAt := (getTaskDeadline env (m.atTransition .groupValidated env.now)).map Prod.fst }
  | .endGroupRefund => m.groupRefunded m.taskID m.qosScore env.now
  | _ =>
    if m.status ≠ .endAborted then { m with
      status := .endAborted
      abortReason := if finished < 2 then .groupTimeout else .incorrectResult
      validatedTime := some env.now
      deadlineAt := none }
    else m

def TaskStatus.decided : TaskStatus → TaskStatus
  | .endInvalidated => .endInvalidated
  | .groupValidated => .groupValidated
  | .endGroupRefund => .endGroupRefund
  | _ => .endAborted

lemma settledAs_status (env : Env) (st : TaskStatus) (finished : Nat) (m : InferenceTask) :
    (m.settledAs env st finished).status = st.decided := by
  unfold InferenceTask.settledAs
  split
  · rfl
  · rfl
  · rfl
  · next h1 h2 h3 =>
    have hst : st.decided = .endAborted := by
      cases st with
      | endInvalidated => exact absurd rfl h1
      | groupValidated => exact absurd rfl h2
      | endGroupRefund => exact absurd rfl h3
      | _ => rfl
    rw [hst]
    split
    · rfl
    · next h => exact not_not.1 h

section
variable {env : Env} {next : Text → TaskStatus} {evidence : List (Text × Bool)} {finished : Nat}
  {m : InferenceTask} {l tasks refreshed : List InferenceTask} {taskID vrfProof publicKey : Text}
  {w w' : World} {u : Unit} {db : Db}

/-- **the row of a member** is its copy. -/
theorem applyGroupStatus_row (hm : Member w.db m)
    (hok : Ok (applyGroupStatus env next evidence finished m) w u w') :
    w'.db.tasks.get m.taskIDCommitment =
      some (m.settledAs env (next m.taskIDCommitment) finished) := by
  obtain ⟨row, hrow, e⟩ := hm
  have hmoves : ∀ {f : InferenceTask → InferenceTask} {ds : List EventDraft},
      Moves m.taskIDCommitment f ds w w' → w'.db.tasks.get m.taskIDCommitment = some (f row) :=
    fun hm => hm.row hrow
  unfold applyGroupStatus at hok
  generalize next m.taskIDCommitment = st at hok ⊢
  split at hok
  · obtain ⟨complete, -, hok⟩ := ok_orFail_bind.1 hok
    rw [hmoves (setTaskStatusEndInvalidated_ok hok).2.2.1, e]
    rfl
  · obtain ⟨-, -, deadline, hd, hm⟩ := setTaskStatusGroupValidated_ok hok
    rw [hmoves hm]
    show _ = some { m with status := _, validatedTime := _, deadlineAt := _ }
    rw [hd, e]
    rfl
  · rw [hmoves (setTaskStatusEndGroupRefund_ok hok).2.2.1, e]
    rfl
  · next h1 h2 h3 =>
    unfold InferenceTask.settledAs
    split
    · exact absurd rfl h1
    · exact absurd rfl h2
    · exact absurd rfl h3
    split at hok
    · next hab =>
      rcases setTaskStatusEndAborted_ok hok with ⟨h, -⟩ | ⟨-, -, ds, -, hm, -⟩
      · exact absurd h hab
      · rw [hmoves hm, if_pos hab, e]
        rfl
    · next hab =>
      rw [hmoves (persistAborted_ok hok), if_neg hab, e]
      rfl

/-- **the loop** leaves every member with its copy, and no other row changed. -/
theorem members_rows (hnd : (l.map (·.taskIDCommitment)).Nodup) (hm : ∀ m ∈ l, Member w.db m)
    (hok : Ok (Tx.each (applyGroupStatus env next evidence finished) l) w u w') :
    (∀ m ∈ l, w'.db.tasks.get m.taskIDCommitment =
      some (m.settledAs env (next m.taskIDCommitment) finished)) ∧
      ∀ j, j ∉ l.map (·.taskIDCommitment) → w'.db.tasks.get j = w.db.tasks.get j := by
  induction l generalizing w with
  | nil =>
    rw [ok_each_nil.1 hok]
    exact ⟨fun m hm => absurd hm not_mem_nil, fun j _ => rfl⟩
  | cons x l ih =>
    obtain ⟨w1, hx, hl⟩ := ok_each_cons.1 hok
    obtain ⟨hnot, hnd⟩ := nodup_cons.1 hnd
    obtain ⟨row, hrow, -⟩ := (hm x mem_cons_self).row
    have hothers := fun {j} => (transition_applyGroupStatus hrow hx).others (j := j)
    obtain ⟨hrows, hrest⟩ := ih hnd (fun m' hm' => by
      obtain ⟨row, hrow, e⟩ := hm m' (mem_cons_of_mem x hm')
      refine ⟨row, ?_, e⟩
      rw [hothers fun e => hnot (List.mem_map.2 ⟨m', hm', e⟩)]
      exact hrow) hl
    refine ⟨fun m' hm' => ?_, fun j hj => ?_⟩
    · rcases mem_cons.1 hm' with rfl | hm'
      · rw [hrest _ hnot]
        exact applyGroupStatus_row (hm m' mem_cons_self) hx
      · exact hrows m' hm'
    · rw [map_cons, mem_cons, not_or] at hj
      rw [hrest j hj.2, hothers hj.1]

lemma Validates.atLoop (h : Validates env tasks taskID refreshed next evidence w w')
    (hids : UniqueIds w.db) :
    AtLoop env w.db tasks taskID next evidence (settledMembers taskID refreshed) := by
  have hperm := refreshedRows_perm hids h.three h.length h.locked
  exact ⟨⟨refreshed, hperm.length_eq.trans h.length, hperm, rfl⟩,
    fun r hr => h.grouped r (hperm.mem_iff.2 hr), h.compared, buildEvidence_lookup h.evident⟩

lemma AtLoop.sorted (hids : UniqueIds db) (h : AtLoop env db tasks taskID next evidence l) :
    List.Forall₂ (SameMember taskID) (settledRows db tasks) l := by
  obtain ⟨refreshed, -, hperm, rfl⟩ := h.members
  rw [← sorted_refreshed hids hperm]
  exact sameMember_settled taskID refreshed

/-- **the statuses after a validation** are those of the decision on the rows, in the order of their
speed. -/
theorem validated_rows (hids : UniqueIds w.db)
    (h : Ok (validateTaskGroup env tasks taskID vrfProof publicKey) w u w') :
    ∃ next, groupNextStatus env.distanceThreshold (settledRows w.db tasks) = some next ∧
      (settledRows w.db tasks).length = 3 ∧ ∀ r ∈ settledRows w.db tasks,
        taskStatusOf w'.db r.taskIDCommitment = some (next r.taskIDCommitment).decided := by
  obtain ⟨refreshed, next, evidence, hv⟩ := validateTaskGroup_inv h
  have hat := hv.atLoop hids
  have hsorted := hat.sorted hids
  obtain ⟨hrows, -⟩ := members_rows hat.nodup (fun m hm => hat.member hm) hv.loop
  refine ⟨next, ?_, ?_, fun r hr => ?_⟩
  · rw [← groupNextStatus_congr hsorted]
    exact hat.compared
  · rw [hsorted.length_eq]
    exact hat.three
  · obtain ⟨m, hm, hrm⟩ := (mem_of_forall₂ hsorted).1 r hr
    have hc : m.taskIDCommitment = r.taskIDCommitment := by rw [hrm]
    rw [taskStatusOf, ← hc, hrows m hm, map_some, settledAs_status]

/-! ## the copies of the caller -/

/-- the copies that the caller's pointers hold after a successful validation, in the order of the pointers. -/
def groupWriteBack (env : Env) (db : Db) (originTasks : List InferenceTask) (taskID : Text) :
    Option (List InferenceTask) := do
  let refreshed ← refreshedRows db originTasks
  let tasks := settledMembers taskID refreshed
  let next ← groupNextStatus env.distanceThreshold tasks
  pure (tasks.map fun m =>
    m.settledAs env (next m.taskIDCommitment) (executedMembers tasks).length)

/-- **what the caller gets back**: three persisted rows; each pointer holds the row it referred to exactly
when the caller has passed the tasks in the order of their speed. -/
theorem writeBack_identity_iff (hids : UniqueIds w.db)
    (h : Ok (validateTaskGroup env tasks taskID vrfProof publicKey) w u w') :
    ∃ copies, groupWriteBack env w.db tasks taskID = some copies ∧
      (∀ c ∈ copies, w'.db.tasks.get c.taskIDCommitment = some c) ∧
      (List.Forall₂ (fun t c => w'.db.tasks.get t.taskIDCommitment = some c) tasks copies ↔
        tasks.map (·.taskIDCommitment) = (settledRows w.db tasks).map (·.taskIDCommitment)) := by
  obtain ⟨refreshed, next, evidence, hv⟩ := validateTaskGroup_inv h
  have hat := hv.atLoop hids
  have hcommitments : (settledMembers taskID refreshed).map (·.taskIDCommitment) =
      (settledRows w.db tasks).map (·.taskIDCommitment) :=
    map_eq_iff_forall₂.2 ((hat.sorted hids).flip.imp fun m r hm => by rw [hm])
  obtain ⟨hrows, -⟩ := members_rows hat.nodup (fun m hm => hat.member hm) hv.loop
  have hkey : ∀ m ∈ settledMembers taskID refreshed, (m.settledAs env (next m.taskIDCommitment)
      (executedMembers (settledMembers taskID refreshed)).length).taskIDCommitment =
        m.taskIDCommitment := fun m hm => key_of_get (hrows m hm)
  refine ⟨(settledMembers taskID refreshed).map fun m => m.settledAs env (next m.taskIDCommitment)
    (executedMembers (settledMembers taskID refreshed)).length, ?_, fun c hc => ?_, ?_⟩
  · rw [groupWriteBack, hv.locked, bind_eq_bind, bind_some]
    show Option.bind (groupNextStatus env.distanceThreshold _) _ = _
    rw [hv.compared]
    rfl
  · obtain ⟨m, hm, rfl⟩ := List.mem_map.1 hc
    rw [hkey m hm]
    exact hrows m hm
  · rw [← hcommitments, forall₂_map_right_iff]
    generalize settledMembers taskID refreshed = ms at hrows hkey ⊢
    rw [map_eq_iff_forall₂, forall₂_iff_get, forall₂_iff_get]
    refine and_congr_right fun hlen => forall_congr' fun i => forall_congr' fun hi =>
      forall_congr' fun hi' => ?_
    have hm : ms.get ⟨i, hi'⟩ ∈ ms := List.get_mem _ _
    refine ⟨fun hrow => ?_, fun hc => ?_⟩
    · rw [← hkey _ hm]
      exact (key_of_get hrow).symm
    · rw [hc]
      exact hrows _ hm

end

/-! ## three nodes that submit scores -/

/-- the three tasks of a group are executed: the scores with the times at which they are submitted. -/
def scoredGroup (x y z : Time × Text) : List RelayOp :=
  createdGroup ++ [.request (.join {} (groupNode "n1".toList)),
    .request (.join {} (groupNode "n2".toList)), .request (.join {} (groupNode "n3".toList)),
    .attempt {} 0 (.start "n1".toList), .attempt {} 1 (.start "n2".toList),
    .attempt {} 2 (.start "n3".toList), .read "0xc1".toList, .read "0xc2".toList,
    .read "0xc3".toList, .attempt { now := x.1 } 3 (.submitScore x.2),
    .attempt { now := y.1 } 4 (.submitScore y.2), .attempt { now := z.1 } 5 (.submitScore z.2)]

def scoredState (x y z : Time × Text) : RelayState :=
  run RelayOp.exec (scoredGroup x y z) freshRelay

lemma atomic_scoredGroup (x y z : Time × Text) :
    Along RelayOp.exec RelayOp.Atomic (scoredGroup x y z) freshRelay :=
  ⟨trivial, trivial, trivial, trivial, trivial, trivial, cons_ne_nil _ _, cons_ne_nil _ _,
    cons_ne_nil _ _, trivial, trivial, trivial, trivial, trivial, trivial, trivial, trivial,
    trivial, trivial⟩

lemma registered_scored (x y z : Time × Text) : Registered (scoredState x y z).world.db :=
  run_registered _ freshRelay ⟨fun _ => rfl, fun _ => rfl, rfl⟩ (fun _ hc => nomatch hc)
    (atomic_scoredGroup x y z)

def imageHash (last : String) : Text := ("0x00000000000000" ++ last).toList

def agreedState : RelayState :=
  scoredState (1, imageHash "00") (2, imageHash "00") (3, imageHash "00")

def overtakenState : RelayState :=
  scoredState (3, imageHash "00") (2, imageHash "00") (1, imageHash "00")

/-- **an exchange of members**: the caller passes the tasks in the order of their ids, and the pointer of the
first task comes back with the third one, which was the fastest. -/
theorem writeBack_exchanged :
    (∃ w', Ok (validateScored overtakenState) overtakenState.world () w') ∧
      (groupCopies overtakenState).map (·.taskIDCommitment) =
        ["0xc1".toList, "0xc2".toList, "0xc3".toList] ∧
      (groupWriteBack checkingEnv overtakenState.world.db (groupCopies overtakenState) "0xc".toList).map
        (·.map (·.taskIDCommitment)) = some ["0xc3".toList, "0xc2".toList, "0xc1".toList] :=
  ⟨⟨_, ok_of_toOption (by decide +kernel)⟩, by decide +kernel, by decide +kernel⟩

theorem writeBack_identity_at_agreed :
    ∃ w' copies, Ok (validateScored agreedState) agreedState.world () w' ∧
      groupWriteBack checkingEnv agreedState.world.db (groupCopies agreedState) "0xc".toList = some copies ∧
      List.Forall₂ (fun t c => w'.db.tasks.get t.taskIDCommitment = some c)
        (groupCopies agreedState) copies := by
  have hok : Ok (validateScored agreedState) agreedState.world () _ :=
    ok_of_toOption (by decide +kernel)
  obtain ⟨copies, hcopies, -, hiff⟩ := writeBack_identity_iff (registered_scored _ _ _).ids hok
  exact ⟨_, copies, hok, hcopies, hiff.2 (by decide +kernel)⟩

end CrynuxRelay
