import Mathlib.Data.List.Perm.Subperm
import CrynuxRelay.Base.Options
import CrynuxRelay.Tasks.Lifecycle

/-!
# Group validation

* `sameMember_settled` -- the members that are settled are the locked rows, sorted by their speed;
* `Validates`, `validateTaskGroup_inv` -- what a successful validation has read and done;
* `groupNextStatus_representative` -- at most one member becomes the representative;
* `Settles` -- the transition of one member; `settleMembers` -- the loop over the members;
* `validateTaskGroup_proceeds` -- a group validation keeps the lifecycle: every member but the
  representative has ended when it is done.
-/

namespace CrynuxRelay

open Function List Option Table Tx

variable {α : Type} {l : List InferenceTask} {X taskID : Text} {m : InferenceTask} {w w' : World}
  {env : Env} {u : Unit} {finished : Nat}
  {db : Db} {tasks refreshed ms : List InferenceTask} {next : Text → TaskStatus}
    {threshold : Nat} {evidence : List (Text × Bool)}

variable {unit : Text → Set Text}

/-! ## the order of the members and their scores -/

lemma insertBy_perm (lt : α → α → Bool) (a : α) (l : List α) : (insertBy lt a l).Perm (a :: l) := by
  induction l with
  | nil => exact List.Perm.refl _
  | cons b l ih =>
    rw [insertBy]
    split
    · exact List.Perm.refl _
    · exact (ih.cons b).trans (List.Perm.swap a b l)

lemma sortBy_perm (lt : α → α → Bool) (l : List α) : (sortBy lt l).Perm l := by
  induction l with
  | nil => exact List.Perm.refl _
  | cons a l ih =>
    show (insertBy lt a (sortBy lt l)).Perm (a :: l)
    exact (insertBy_perm lt a _).trans (ih.cons a)

/-- related lists are sorted alike when the order does not tell related elements apart. -/
lemma forall₂_sortBy {lt : α → α → Bool} {r : α → α → Prop}
    (h : ∀ a a' b b', r a a' → r b b' → lt a b = lt a' b') {l l' : List α}
    (hl : List.Forall₂ r l l') : List.Forall₂ r (sortBy lt l) (sortBy lt l') := by
  have hins : ∀ a a', r a a' → ∀ {l l' : List α}, List.Forall₂ r l l' →
      List.Forall₂ r (insertBy lt a l) (insertBy lt a' l') := by
    intro a a' ha l l' hl
    induction hl with
    | nil => exact .cons ha .nil
    | @cons b b' l l' hb hl ih =>
      rw [insertBy, insertBy, h a a' b b' ha hb]
      split
      · exact .cons ha (.cons hb hl)
      · exact .cons hb ih
  induction hl with
  | nil => exact .nil
  | cons ha _ ih => exact hins _ _ ha ih

def SameMember (taskID : Text) (t m : InferenceTask) : Prop :=
  m = { t with taskID := taskID, qosScore := m.qosScore }

lemma SameMember.rescored {t : InferenceTask} (h : SameMember taskID t m)
    (score : Option Nat) : SameMember taskID t { m with qosScore := score } := by
  unfold SameMember
  rw [h]

lemma sameMember_assigned {l' : List InferenceTask} (h : List.Forall₂ (SameMember taskID) l l') :
    List.Forall₂ (SameMember taskID) l (assignValidationGroupQosScores l') := by
  have hfrom : ∀ order, List.Forall₂ (SameMember taskID) l (assignScoresFrom order l') := by
    induction h with
    | nil => exact fun _ => .nil
    | cons ht _ ih =>
      intro order
      rw [assignScoresFrom]
      split
      all_goals exact .cons (ht.rescored _) (ih _)
  unfold assignValidationGroupQosScores
  split
  · rw [forall₂_map_right_iff]
    exact h.imp fun t t' ht => ht.rescored none
  · exact hfrom 0

def settledMembers (taskID : Text) (refreshed : List InferenceTask) : List InferenceTask :=
  assignValidationGroupQosScores
    (sortBy fasterThan (refreshed.map fun t => { t with taskID := taskID }))

lemma sameMember_settled (taskID : Text) (refreshed : List InferenceTask) :
    List.Forall₂ (SameMember taskID) (sortBy fasterThan refreshed)
      (settledMembers taskID refreshed) := by
  refine sameMember_assigned (forall₂_sortBy (fun a a' b b' ha hb => ?_) ?_)
  · rw [ha, hb]
    rfl
  · rw [forall₂_map_right_iff, forall₂_same]
    exact fun t _ => rfl

lemma settled_commitments (taskID : Text) (refreshed : List InferenceTask) :
    (settledMembers taskID refreshed).map (·.taskIDCommitment) =
      (sortBy fasterThan refreshed).map (·.taskIDCommitment) :=
  map_eq_iff_forall₂.2 ((sameMember_settled taskID refreshed).flip.imp fun m t h => by rw [h])

lemma mem_settledMembers
    (h : m ∈ settledMembers taskID refreshed) : ∃ r ∈ refreshed, SameMember taskID r m := by
  obtain ⟨r, hr, hm⟩ := (mem_of_forall₂ (sameMember_settled taskID refreshed)).2 m h
  exact ⟨r, (sortBy_perm _ _).mem_iff.1 hr, hm⟩

/-! ## the locked rows -/

def lockedRows (db : Db) (tasks : List InferenceTask) : List InferenceTask :=
  db.tasks.rows.filter fun t => t.id ∈ tasks.map (·.id)

lemma mem_lockedRows {r : InferenceTask} : r ∈ lockedRows db tasks ↔
      db.tasks.get r.taskIDCommitment = some r ∧ ∃ t ∈ tasks, t.id = r.id := by
  rw [lockedRows, mem_filter, mem_rows, decide_eq_true_iff, List.mem_map]

lemma nodup_lockedRows (db : Db) (tasks : List InferenceTask) :
    ((lockedRows db tasks).map (·.taskIDCommitment)).Nodup :=
  db.tasks.nodup_map_key_rows.sublist (filter_sublist.map _)

def UniqueIds (db : Db) : Prop :=
  ∀ c c' t t', db.tasks.get c = some t → db.tasks.get c' = some t' → t.id = t'.id → c = c'

/-- the rows that a validation locks, in the order of the ids of the caller's tasks. -/
def refreshedRows (db : Db) (originTasks : List InferenceTask) : Option (List InferenceTask) :=
  (sortBy (fun t₁ t₂ => t₁.id < t₂.id) originTasks).mapM fun t =>
    (lockedRows db originTasks).find? fun r => r.id = t.id

lemma refreshedRows_ids (h : refreshedRows db tasks = some refreshed) :
    List.Forall₂ (fun t r => r ∈ lockedRows db tasks ∧ r.id = t.id)
      (sortBy (fun t1 t2 => t1.id < t2.id) tasks) refreshed :=
  (mapM_eq_some_iff.1 h).imp fun t r hf =>
    ⟨mem_of_find?_eq_some hf, of_decide_eq_true (by simpa using find?_some hf)⟩

lemma lockedRows_perm (db : Db) (h : (l.map (·.id)).Perm (tasks.map (·.id))) :
    lockedRows db l = lockedRows db tasks :=
  filter_congr fun r _ => by
    rw [decide_eq_decide]
    exact h.mem_iff

lemma ok_lockValidationGroupTasks :
    Ok (lockValidationGroupTasks ((sortBy (fun t1 t2 => t1.id < t2.id) tasks).map
        fun t => { t with taskID := taskID })) w refreshed w' ↔
      tasks.length = 3 ∧ (lockedRows w.db tasks).length = 3 ∧
        refreshedRows w.db tasks = some refreshed ∧ w' = w := by
  have hrows : ∀ db, lockedRows db ((sortBy (fun t1 t2 => t1.id < t2.id) tasks).map
      fun t => { t with taskID := taskID }) = lockedRows db tasks :=
    fun db => lockedRows_perm db (by rw [List.map_map]; exact (sortBy_perm _ tasks).map (·.id))
  unfold lockedRows at hrows
  rw [lockValidationGroupTasks, ok_require_bind, ok_getDb_bind, ok_require_bind,
    ok_orFail, mapM_map, hrows, length_map, (sortBy_perm _ _).length_eq]
  exact and_congr_right fun h => by rw [h]; rfl

lemma refreshedRows_perm (hids : UniqueIds db) (hthree : tasks.length = 3)
    (hlen : (lockedRows db tasks).length = 3) (h : refreshedRows db tasks = some refreshed) :
    refreshed.Perm (lockedRows db tasks) := by
  have hsame := lockedRows_perm db ((sortBy_perm (fun t1 t2 => t1.id < t2.id) tasks).map (·.id))
  have hall := refreshedRows_ids h
  rw [← hsame] at hall hlen ⊢
  have hsub : lockedRows db (sortBy (fun t1 t2 => t1.id < t2.id) tasks) ⊆ refreshed := by
    intro r hr
    obtain ⟨hrow, t, ht, hid⟩ := mem_lockedRows.1 hr
    obtain ⟨r', hr', hm, hid'⟩ := (mem_of_forall₂ hall).1 t ht
    have hrow' := (mem_lockedRows.1 hm).1
    rw [hids _ _ _ _ hrow' hrow (hid'.trans hid), hrow] at hrow'
    exact some.inj hrow' ▸ hr'
  refine ((subperm_of_subset (nodup_lockedRows db _).of_map hsub).perm_of_length_le ?_).symm
  rw [hlen, ← hall.length_eq, (sortBy_perm _ _).length_eq, hthree]

/-! ## the representative -/

def OneRepresentative (next : Text → TaskStatus) : Prop :=
  ∃ g, ∀ c, next c = .groupValidated → c = g

lemma oneRepresentative_aborted : OneRepresentative fun _ => .endAborted :=
  ⟨[], fun c h => by cases h⟩

lemma oneRepresentative_set (g : Text) :
    OneRepresentative (update (fun _ => .endAborted) g .groupValidated) := by
  refine ⟨g, fun c h => ?_⟩
  by_contra hne
  rw [update_of_ne hne] at h
  cases h

lemma OneRepresentative.update (h : OneRepresentative next) (c : Text) {st : TaskStatus}
    (hst : st ≠ .groupValidated) : OneRepresentative (update next c st) := by
  obtain ⟨g, hg⟩ := h
  refine ⟨g, fun j hj => ?_⟩
  by_cases hc : j = c
  · subst hc
    rw [update_self] at hj
    exact absurd hj hst
  · rw [update_of_ne hc] at hj
    exact hg j hj

/-- the choice of a representative `g` and a refund `r`, when the pair has scores. -/
lemma oneRepresentative_pair (p : Prop) [Decidable p] (g r : Text) :
    OneRepresentative (if p then update
      (update (fun _ => .endAborted) g .groupValidated) r .endGroupRefund
      else fun _ => .endAborted) := by
  split
  · exact (oneRepresentative_set g).update r TaskStatus.noConfusion
  · exact oneRepresentative_aborted

def Agree (t₁ t₂ : InferenceTask) : Prop := t₁.taskType = t₂.taskType ∧ t₁.status = t₂.status

lemma compareTaskScore_agree {t1 t2 : InferenceTask}
    (h : compareTaskScore t1 t2 threshold = some true) : Agree t1 t2 := by
  unfold compareTaskScore at h
  split at h
  · cases h
  next hty =>
  split at h
  · cases h
  next hst => exact ⟨not_not.1 hty, not_not.1 hst⟩

def executedMembers (tasks : List InferenceTask) : List InferenceTask :=
  tasks.filter fun t => t.status ≠ .endAborted

/-- the representative `f` and the refunded `g`, when the pair has scores. -/
def pairStatus (f g : InferenceTask) : Text → TaskStatus :=
  if f.status = .scoreReady then
    Function.update (Function.update (fun _ => .endAborted) f.taskIDCommitment .groupValidated)
      g.taskIDCommitment .endGroupRefund
  else fun _ => .endAborted

/-- **the three outcomes of the comparison**: no pair agrees, two members executed and agree on their scores,
or two of three agree and the third is refunded or invalidated. -/
theorem groupNextStatus_cases (h : groupNextStatus threshold tasks = some next) :
    (next = fun _ => .endAborted) ∨
      (∃ f g, executedMembers tasks = [f, g] ∧ Agree f g ∧ f.status = .scoreReady ∧
        next = pairStatus f g) ∨
      ∃ f g r st, List.Perm [f, g, r] (executedMembers tasks) ∧ Agree f g ∧
        next = update (pairStatus f g) r.taskIDCommitment st ∧
        (st = .endInvalidated ∨ st = .endGroupRefund ∧ Agree f r) := by
  unfold groupNextStatus at h
  split at h
  · next f0 f1 hex =>
    obtain ⟨same, h1, h⟩ := bind_eq_some_iff.1 h
    split at h
    · next hsame =>
      obtain ⟨rfl, hst⟩ := Bool.and_eq_true_iff.1 hsame
      have hst : f0.status = .scoreReady := of_decide_eq_true hst
      cases h
      refine .inr (.inl ⟨f0, f1, hex, compareTaskScore_agree h1, hst, ?_⟩)
      rw [pairStatus, if_pos hst]
    · cases h
      exact .inl rfl
  · next f0 f1 f2 hex =>
    obtain ⟨same1, h1, h⟩ := bind_eq_some_iff.1 h
    obtain ⟨same2, h2, h⟩ := bind_eq_some_iff.1 h
    obtain ⟨same3, h3, h⟩ := bind_eq_some_iff.1 h
    rw [show executedMembers tasks = [f0, f1, f2] from hex]
    cases same1 with
    | true =>
      cases h
      refine .inr (.inr ⟨f0, f1, f2, _, List.Perm.refl _, compareTaskScore_agree h1, rfl, ?_⟩)
      cases same2 with
      | true => exact .inr ⟨rfl, compareTaskScore_agree h2⟩
      | false => exact .inl rfl
    | false =>
    cases same2 with
    | true =>
      cases h
      exact .inr (.inr ⟨f0, f2, f1, _, (List.Perm.swap f1 f2 []).cons f0,
        compareTaskScore_agree h2, rfl, .inl rfl⟩)
    | false =>
    cases same3 with
    | true =>
      cases h
      have hrot : List.Perm ([f1, f2] ++ [f0]) ([f0] ++ [f1, f2]) := perm_append_comm
      exact .inr (.inr ⟨f1, f2, f0, _, hrot, compareTaskScore_agree h3, rfl, .inl rfl⟩)
    | false =>
      cases h
      exact .inl rfl
  · cases h
    exact .inl rfl

lemma groupNextStatus_representative (h : groupNextStatus threshold tasks = some next) :
    OneRepresentative next := by
  rcases groupNextStatus_cases h with rfl | ⟨f, g, -, -, -, rfl⟩ | ⟨f, g, r, st, -, -, rfl, hst⟩
  · exact oneRepresentative_aborted
  · exact oneRepresentative_pair _ _ _
  · refine (oneRepresentative_pair _ _ _).update _ ?_
    rcases hst with rfl | ⟨rfl, -⟩
    all_goals exact TaskStatus.noConfusion

/-! ## one member -/

def InferenceTask.rescored (t task : InferenceTask) : InferenceTask :=
  { t with qosScore := task.qosScore, taskID := task.taskID }

lemma persistAborted_ok {task : InferenceTask}
    (h : Ok (persistValidationGroupAbortedTaskQos env task) w u w') :
    Moves task.taskIDCommitment (fun t => t.rescored task) [] w w' := by
  obtain ⟨_, w1, h1, h⟩ := ok_bind.1 h
  have hside : NodeSide w w1 := Kept.ok h1
  rw [InferenceTask.update, ok_modifyDb] at h
  rw [h]
  exact moves_of_parts (Drafted.nil w) hside (Both.refl _) (by simp)

variable (unit) in
/-- the transition of member `c` of the group `X`: it ends, or it becomes the representative. -/
structure Settles (X : Text) (next : Text → TaskStatus) (c : Text) (w w' : World) : Prop where
  coupled : Coupled unit w'.db
  groups : ∀ Y, Y ≠ X → GroupSettled w.db Y → GroupSettled w'.db Y
  effect : ∃ ds, TaskEffect ds w w'
  others : ∀ j, j ≠ c → w'.db.tasks.get j = w.db.tasks.get j
  row : ∃ t', w'.db.tasks.get c = some t' ∧
    (t'.status.isClosed = true ∨ (t'.status = .groupValidated ∧ next c = .groupValidated))

lemma Closes.settles {c : Text} (h : Closes unit c w w') : Settles unit X next c w w' where
  coupled := h.coupled
  groups := fun Y _ hY => h.groups Y hY
  effect := h.effect
  others := h.others
  row := by
    obtain ⟨t', ht', hcl⟩ := h.row
    exact ⟨t', ht', .inl hcl⟩

section
variable {task row : InferenceTask}

section
variable (h : Coupled unit w.db) (hrow : w.db.tasks.get task.taskIDCommitment = some row)
  (hcopy : Copies unit task row)
include h hrow hcopy

lemma persist_closes (hst : row.status = .endAborted)
    (hok : Ok (persistValidationGroupAbortedTaskQos env task) w u w') :
    Closes unit task.taskIDCommitment w w' := by
  have hm := persistAborted_ok hok
  have he : Evolves row (row.rescored task) := by
    refine ⟨rfl, rfl, rfl, rfl, fun hq => ⟨hq, rfl⟩, ?_, fun _ => ⟨rfl, rfl, fun hne => ?_⟩⟩
    · rw [hst]
      exact nofun
    · exact absurd hst hne
  refine closes_of_moves h hm hrow he ?_ hcopy.member ?_ (hm.quietEffect hrow he id id)
  · show row.status.isClosed = true
    rw [hst]
    rfl
  · -- no node holds a task that has ended
    intro _ hc
    obtain ⟨t, ht, -, -, -, hterm⟩ := h.held _ _ (hm.current _ _ hc)
    rw [hrow] at ht
    cases ht
    rw [hst] at hterm
    cases hterm

lemma groupValidated_settles
    (hX : task.taskID = X) (hne : X ≠ []) (hnext : next task.taskIDCommitment = .groupValidated)
    (hok : Ok (setTaskStatusGroupValidated env task) w u w') :
    Settles unit X next task.taskIDCommitment w w' := by
  obtain ⟨hst, hcur, deadline, -, hm⟩ := setTaskStatusGroupValidated_ok hok
  have hrst : row.status = .scoreReady := (hcur.status hrow).trans hst
  have he : Evolves row (row.groupValidatedAs task.taskID task.qosScore env.now deadline) :=
    evolves_of_running (by rw [hrst]; rfl) rfl rfl rfl rfl ⟨TaskStatus.noConfusion, rfl⟩
      fun hx => by rw [hrst] at hx; cases hx
  have hrowok : RowOk unit (row.groupValidatedAs task.taskID task.qosScore env.now deadline) := by
    refine ⟨nofun, nofun, fun hid => ?_, fun _ => hX.trans_ne hne, nofun⟩
    show row.taskIDCommitment ∈ unit task.taskID
    rw [← hcopy.taskIDCommitment]
    exact hcopy.member hid
  refine ⟨h.moves hm hrow he hrowok nofun, fun Y hY hgroup => ?_, ⟨[], hm.runningEffect hrow he rfl⟩,
    fun _ => hm.other, _, hm.row hrow, .inr ⟨rfl, hnext⟩⟩
  refine hgroup.rewrites hm.toRewrites hrow fun hx => ?_
  exact absurd (hx.symm.trans hX) hY

/-- **the transition of one member**, whatever its next status. -/
theorem applyGroupStatus_settles (hst : row.status = task.status) (hX : task.taskID = X)
    (hne : X ≠ []) (hok : Ok (applyGroupStatus env next evidence finished task) w u w') :
    Settles unit X next task.taskIDCommitment w w' := by
  unfold applyGroupStatus at hok
  split at hok
  · obtain ⟨complete, -, hok⟩ := ok_orFail_bind.1 hok
    exact (invalidate_closes h hcopy hrow hok).settles
  · next hnext => exact groupValidated_settles h hrow hcopy hX hne hnext hok
  · exact (groupRefund_closes h hcopy hrow hok).settles
  · split at hok
    · next hab =>
      have hcopy' : Copies unit { task with
          abortReason := if finished < 2 then .groupTimeout else .incorrectResult
          validatedTime := some env.now } row :=
        ⟨hcopy.id, hcopy.taskIDCommitment, hcopy.creator, hcopy.taskFee, hcopy.waiting, hcopy.left,
          hcopy.member⟩
      exact (abort_closes h hcopy' hrow hab hok).settles
    · next hab => exact (persist_closes h hrow hcopy (hst.trans (not_not.1 hab)) hok).settles

end

end

/-! ## the loop -/

lemma TaskEffect.refl (w : World) : TaskEffect [] w w := taskEffect_of_nodeSide (Both.refl w)

variable (unit) in
/-- `m` is the up-to-date copy of a member of the group `X`. -/
def MemberOf (X : Text) (db : Db) (m : InferenceTask) : Prop :=
  m.taskID = X ∧ ∃ row, db.tasks.get m.taskIDCommitment = some row ∧ Copies unit m row ∧
    row.status = m.status

variable (unit) in
structure SettlesAll (X : Text) (next : Text → TaskStatus) (ms : List InferenceTask)
    (w w' : World) : Prop where
  coupled : Coupled unit w'.db
  groups : ∀ Y, Y ≠ X → GroupSettled w.db Y → GroupSettled w'.db Y
  effect : ∃ ds, TaskEffect ds w w'
  others : ∀ j, j ∉ ms.map (·.taskIDCommitment) → w'.db.tasks.get j = w.db.tasks.get j
  rows : ∀ m ∈ ms, ∃ t', w'.db.tasks.get m.taskIDCommitment = some t' ∧ (t'.status.isClosed = true ∨
      (t'.status = .groupValidated ∧ next m.taskIDCommitment = .groupValidated))

theorem settleMembers (hne : X ≠ []) (h : Coupled unit w.db) (hnd : (ms.map (·.taskIDCommitment)).Nodup)
    (hms : ∀ m ∈ ms, MemberOf unit X w.db m)
    (hok : Ok (Tx.each (applyGroupStatus env next evidence finished) ms) w u w') :
    SettlesAll unit X next ms w w' := by
  -- the members that are still to come keep their rows: each step writes the row of one member
  induction ms generalizing w with
  | nil =>
    obtain rfl := ok_each_nil.1 hok
    exact ⟨h, fun _ _ hY => hY, ⟨[], TaskEffect.refl w'⟩, fun _ _ => rfl, by simp⟩
  | cons m ms ih =>
    obtain ⟨w1, hok1, hok2⟩ := ok_each_cons.1 hok
    obtain ⟨hX, row, hrow, hcopy, hst⟩ := hms m mem_cons_self
    obtain ⟨hm, hnd'⟩ := nodup_cons.1 hnd
    have hs := applyGroupStatus_settles h hrow hcopy hst hX hne hok1
    have hms' : ∀ m' ∈ ms, MemberOf unit X w1.db m' := by
      intro m' hm'
      obtain ⟨hX', row', hrow', hcopy', hst'⟩ := hms m' (mem_cons_of_mem m hm')
      have hc : m'.taskIDCommitment ≠ m.taskIDCommitment :=
        fun e => hm (List.mem_map.2 ⟨m', hm', e⟩)
      exact ⟨hX', row', by rw [hs.others _ hc]; exact hrow', hcopy', hst'⟩
    have hr := ih hs.coupled hnd' hms' hok2
    obtain ⟨ds, heff⟩ := hs.effect
    obtain ⟨ds', heff'⟩ := hr.effect
    refine ⟨hr.coupled, ?_, ⟨ds ++ ds', heff.trans heff'⟩, ?_, ?_⟩
    · exact fun Y hY hg => hr.groups Y hY (hs.groups Y hY hg)
    · intro j hj
      rw [map_cons, mem_cons, not_or] at hj
      rw [hr.others j hj.2, hs.others j hj.1]
    · intro m' hm'
      rcases mem_cons.1 hm' with rfl | hm'
      · rw [hr.others _ hm]
        exact hs.row
      · exact hr.rows m' hm'

lemma SettlesAll.lifecycle (h : Lifecycle unit w.db) (hs : SettlesAll unit X next ms w w')
    (hne : X ≠ []) (hunit : unit X = {c | c ∈ ms.map (·.taskIDCommitment)})
    (hone : OneRepresentative next) : Lifecycle unit w'.db := by
  refine ⟨hs.coupled, fun Y => ?_⟩
  by_cases hY : Y = X
  · subst hY
    have hmem : ∀ c t, w'.db.tasks.get c = some t → t.taskID = Y →
        t.status.isClosed = true ∨ (t.status = .groupValidated ∧ next c = .groupValidated) := by
      intro c t ht hid
      have hc := (hs.coupled.rows c t ht).member (by rw [hid]; exact hne)
      rw [hid, hunit, key_of_get ht] at hc
      obtain ⟨m, hm, rfl⟩ := List.mem_map.1 hc
      obtain ⟨t', ht', hst⟩ := hs.rows m hm
      rw [ht] at ht'
      cases ht'
      exact hst
    obtain ⟨g, hg⟩ := hone
    intro c t ht hst hid c' t' ht' hid' hcc
    rcases hmem c' t' ht' hid' with hx | ⟨-, hx⟩
    · exact hx
    · rcases hmem c t ht hid with hy | ⟨-, hy⟩
      · rw [hst] at hy
        cases hy
      · exact absurd ((hg c' hx).trans (hg c hy).symm) hcc
  · exact hs.groups Y hY (h.groups Y)

/-! ## the validation -/

section
variable {r : World → World → Prop} [Stable r]

instance {next : Text → TaskStatus} {l : List InferenceTask} :
    Kept r (buildInvalidatedTaskSlashEvidence env next l) := by
  induction l with
  | nil => exact ⟨keeps_pure _⟩
  | cons t l ih =>
    unfold buildInvalidatedTaskSlashEvidence
    split
    · exact ih
    · refine ⟨keeps_bind Kept.keeps fun node => ?_⟩
      split
      all_goals exact Kept.keeps

instance {tasks : List InferenceTask} {taskID : Text} :
    Kept r (refreshValidationGroupTasksForFinalUpdate tasks taskID) := by
  unfold refreshValidationGroupTasksForFinalUpdate lockValidationGroupTasks
  infer_instance

end

def TaskStatus.isGrouped (st : TaskStatus) : Prop :=
  st = .scoreReady ∨ st = .errorReported ∨ st = .endAborted

/-- **a successful validation**: the rows that it locks, the decision, and the loop over the members. -/
structure Validates (env : Env) (tasks : List InferenceTask) (taskID : Text)
    (refreshed : List InferenceTask) (next : Text → TaskStatus) (evidence : List (Text × Bool))
    (w w' : World) : Prop where
  three : tasks.length = 3
  length : (lockedRows w.db tasks).length = 3
  valid : ∀ t ∈ tasks, env.validTaskID taskID t.nonce t.taskIDCommitment = true
  locked : refreshedRows w.db tasks = some refreshed
  grouped : ∀ r ∈ refreshed, r.status.isGrouped
  compared : groupNextStatus env.distanceThreshold (settledMembers taskID refreshed) = some next
  evident : Ok (buildInvalidatedTaskSlashEvidence env next (settledMembers taskID refreshed)) w
    evidence w
  loop : Ok (Tx.each (applyGroupStatus env next evidence
    (executedMembers (settledMembers taskID refreshed)).length) (settledMembers taskID refreshed))
      w () w'

section
variable {vrfProof publicKey : Text}

lemma validateTaskGroup_inv (h : Ok (validateTaskGroup env tasks taskID vrfProof publicKey) w u w') :
    ∃ refreshed next evidence, Validates env tasks taskID refreshed next evidence w w' := by
  rw [validateTaskGroup, ok_require_bind, ok_require_bind, ok_bind] at h
  obtain ⟨-, -, _, w1, hchecks, h⟩ := h
  obtain ⟨rfl, hvalid⟩ :=
    ok_each_all (p := fun t => env.validTaskID taskID t.nonce t.taskIDCommitment = true)
      (fun t w u w' h => by rw [ok_require_bind, ok_require_bind, ok_require] at h; exact ⟨h.2.2.2, h.1⟩) hchecks
  rw [ok_require_bind, ok_transaction, settleTaskGroup, ok_bind] at h
  obtain ⟨-, refreshed, w2, hrefresh, h⟩ := h
  rw [refreshValidationGroupTasksForFinalUpdate, ok_bind] at hrefresh
  obtain ⟨locked, w3, hlock, hrefresh⟩ := hrefresh
  obtain ⟨hthree, hlen, hlocked, rfl⟩ := ok_lockValidationGroupTasks.1 hlock
  rw [ok_require_bind, ok_require_bind, ok_require_bind, ok_pure] at hrefresh
  obtain ⟨-, -, hgrouped, rfl, rfl⟩ := hrefresh
  rw [ok_require_bind, ok_orFail_bind] at h
  obtain ⟨-, next, hnext, h⟩ := h
  obtain ⟨evidence, w4, hev, hloop⟩ := ok_bind.1 h
  obtain rfl : w4 = w2 := Kept.ok (r := Same) hev
  exact ⟨refreshed, next, evidence, hthree, hlen,
    fun t ht => hvalid t ((sortBy_perm _ _).mem_iff.2 ht), hlocked, hgrouped, hnext, hev, hloop⟩

section
variable (h : Validates env tasks taskID refreshed next evidence w w')
include h

lemma Validates.row (hm : m ∈ settledMembers taskID refreshed) :
    ∃ r ∈ lockedRows w.db tasks, SameMember taskID r m := by
  obtain ⟨r, hr, hrm⟩ := mem_settledMembers hm
  obtain ⟨t, -, hlocked, -⟩ := (mem_of_forall₂ (refreshedRows_ids h.locked)).2 r hr
  exact ⟨r, hlocked, hrm⟩

lemma Validates.nodup (hids : UniqueIds w.db) :
    ((settledMembers taskID refreshed).map (·.taskIDCommitment)).Nodup := by
  have hp := refreshedRows_perm hids h.three h.length h.locked
  rw [settled_commitments, ((sortBy_perm _ _).map _).nodup_iff, (hp.map _).nodup_iff]
  exact nodup_lockedRows w.db tasks

/-- the members have the commitments of the tasks whose rows they are. -/
lemma Validates.commitments (hids : UniqueIds w.db)
    (hcopy : ∀ t ∈ tasks, ∃ row, w.db.tasks.get t.taskIDCommitment = some row ∧ t.id = row.id) :
    ((settledMembers taskID refreshed).map (·.taskIDCommitment)).Perm
      (tasks.map (·.taskIDCommitment)) := by
  have hsame : (sortBy (fun t1 t2 => t1.id < t2.id) tasks).map (·.taskIDCommitment) =
      refreshed.map (·.taskIDCommitment) := by
    have hsorted := fun t ht => hcopy t ((sortBy_perm (fun t1 t2 => t1.id < t2.id) tasks).mem_iff.1 ht)
    refine map_eq_iff_forall₂.2
      (((forall₂_and_left _ _).2 ⟨hsorted, refreshedRows_ids h.locked⟩).imp fun t r hr => ?_)
    obtain ⟨⟨row, hrow, hid⟩, hr⟩ := hr
    exact hids _ _ _ _ hrow (mem_lockedRows.1 hr.1).1 (hid.symm.trans hr.2.symm)
  rw [settled_commitments]
  refine ((sortBy_perm _ _).map _).trans ?_
  rw [← hsame]
  exact (sortBy_perm _ _).map _

end

theorem validateTaskGroup_proceeds (h : Lifecycle unit w.db)
    (hcopy : ∀ t ∈ tasks, ∃ row, w.db.tasks.get t.taskIDCommitment = some row ∧ t.id = row.id)
    (hunit : unit taskID = {c | c ∈ tasks.map (·.taskIDCommitment)})
    (hok : Ok (validateTaskGroup env tasks taskID vrfProof publicKey) w u w') :
    Proceeds unit w w' := by
  obtain ⟨refreshed, next, evidence, hv⟩ := validateTaskGroup_inv hok
  have hne : taskID ≠ [] := by
    rintro rfl
    obtain ⟨t, ht⟩ := exists_mem_of_length_pos (by rw [hv.three]; exact Nat.succ_pos 2)
    have hvalid := hv.valid t ht
    rw [env.validTaskID_empty] at hvalid
    cases hvalid
  have hperm := hv.commitments h.ids hcopy
  have hunit' : unit taskID = {c | c ∈ (settledMembers taskID refreshed).map (·.taskIDCommitment)} := by
    rw [hunit]
    ext c
    exact hperm.mem_iff.symm
  have hmember : ∀ m ∈ settledMembers taskID refreshed, MemberOf unit taskID w.db m := by
    intro m hm
    have hc : m.taskIDCommitment ∈ unit taskID := by
      rw [hunit']
      exact List.mem_map_of_mem hm
    obtain ⟨r, hr, e⟩ := hv.row hm
    have hrow := (mem_lockedRows.1 hr).1
    rw [e] at hc ⊢
    exact ⟨rfl, r, hrow, ⟨rfl, rfl, rfl, rfl, (h.rows _ r hrow).waiting, fun hq => ⟨hq, rfl⟩,
      fun _ => hc⟩, rfl⟩
  have hs := settleMembers hne h.toCoupled (hv.nodup h.ids) hmember hv.loop
  exact ⟨hs.lifecycle h hne hunit' (groupNextStatus_representative hv.compared), hs.effect⟩

end

end CrynuxRelay
