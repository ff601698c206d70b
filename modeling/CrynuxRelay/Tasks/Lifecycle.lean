import Mathlib.Data.Set.Insert
import CrynuxRelay.Model.System
import CrynuxRelay.Tasks.Books
import CrynuxRelay.Tasks.Settlement

/-!
# The lifecycle of tasks

What holds between the rows of the tasks, the nodes that execute them and the copies that the
handlers work on.

* `Coupled` -- the task a node holds is running and is that node's task; ids and revealed task ids
  are in order;
* `GroupSettled` -- once a group has a representative, its other members have ended;
* `Copies` -- what a handler's copy of a task has in common with the row;
* `Closes` -- an end that is no success keeps all this and has an effect that the books accept: aborts,
  group refunds, invalidations, slashes;
* `Lifecycle` -- the whole, with one lemma for each other transition.

A validation unit is the set of tasks that are revealed together: one task, or a group of three.
-/

namespace CrynuxRelay

open List Table TaskStatus

variable {row task : InferenceTask} {c : Text} {w w' : World} {env : Env} {u : Unit}
  {f : InferenceTask → InferenceTask}
  {X : Text} {t : InferenceTask} {db : Db}

variable {unit : Text → Set Text}

/-! ## rows and nodes -/

variable (unit) in
structure RowOk (t : InferenceTask) : Prop where
  waiting : t.status = .queued → t.selectedNode = []
  unrevealed : t.status.isTerminal = false → t.status.isValidated = false → t.taskID = []
  member : t.taskID ≠ [] → t.taskIDCommitment ∈ unit t.taskID
  revealed : t.status.isValidated = true → t.taskID ≠ []
  single : t.status = .validated → unit t.taskID = {t.taskIDCommitment}

/-- ids tell the rows apart, and are at most as many. -/
structure TaskIds (db : Db) : Prop where
  ids : ∀ c c' t t', db.tasks.get c = some t → db.tasks.get c' = some t' → t.id = t'.id → c = c'
  ids_le : ∀ c t, db.tasks.get c = some t → t.id ≤ db.tasks.keys.length

lemma TaskIds.rewrites {ds : List EventDraft} (h : TaskIds w.db) (hm : Rewrites c f ds w w')
    (ht : w.db.tasks.get c = some t) (hid : (f t).id = t.id) : TaskIds w'.db := by
  have hold : ∀ {j u}, w'.db.tasks.get j = some u → ∃ v, w.db.tasks.get j = some v ∧ v.id = u.id := by
    intro j u hu
    rcases hm.row_cases ht hu with ⟨rfl, rfl⟩ | ⟨-, hu⟩
    · exact ⟨t, ht, hid.symm⟩
    · exact ⟨u, hu, rfl⟩
  refine ⟨fun j j' u u' hu hu' e => ?_, fun j u hu => ?_⟩
  · obtain ⟨v, hv, hvid⟩ := hold hu
    obtain ⟨v', hv', hvid'⟩ := hold hu'
    exact h.ids j j' v v' hv hv' (hvid.trans (e.trans hvid'.symm))
  · obtain ⟨v, hv, hvid⟩ := hold hu
    rw [← hvid, hm.keys]
    exact h.ids_le j v hv

variable (unit) in
structure Coupled (db : Db) : Prop extends TaskIds db where
  rows : ∀ c t, db.tasks.get c = some t → RowOk unit t
  held : ∀ a c, currentOf db a = some c → ∃ t, db.tasks.get c = some t ∧ t.selectedNode = a ∧
    a ≠ [] ∧ t.status ≠ .queued ∧ t.status.isTerminal = false

def TaskStatus.isClosed : TaskStatus → Bool
  | .endGroupRefund | .endInvalidated | .endAborted => true
  | _ => false

/-- the other tasks with the task id of a representative have ended. -/
def GroupSettled (db : Db) (taskID : Text) : Prop :=
  ∀ c t, db.tasks.get c = some t → t.status = .groupValidated → t.taskID = taskID →
    ∀ c' t', db.tasks.get c' = some t' → t'.taskID = taskID → c' ≠ c → t'.status.isClosed = true

section
variable {ds : List EventDraft}

lemma Coupled.rewrites (h : Coupled unit w.db) (hm : Rewrites c f ds w w')
    (ht : w.db.tasks.get c = some t) (he : Evolves t (f t)) (hrow : RowOk unit (f t))
    (hheld : ∀ a c', currentOf w'.db a = some c' → ∃ t', w'.db.tasks.get c' = some t' ∧
      t'.selectedNode = a ∧ a ≠ [] ∧ t'.status ≠ .queued ∧ t'.status.isTerminal = false) :
    Coupled unit w'.db := by
  refine ⟨h.toTaskIds.rewrites hm ht he.id, fun j u' hu' => ?_, hheld⟩
  rcases hm.row_cases ht hu' with ⟨-, rfl⟩ | ⟨-, hu⟩
  · exact hrow
  · exact h.rows j u' hu

/-- a transition keeps the coupling when its new row is in order and, if it ends the task, the node
lets it go. -/
lemma Coupled.moves (h : Coupled unit w.db) (hm : Moves c f ds w w')
    (ht : w.db.tasks.get c = some t) (he : Evolves t (f t)) (hrow : RowOk unit (f t))
    (hfree : (f t).status.isTerminal = true → t.selectedNode ≠ [] →
      currentOf w'.db t.selectedNode ≠ some c) : Coupled unit w'.db := by
  refine h.rewrites hm.toRewrites ht he hrow fun a c' hc => ?_
  obtain ⟨u, hu, hsel, ha, hq, hterm⟩ := h.held a c' (hm.current a c' hc)
  by_cases hcc : c' = c
  · subst hcc
    rw [ht] at hu
    cases hu
    obtain ⟨hq', hsel'⟩ := he.left hq
    refine ⟨f t, hm.row ht, hsel'.trans hsel, ha, hq', ?_⟩
    cases hterm' : (f t).status.isTerminal with
    | false => rfl
    | true =>
      refine absurd hc ?_
      rw [← hsel]
      exact hfree hterm' (hsel ▸ ha)
  · exact ⟨u, (hm.other hcc).trans hu, hsel, ha, hq, hterm⟩

/-- a transition keeps a group settled when it ends its task, or when the group of the new row has
no representative. -/
lemma GroupSettled.rewrites (h : GroupSettled w.db X) (hm : Rewrites c f ds w w')
    (ht : w.db.tasks.get c = some t)
    (hg : (f t).taskID = X → (f t).status.isClosed = true ∨ ((f t).status ≠ .groupValidated ∧
      ∀ j u, j ≠ c → w.db.tasks.get j = some u → u.status = .groupValidated → u.taskID ≠ X)) :
    GroupSettled w'.db X := by
  intro j u hu hst hX j' u' hu' hX' hne
  rw [hm.tasks] at hu hu'
  by_cases hj : j = c
  · -- the new row is no representative
    rw [if_pos hj, ht] at hu
    cases hu
    rcases hg hX with hclosed | ⟨hno, -⟩
    · rw [hst] at hclosed
      cases hclosed
    · exact absurd hst hno
  · rw [if_neg hj] at hu
    by_cases hj' : j' = c
    · rw [if_pos hj', ht] at hu'
      cases hu'
      rcases hg hX' with hclosed | ⟨-, hno⟩
      · exact hclosed
      · exact absurd hX (hno j u hj hu hst)
    · rw [if_neg hj'] at hu'
      exact h j u hu hst hX j' u' hu' hX' hne

end

/-! ## copies -/

variable (unit) in
/-- `task` is what a handler has read of `row`, some time ago. -/
structure Copies (task row : InferenceTask) : Prop where
  id : task.id = row.id
  taskIDCommitment : task.taskIDCommitment = row.taskIDCommitment
  creator : task.creator = row.creator
  taskFee : task.taskFee = row.taskFee
  waiting : task.status = .queued → task.selectedNode = []
  left : task.status ≠ .queued → row.status ≠ .queued ∧ task.selectedNode = row.selectedNode
  member : task.taskID ≠ [] → task.taskIDCommitment ∈ unit task.taskID

lemma Copies.evolves {row' : InferenceTask} (h : Copies unit task row)
    (he : Evolves row row') : Copies unit task row' where
  id := h.id.trans he.id.symm
  taskIDCommitment := h.taskIDCommitment.trans he.taskIDCommitment.symm
  creator := h.creator.trans he.creator.symm
  taskFee := h.taskFee.trans he.taskFee.symm
  waiting := h.waiting
  left := fun hq => by
    obtain ⟨hr, hs⟩ := h.left hq
    obtain ⟨hr', hs'⟩ := he.left hr
    exact ⟨hr', hs.trans hs'.symm⟩
  member := h.member

lemma Copies.of_row (h : RowOk unit t) : Copies unit t t :=
  ⟨rfl, rfl, rfl, rfl, h.waiting, fun hq => ⟨hq, rfl⟩, h.member⟩

lemma Copies.refundDraft (h : Copies unit task row) :
    CrynuxRelay.refundDraft task = CrynuxRelay.refundDraft row := by
  rw [CrynuxRelay.refundDraft, h.taskIDCommitment, h.creator, h.taskFee]
  rfl

/-! ## ends without a result -/

variable (unit) in
/-- task `c` ends without a success, and nothing else happens to the tasks. -/
structure Closes (c : Text) (w w' : World) : Prop where
  coupled : Coupled unit w'.db
  groups : ∀ X, GroupSettled w.db X → GroupSettled w'.db X
  effect : ∃ ds, TaskEffect ds w w'
  others : ∀ j, j ≠ c → w'.db.tasks.get j = w.db.tasks.get j
  row : ∃ t', w'.db.tasks.get c = some t' ∧ t'.status.isClosed = true

lemma TaskStatus.terminal_of_closed {st : TaskStatus} (h : st.isClosed = true) :
    st.isTerminal = true := by
  cases st <;> first | rfl | cases h

lemma rowOk_of_terminal (hterm : t.status.isTerminal = true)
    (hmember : t.taskID ≠ [] → t.taskIDCommitment ∈ unit t.taskID) : RowOk unit t where
  waiting := fun hq => absurd hq (ne_queued_of_terminal hterm)
  unrevealed := fun h => by rw [hterm] at h; cases h
  member := hmember
  revealed := fun h => by rw [not_terminal_of_validated h] at hterm; cases hterm
  single := fun h => by rw [h] at hterm; cases hterm

section
variable {ds : List EventDraft}

lemma closes_of_moves (h : Coupled unit w.db) (hm : Moves c f ds w w')
    (ht : w.db.tasks.get c = some t) (he : Evolves t (f t)) (hclosed : (f t).status.isClosed = true)
    (hmember : (f t).taskID ≠ [] → c ∈ unit (f t).taskID)
    (hfree : t.selectedNode ≠ [] → currentOf w'.db t.selectedNode ≠ some c)
    (heff : TaskEffect ds w w') : Closes unit c w w' where
  coupled := by
    have hc : (f t).taskIDCommitment = c := he.taskIDCommitment.trans (key_of_get ht)
    have hrow : RowOk unit (f t) := by
      refine rowOk_of_terminal (terminal_of_closed hclosed) ?_
      rw [hc]
      exact hmember
    exact h.moves hm ht he hrow fun _ => hfree
  groups := fun X hX => hX.rewrites hm.toRewrites ht fun _ => .inl hclosed
  effect := ⟨ds, heff⟩
  others := fun _ => hm.other
  row := ⟨f t, hm.row ht, hclosed⟩

end

lemma Accounted.of_income {d : EventDraft} (hd : d.isIncomeOf c = true)
    (ht : db.tasks.get c = some t) (hi : IncomeSettled db t) : Accounted db d := by
  have hincome : ∃ c t, db.tasks.get c = some t ∧ d.isIncomeOf c = true ∧ IncomeSettled db t :=
    ⟨c, t, ht, hd, hi⟩
  unfold Accounted
  split
  · next hty =>
    rw [EventDraft.isIncomeOf, hty] at hd
    cases hd
  · next hty =>
    rw [EventDraft.isIncomeOf, hty] at hd
    cases hd
  · exact hincome
  · exact hincome
  · exact hincome
  · trivial

lemma TaskCurrent.status (h : TaskCurrent task db)
    (hrow : db.tasks.get task.taskIDCommitment = some row) : row.status = task.status := by
  obtain ⟨u, hu, hst⟩ := h
  rw [hrow] at hu
  cases hu
  exact hst

section
variable (h : Coupled unit w.db) (hcopy : Copies unit task row)
  (hrow : w.db.tasks.get task.taskIDCommitment = some row)
include h hcopy hrow

/-- **an abort** closes the task, with a refund or, after a creator timeout, with the incomes of the
node. -/
theorem abort_closes (hne : task.status ≠ .endAborted) (hok : Tx.Ok (setTaskStatusEndAborted env task) w u w') :
    Closes unit task.taskIDCommitment w w' := by
  rcases setTaskStatusEndAborted_ok hok with ⟨he, -⟩ | ⟨hterm, hcur, ds, hds, hm, hfree⟩
  · exact absurd he hne
  have hst := hcur.status hrow
  have hrterm : row.status.isTerminal = false := by rw [hst]; exact hterm
  have he : Evolves row (row.abortedAs task) :=
    evolves_of_running hrterm rfl rfl rfl rfl ⟨noConfusion, rfl⟩ fun _ => rfl
  have hfree' : row.selectedNode ≠ [] →
      currentOf w'.db row.selectedNode ≠ some task.taskIDCommitment := by
    intro hsel
    by_cases hq : task.status = .queued
    · exact absurd ((h.rows _ row hrow).waiting (hst.trans hq)) hsel
    · have hs := (hcopy.left hq).2
      rw [← hs] at hsel ⊢
      exact hfree hsel
  refine closes_of_moves h hm hrow he rfl hcopy.member hfree' ?_
  rcases hds with ⟨hreason, node, -, rfl⟩ | ⟨hreason, rfl⟩
  · have hnew := hm.row hrow
    have hset : IncomeSettled w'.db (row.abortedAs task) := .inr (.inr (.inr ⟨rfl, hreason⟩))
    refine hm.taskEffect hrow he ?_ ?_ ?_ ⟨?_, ?_⟩ ?_
    · exact fun d hd => ofTask_of_isIncomeOf (taskIncomeEvents_isIncomeOf hd)
    · intro d hd
      exact Accounted.of_income (taskIncomeEvents_isIncomeOf hd) hnew hset
    · intro hfees d hd
      refine ⟨taskIncomeEvents_credit hd, taskIncomeEvents_nonneg ?_ hd⟩
      rw [hcopy.taskFee]
      exact hfees _ row hrow
    · intro hr
      rcases taskRefundAllowed_iff.1 hr with hx | ⟨-, hx⟩
      · cases hx
      · exact absurd hreason hx
    · intro _
      have hns : ¬ IncomeSettled w.db row := by
        intro hs
        rw [hs.terminal] at hrterm
        cases hrterm
      refine .inr ⟨hns, ?_⟩
      have hall : ∀ d ∈ taskIncomeEvents env task.taskIDCommitment node.address task.taskFee
          node.network, d.isIncomeOf row.taskIDCommitment = true := by
        intro d hd
        rw [← hcopy.taskIDCommitment]
        exact taskIncomeEvents_isIncomeOf hd
      rw [incomeSum, filter_eq_self.2 hall, sum_taskIncomeEvents, hcopy.taskFee]
    · intro d hd j v hj hi
      exact absurd (isIncomeOf_unique hi (taskIncomeEvents_isIncomeOf hd)) hj
  · rw [hcopy.refundDraft] at hm ⊢
    exact hm.refundEffect hrow he (taskRefundAllowed_iff.2 (.inr ⟨rfl, hreason⟩))

theorem groupRefund_closes (hok : Tx.Ok (setTaskStatusEndGroupRefund env task) w u w') :
    Closes unit task.taskIDCommitment w w' := by
  obtain ⟨hst, hcur, hm, hnone⟩ := setTaskStatusEndGroupRefund_ok hok
  have hrst : row.status = .scoreReady := (hcur.status hrow).trans hst
  have hsel : task.selectedNode = row.selectedNode := (hcopy.left (by rw [hst]; decide)).2
  have he : Evolves row (row.groupRefunded task.taskID task.qosScore env.now) :=
    evolves_of_running (by rw [hrst]; rfl) rfl rfl rfl rfl ⟨noConfusion, rfl⟩ fun _ => rfl
  refine closes_of_moves h hm hrow he rfl hcopy.member ?_ ?_
  · intro _
    rw [← hsel, hnone]
    exact nofun
  · rw [hcopy.refundDraft] at hm ⊢
    exact hm.refundEffect hrow he (taskRefundAllowed_iff.2 (.inl rfl))

theorem invalidate_closes {b : Bool}
    (hok : Tx.Ok (setTaskStatusEndInvalidatedWithEvidence env task b) w u w') :
    Closes unit task.taskIDCommitment w w' := by
  obtain ⟨hheld, -, hm, hnone⟩ := setTaskStatusEndInvalidated_ok hok
  obtain ⟨t, ht, hsel, -, hq, hterm⟩ := h.held _ _ hheld
  rw [hrow] at ht
  cases ht
  have he : Evolves row (row.invalidatedAs task.taskID env.now) :=
    evolves_of_running hterm rfl rfl rfl rfl ⟨noConfusion, rfl⟩ fun _ => rfl
  refine closes_of_moves h hm hrow he rfl hcopy.member ?_ ?_
  · intro _
    rw [hsel, hnone]
    exact nofun
  · refine hm.quietEffect hrow he ?_ ?_
    · intro hr
      rcases taskRefundAllowed_iff.1 hr with hx | ⟨hx, -⟩
      · cases hx
      · cases hx
    · rintro ⟨hx, -⟩
      cases hx

end

/-! ## the lifecycle -/

variable (unit) in
structure Lifecycle (db : Db) : Prop extends Coupled unit db where
  groups : ∀ X, GroupSettled db X

variable (unit) in
/-- a step that keeps the lifecycle and has an effect that the books accept. -/
def Proceeds (w w' : World) : Prop := Lifecycle unit w'.db ∧ ∃ ds, TaskEffect ds w w'

lemma Closes.proceeds (h : Lifecycle unit w.db) (hc : Closes unit c w w') : Proceeds unit w w' :=
  ⟨⟨hc.coupled, fun X => hc.groups X (h.groups X)⟩, hc.effect⟩

lemma taskEffect_of_nodeSide (hs : NodeSide w w') : TaskEffect [] w w' where
  posts := (quiet_of_nodeSide hs).posts
  types := by simp
  credits := by simp
  evolution := Evolution.of_eq hs.1.tasks
  absent := fun c hc => by rw [hs.1.tasks]; exact hc
  accounted := by simp
  booked := fun c t t' ht ht' => by
    rw [hs.1.tasks, ht] at ht'
    cases ht'
    exact ⟨fun hr => .inl hr, fun hto => .inl ⟨hto, by simp⟩⟩
  withdrawRecords := hs.1.withdrawRecords
  vestingRecords := hs.1.vestingRecords

lemma Lifecycle.congr {db' : Db} (h : Lifecycle unit db) (htasks : db'.tasks = db.tasks)
    (hcur : ∀ a c, currentOf db' a = some c → currentOf db a = some c) : Lifecycle unit db' := by
  refine ⟨⟨⟨?_, ?_⟩, ?_, ?_⟩, ?_⟩
  · rw [htasks]
    exact h.ids
  · rw [htasks]
    exact h.ids_le
  · rw [htasks]
    exact h.rows
  · intro a c hc
    rw [htasks]
    exact h.held a c (hcur a c hc)
  · intro X
    have hX := h.groups X
    rw [GroupSettled] at hX ⊢
    rwa [htasks]

lemma NodeSide.proceeds (h : Lifecycle unit w.db) (hs : NodeSide w w') : Proceeds unit w w' :=
  ⟨h.congr hs.1.tasks hs.1.current, [], taskEffect_of_nodeSide hs⟩

/-- **a slash** ends the task of the node, or finds that it has ended. -/
theorem slash_proceeds {node : Node}
    (h : Lifecycle unit w.db) (hok : Tx.Ok (slashNode env node) w u w') : Proceeds unit w w' := by
  obtain ⟨hnone, ⟨hs, -⟩ | ⟨c, t, -, ht, hsel, hterm, hm⟩⟩ := slashNode_ok hok
  · exact NodeSide.proceeds h hs
  · have he : Evolves t t.slashed :=
      evolves_of_running hterm rfl rfl rfl rfl ⟨noConfusion, rfl⟩ fun _ => rfl
    refine Closes.proceeds h (closes_of_moves h.toCoupled hm ht he rfl ?_ ?_ ?_)
    · rw [← key_of_get ht]
      exact (h.rows c t ht).member
    · intro _
      rw [hsel, hnone]
      exact nofun
    · exact hm.refundEffect ht he (taskRefundAllowed_iff.2 (.inr ⟨rfl, TaskAbortReason.noConfusion⟩))

/-! ## running transitions -/

/-- a transition to a status that is neither closed nor a representative's, in a group without a
representative. -/
lemma Lifecycle.moves {ds : List EventDraft} (h : Lifecycle unit w.db) (hm : Moves c f ds w w')
    (ht : w.db.tasks.get c = some t) (he : Evolves t (f t)) (hrow : RowOk unit (f t))
    (hfree : (f t).status.isTerminal = true → t.selectedNode ≠ [] →
      currentOf w'.db t.selectedNode ≠ some c) (hst : (f t).status ≠ .groupValidated)
    (hno : ∀ j u, j ≠ c → w.db.tasks.get j = some u → u.status = .groupValidated →
      u.taskID ≠ (f t).taskID) : Lifecycle unit w'.db :=
  ⟨h.toCoupled.moves hm ht he hrow hfree, fun X => (h.groups X).rewrites hm.toRewrites ht
    fun hX => .inr ⟨hst, fun j u hj hu hgv => hX ▸ hno j u hj hu hgv⟩⟩

lemma rowOk_of_unrevealed (hq : t.status ≠ .queued) (hv : t.status.isValidated = false)
    (hid : t.taskID = []) : RowOk unit t where
  waiting := fun h => absurd h hq
  unrevealed := fun _ _ => hid
  member := fun h => absurd hid h
  revealed := fun h => by rw [hv] at h; cases h
  single := fun h => by rw [h] at hv; cases hv

lemma Lifecycle.representative_revealed (h : Lifecycle unit db)
    (ht : db.tasks.get c = some t) (hst : t.status = .groupValidated) :
    t.taskID ≠ [] := (h.rows c t ht).revealed (by rw [hst]; rfl)

lemma report_proceeds (h : Lifecycle unit w.db)
    (hrow : w.db.tasks.get c = some row) (hst : row.status = .started)
    (hm : Moves c f [] w w') (he : Evolves row (f row)) (hq : (f row).status ≠ .queued)
    (hterm : (f row).status.isTerminal = false) (hv : (f row).status.isValidated = false)
    (hid : (f row).taskID = row.taskID) : Proceeds unit w w' := by
  have hunrev : row.taskID = [] :=
    (h.rows c row hrow).unrevealed (by rw [hst]; rfl) (by rw [hst]; rfl)
  have hid' : (f row).taskID = [] := hid.trans hunrev
  have hrowok : RowOk unit (f row) := rowOk_of_unrevealed hq hv hid'
  refine ⟨h.moves hm hrow he hrowok ?_ ?_ ?_, [], hm.runningEffect hrow he hterm⟩
  · intro hx
    rw [hterm] at hx
    cases hx
  · intro hx
    rw [hx] at hv
    cases hv
  · intro j t hj ht hgv
    rw [hid']
    exact h.representative_revealed ht hgv

lemma Coupled.eq_of_single (h : Coupled unit db) (hunit : unit X = {c}) (hX : X ≠ [])
    {j : Text} (ht : db.tasks.get j = some t) (hid : t.taskID = X) : j = c := by
  have hm := (h.rows j t ht).member (by rw [hid]; exact hX)
  rwa [hid, hunit, key_of_get ht] at hm

lemma reported_proceeds (hok : Tx.Ok (setTaskStatusScoreReady env task) w u w' ∨
      Tx.Ok (setTaskStatusErrorReported env task) w u w') (h : Lifecycle unit w.db)
    (hrow : w.db.tasks.get task.taskIDCommitment = some row) : Proceeds unit w w' := by
  rcases hok with hok | hok
  all_goals
    obtain ⟨hst, hcur, deadline, -, hm⟩ := checkedUpdate_ok hok
    have hrst : row.status = .started := (hcur.status hrow).trans hst
    refine report_proceeds h hrow hrst hm ?_ noConfusion rfl rfl rfl
    exact evolves_of_running (by rw [hrst]; rfl) rfl rfl rfl rfl ⟨noConfusion, rfl⟩
      fun hx => by rw [hrst] at hx; cases hx

lemma validated_proceeds (hok : Tx.Ok (setTaskStatusValidated env task) w u w')
    (h : Lifecycle unit w.db) (hrow : w.db.tasks.get task.taskIDCommitment = some row)
    (hid : task.taskID ≠ []) (hunit : unit task.taskID = {task.taskIDCommitment}) :
    Proceeds unit w w' := by
  obtain ⟨hst, hcur, deadline, -, hm⟩ := checkedUpdate_ok hok
  have hrst : row.status = .scoreReady := (hcur.status hrow).trans hst
  have hkey : row.taskIDCommitment = task.taskIDCommitment := key_of_get hrow
  have he : Evolves row (row.validatedAs task.taskID env.now deadline) :=
    evolves_of_running (by rw [hrst]; rfl) rfl rfl rfl rfl ⟨noConfusion, rfl⟩
      fun hx => by rw [hrst] at hx; cases hx
  have hsingle : unit task.taskID = {row.taskIDCommitment} := by rw [hkey]; exact hunit
  have hrowok : RowOk unit (row.validatedAs task.taskID env.now deadline) := by
    refine ⟨nofun, nofun, fun _ => ?_, fun _ => hid, fun _ => hsingle⟩
    show row.taskIDCommitment ∈ unit task.taskID
    rw [hsingle]
    rfl
  refine ⟨h.moves hm hrow he hrowok nofun noConfusion ?_, [], hm.runningEffect hrow he rfl⟩
  exact fun j t hj ht hgv hX => hj (h.eq_of_single hunit hid ht hX)

theorem start_proceeds {address : Text} (h : Lifecycle unit w.db)
    (hrow : w.db.tasks.get task.taskIDCommitment = some row) (haddr : address ≠ [])
    (hok : Tx.Ok (setTaskStatusStarted env task address) w u w') : Proceeds unit w w' := by
  obtain ⟨hst, hcur, node, hashes, timeout, hnode, -, -, -, -, hfree, hw⟩ :=
    setTaskStatusStarted_ok hok
  have hrst : row.status = .queued := (hcur.status hrow).trans hst
  have hna : node.address = address := key_of_get hnode
  have hunrev : row.taskID = [] :=
    (h.rows _ row hrow).unrevealed (by rw [hrst]; rfl) (by rw [hrst]; rfl)
  have hm := rewrites_startDb hw
  have he : Evolves row (row.startedOn node.address env.now timeout hashes) := by
    refine ⟨rfl, rfl, rfl, rfl, fun hq => absurd hrst hq, ?_, ?_⟩
    all_goals
      rw [hrst]
      exact nofun
  have hrowok : RowOk unit (row.startedOn node.address env.now timeout hashes) :=
    rowOk_of_unrevealed noConfusion rfl hunrev
  refine ⟨⟨h.toCoupled.rewrites hm hrow he hrowok ?_, ?_⟩, [], hm.runningEffect hrow he rfl⟩
  · intro a c hc
    rw [hw, currentOf_startDb (hna.symm ▸ hnode)] at hc
    split at hc
    · next ha =>
      cases hc
      refine ⟨row.startedOn node.address env.now timeout hashes, ?_, ha.symm, ?_, noConfusion, rfl⟩
      · exact hm.row hrow
      · rwa [ha, hna]
    · obtain ⟨t, ht, hsel, ha, hq, hterm⟩ := h.held a c hc
      have hcne : c ≠ task.taskIDCommitment := by
        rintro rfl
        rw [hrow] at ht
        cases ht
        exact hq hrst
      exact ⟨t, (hm.other hcne).trans ht, hsel, ha, hq, hterm⟩
  · intro X
    refine (h.groups X).rewrites hm hrow fun hX => .inr ⟨noConfusion, ?_⟩
    intro j t hj ht hgv hX'
    have hnil : X = [] := hX.symm.trans hunrev
    exact h.representative_revealed ht hgv (hX'.trans hnil)

/-! ## results -/

lemma mem_taskGroup :
    t ∈ taskGroup db X ↔ db.tasks.get t.taskIDCommitment = some t ∧ t.taskID = X := by
  rw [taskGroup, mem_filter, mem_rows, decide_eq_true_eq]

lemma length_taskGroup_of_single (h : Coupled unit db) (hunit : unit X = {c})
    (hX : X ≠ []) : (taskGroup db X).length ≤ 1 := by
  have hsub : ((taskGroup db X).map (·.taskIDCommitment)).Nodup := by
    have hnd : (db.tasks.rows.map (·.taskIDCommitment)).Nodup := db.tasks.nodup_map_key_rows
    exact hnd.sublist (filter_sublist.map _)
  have hall : ∀ x ∈ (taskGroup db X).map (·.taskIDCommitment), x = c := by
    intro x hx
    obtain ⟨t, ht, rfl⟩ := mem_map.1 hx
    obtain ⟨hget, hid⟩ := mem_taskGroup.1 ht
    exact h.eq_of_single hunit hX hget hid
  rw [← length_map (f := (·.taskIDCommitment))]
  have hrep := eq_replicate_of_mem hall
  rw [hrep] at hsub
  exact nodup_replicate.1 hsub

lemma groupPayments_commitments (network : Text → Text) (score : Nat) (l : List InferenceTask)
    (rem : Int) : (groupPayments network score rem l).map (·.taskIDCommitment) =
      l.map (·.taskIDCommitment) := by
  induction l generalizing rem with
  | nil => rfl
  | cons t l ih =>
    rw [groupPayments, map_cons, map_cons, ih]

/-- who is paid by a settlement, and where it leads: the task alone, or the paid members of a group
of which the task is the representative. -/
lemma settlementPayments_cases (h : Lifecycle unit db) (node : Node)
    (hrow : db.tasks.get task.taskIDCommitment = some row) (hv : row.status.isValidated = true)
    (hid : task.taskID = row.taskID) (hfee : task.taskFee = row.taskFee) :
    let r := settlementPayments db task node (taskGroup db task.taskID)
    (r.2 = .endSuccess ∨ r.2 = .endGroupSuccess) ∧ (FeesNonneg db → ∀ p ∈ r.1, 0 ≤ p.payment) ∧
      ∀ p ∈ r.1, p.taskIDCommitment = task.taskIDCommitment ∨
        (r.2 = .endGroupSuccess ∧ ∃ t, db.tasks.get p.taskIDCommitment = some t ∧
          t.status = .endGroupRefund ∧ t.taskID = row.taskID) := by
  intro r
  by_cases hlen : 1 < (taskGroup db task.taskID).length
  · have hr : r = (groupPayments (nodeNetwork db)
        (totalScore ((taskGroup db task.taskID).filter isPaidInGroup)) 0
        ((taskGroup db task.taskID).filter isPaidInGroup), .endGroupSuccess) := if_pos hlen
    have hgv : row.status = .groupValidated := by
      cases hst : row.status with
      | groupValidated => rfl
      | validated =>
        have hunit := (h.rows _ row hrow).single hst
        have hne := (h.rows _ row hrow).revealed hv
        have := length_taskGroup_of_single h.toCoupled hunit hne
        rw [hid] at hlen
        omega
      | _ =>
        rw [hst] at hv
        cases hv
    rw [hr]
    refine ⟨.inr rfl, fun hf => ?_, fun p hp => ?_⟩
    · refine groupPayments_nonneg _ _ _ (fun t ht => ?_) 0 (le_refl 0)
      exact hf _ t (mem_taskGroup.1 (mem_filter.1 ht).1).1
    · have hp := mem_map_of_mem (f := (·.taskIDCommitment)) hp
      rw [groupPayments_commitments] at hp
      obtain ⟨t, ht, hpt⟩ := mem_map.1 hp
      obtain ⟨hmem, hpaid⟩ := mem_filter.1 ht
      obtain ⟨hget, htid⟩ := mem_taskGroup.1 hmem
      by_cases hc : t.taskIDCommitment = task.taskIDCommitment
      · exact .inl (hpt.symm.trans hc)
      · refine .inr ⟨rfl, t, hpt ▸ hget, ?_, htid.trans hid⟩
        rw [isPaidInGroup, decide_eq_true_eq] at hpaid
        rcases hpaid with hx | hx
        · have := h.groups row.taskID _ row hrow hgv rfl _ t hget (htid.trans hid) hc
          rw [hx] at this
          cases this
        · exact hx
  · have hr : r = ([⟨task.taskIDCommitment, task.selectedNode, task.taskFee, node.network⟩],
        .endSuccess) := if_neg hlen
    rw [hr]
    refine ⟨.inl rfl, fun hf p hp => ?_, fun p hp => ?_⟩
    · rw [mem_singleton.1 hp]
      show 0 ≤ task.taskFee
      rw [hfee]
      exact hf _ row hrow
    · rw [mem_singleton.1 hp]
      exact .inl rfl

/-- the group of a task whose result is uploaded has no other representative. -/
lemma Lifecycle.only_representative (h : Lifecycle unit db)
    (hrow : db.tasks.get c = some row) (hv : row.status.isValidated = true) :
    ∀ j u, j ≠ c → db.tasks.get j = some u → u.status = .groupValidated → u.taskID ≠ row.taskID := by
  intro j u hj hu hgv hid
  cases hst : row.status with
  | groupValidated =>
    have := h.groups row.taskID j u hu hgv hid c row hrow rfl fun e => hj e.symm
    rw [hst] at this
    cases this
  | validated =>
    have hunit := (h.rows c row hrow).single hst
    rw [key_of_get hrow] at hunit
    exact hj (h.eq_of_single hunit ((h.rows c row hrow).revealed hv) hu hid)
  | _ =>
    rw [hst] at hv
    cases hv

/-- **a success** pays the nodes of the task, or of the paid members of its group. -/
theorem success_proceeds
    (h : Lifecycle unit w.db) (hrow : w.db.tasks.get task.taskIDCommitment = some row)
    (hcopy : Copies unit task row) (hread : row.status.isTerminal = true ∨
      (row.status.isValidated = true ∧ task.taskID = row.taskID))
    (hok : Tx.Ok (setTaskStatusEndSuccess env task) w u w') : Proceeds unit w w' := by
  obtain ⟨node, hhold, hcur, hm, hnone⟩ := setTaskStatusEndSuccess_ok hok
  -- the node still holds the task, so the task has not ended since it was read
  obtain ⟨t, ht, hsel, -, hq, hterm⟩ := h.held _ _ hhold.currentOf
  rw [hrow] at ht
  cases ht
  obtain ⟨hv, hid⟩ := hread.resolve_left (by rw [hterm]; exact nofun)
  obtain ⟨hst, hpay, hpaid⟩ := settlementPayments_cases h node hrow hv hid hcopy.taskFee
  have honly := h.only_representative hrow hv
  generalize settlementPayments w.db task node (taskGroup w.db task.taskID) = r at hm hst hpay hpaid
  have hclosed : (row.succeededAs r.2 env.now).status.isTerminal = true := by
    show r.2.isTerminal = true
    rcases hst with hx | hx
    all_goals
      rw [hx]
      rfl
  have he : Evolves row (row.succeededAs r.2 env.now) :=
    evolves_of_running hterm rfl rfl rfl rfl
      ⟨ne_queued_of_terminal hclosed, rfl⟩ fun _ => hclosed
  have hnew := hm.row hrow
  refine ⟨h.moves hm hrow he ?_ ?_ ?_ ?_, _, hm.taskEffect hrow he ?_ ?_ ?_ ⟨?_, ?_⟩ ?_⟩
  · exact rowOk_of_terminal hclosed (h.rows _ row hrow).member
  · intro _ _
    rw [hsel, hnone]
    exact nofun
  · intro hx
    rw [hx] at hclosed
    cases hclosed
  · exact honly
  · intro d hd
    obtain ⟨p, -, hdp⟩ := mem_flatMap.1 hd
    exact ofTask_of_isIncomeOf (taskIncomeEvents_isIncomeOf hdp)
  · -- every event is backed by the row of the task or by a refunded member of its group
    intro d hd
    obtain ⟨p, hp, hdp⟩ := mem_flatMap.1 hd
    have hinc := taskIncomeEvents_isIncomeOf hdp
    rcases hpaid p hp with hx | ⟨hgs, t, ht, htst, htid⟩
    · rw [hx] at hinc
      refine Accounted.of_income hinc hnew ?_
      rcases hst with hx | hx
      · exact .inl hx
      · exact .inr (.inl hx)
    · have hne : p.taskIDCommitment ≠ task.taskIDCommitment := by
        intro e
        rw [e, hrow] at ht
        cases ht
        rw [htst] at hterm
        cases hterm
      refine Accounted.of_income hinc ((hm.other hne).trans ht) ?_
      exact .inr (.inr (.inl ⟨htst, _, _, hnew, htid.symm, hgs⟩))
  · intro hf d hd
    obtain ⟨p, hp, hdp⟩ := mem_flatMap.1 hd
    exact ⟨taskIncomeEvents_credit hdp, taskIncomeEvents_nonneg (hpay hf p hp) hdp⟩
  · intro hr
    rcases taskRefundAllowed_iff.1 hr with hx | ⟨hx, -⟩
    all_goals
      rcases hst with hy | hy
      all_goals
        rw [show (row.succeededAs r.2 env.now).status = r.2 from rfl, hy] at hx
        cases hx
  · rintro ⟨hx, -⟩
    rcases hst with hy | hy
    all_goals
      rw [show (row.succeededAs r.2 env.now).status = r.2 from rfl, hy] at hx
      cases hx
  · intro d hd j v hj hi hv' hto
    obtain ⟨p, hp, hdp⟩ := mem_flatMap.1 hd
    have hjp : j = p.taskIDCommitment := isIncomeOf_unique hi (taskIncomeEvents_isIncomeOf hdp)
    rcases hpaid p hp with hx | ⟨-, t, ht, htst, -⟩
    · exact hj (hjp.trans hx)
    · rw [← hjp, hv'] at ht
      cases ht
      rw [hto.1] at htst
      cases htst

end CrynuxRelay
