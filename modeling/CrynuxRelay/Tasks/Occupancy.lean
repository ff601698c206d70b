import CrynuxRelay.Tasks.Transitions

/-!
# Nodes and their current tasks

A node is occupied by a task exactly as long as the task runs on it.

* `Occupancy` -- the invariant: the statuses of nodes, their current tasks and the selected nodes of
  running tasks agree;
* `CopyFits` -- what a handler's copy of a task has in common with the row;
* `Occupancy.ran`, `Occupancy.ended` -- the two kinds of transitions.
-/

namespace CrynuxRelay

open Option Table TaskStatus

variable {st : TaskStatus} {starting : Prop}
  {f : InferenceTask → InferenceTask} {n : Node} {c : Text} {ds : List EventDraft} {db : Db}

/-! ## requests -/

lemma workersKept_of_eq {w w' : World} {free : Text → Prop} (h : w'.db.nodes = w.db.nodes) :
    WorkersKept free w w' :=
  fun a n _ hn hw => ⟨n, by rw [h]; exact hn, hw, rfl⟩

variable {free : Text → Prop}

/-- **a request of a node** leaves every occupied node with its task. -/
theorem workersKept_request {op : NodeOp} (h : op.isRequest = true) :
    Tx.Keeps (WorkersKept free) op.tx := by
  by_cases hrep : op.isReport = true
  · cases op with
    | join env input =>
      refine Tx.keeps_iff.2 ⟨fun w u w' hok => ?_, fun w e w' hfail => ?_⟩
      · -- the row that a join takes over has quit
        obtain ⟨joined, haddr, hrep, hnodes, -⟩ := nodeJoin_ok hok
        intro a n _ hn hw
        refine ⟨n, ?_, hw, rfl⟩
        rw [hnodes, get_saveRow, haddr, if_neg]
        · exact hn
        · rintro rfl
          rw [hrep.2.2.2.2 n hn] at hw
          exact absurd hw (by decide)
      · exact workersKept_of_eq (by rw [NodeOp.atomic (.join env input) w e w' hfail])
    | syncCapabilities env address c =>
      refine Tx.keeps_iff.2 ⟨fun w u w' hok => ?_, fun w e w' hfail => ?_⟩
      · obtain ⟨row, v, hrow, hquit, hnodes, -⟩ := syncNodeCapabilities_ok hok
        intro a n _ hn hw
        rw [hnodes, get_modify]
        split
        · next ha =>
          exact ⟨n.withCapabilities c.gpuName c.gpuVram v, by rw [← ha, hn]; rfl, hw, rfl⟩
        · exact ⟨n, hn, hw, rfl⟩
      · exact workersKept_of_eq
          (by rw [NodeOp.atomic (.syncCapabilities env address c) w e w' hfail])
    | _ => cases hrep
  · intro w
    have hm : MoveFrame free True w _ := moves_nodeOp (eq_false_of_ne_true hrep) (.inl h) w
    exact hm.workersKept

/-! ## the invariant -/

def TaskStatus.isOccupying : TaskStatus → Bool
  | .started | .errorReported | .scoreReady | .validated | .groupValidated => true
  | _ => false

/-- a task that occupies a node or has ended is past the first two statuses. -/
lemma TaskStatus.gone (h : st.isOccupying = true ∨ st.isTerminal = true) :
    st ≠ .queued ∧ st ≠ .parametersUploaded := by
  refine ⟨?_, ?_⟩
  all_goals
    rintro rfl
    rcases h with h | h
    · cases h
    · cases h

lemma TaskStatus.not_terminal_of_occupying (h : st.isOccupying = true) : st.isTerminal = false := by
  cases st with
  | _ => first | rfl | cases h

/-- a node has a current task exactly in the statuses of an occupied node. -/
def Node.RowFits (n : Node) : Prop := n.status.isWorking ↔ n.currentTaskIDCommitment.isSome = true

structure Occupancy (db : Db) : Prop where
  nodes : ∀ a n, db.nodes.get a = some n → n.RowFits
  held : ∀ a c, currentOf db a = some c →
    ∃ t, db.tasks.get c = some t ∧ t.selectedNode = a ∧ t.status.isOccupying = true
  holds : ∀ c t, db.tasks.get c = some t → t.status.isOccupying = true →
    currentOf db t.selectedNode = some c
  waiting : ∀ c t, db.tasks.get c = some t → t.status = .queued → t.selectedNode = []
  parameters : ∀ c t, db.tasks.get c = some t → t.status ≠ .parametersUploaded
  named : db.nodes.get [] = none

lemma rowFits_idle (st : NodeStatus) (hst : n.status = st) (hw : ¬ st.isWorking)
    (hc : n.currentTaskIDCommitment = none) : n.RowFits := by
  rw [Node.RowFits, hst, hc]
  exact ⟨fun h => absurd h hw, fun h => nomatch h⟩

lemma Node.RowFits.idle {st : NodeStatus} (h : n.RowFits) (hst : n.status = st)
    (hw : ¬ st.isWorking) : n.currentTaskIDCommitment = none := by
  cases hc : n.currentTaskIDCommitment with
  | none => rfl
  | some c =>
    have := h.2 (by rw [hc]; rfl)
    rw [hst] at this
    exact absurd this hw

lemma rowFits_move {n' : Node} (h : ServiceMove n n') (hn : n.RowFits) : n'.RowFits := by
  cases h with
  | start c x h => exact ⟨fun _ => rfl, fun _ => .inl rfl⟩
  | finish h => exact rowFits_idle .available rfl (by decide) rfl
  | rest h => exact rowFits_idle .paused rfl (by decide) rfl
  | pause h => exact rowFits_idle .paused rfl (by decide) (hn.idle h (by decide))
  | pauseLater h => exact ⟨fun _ => hn.1 (.inl h), fun _ => .inr (.inl rfl)⟩
  | resume h => exact rowFits_idle .available rfl (by decide) (hn.idle h (by decide))
  | quitLater h => exact ⟨fun _ => hn.1 (.inl h), fun _ => .inr (.inr rfl)⟩
  | quit => exact rowFits_idle .quit rfl (by decide) rfl
  | _ => exact hn

section
variable {w w' : World}

lemma Occupancy.rowFits (h : Occupancy w.db) (hr : RowFrame starting w w') :
    ∀ a n, w'.db.nodes.get a = some n → n.RowFits :=
  fun a => hr.nodes.keep (fun _ _ hmove => rowFits_move hmove) (h.nodes a)

lemma Occupancy.unnamed (h : Occupancy w.db) (hr : RowFrame starting w w') :
    w'.db.nodes.get [] = none := by
  cases hn : w'.db.nodes.get [] with
  | none => rfl
  | some n =>
    obtain ⟨m, hm, -⟩ := hr.nodes.back [] n hn
    rw [h.named] at hm
    cases hm

lemma WorkersKept.currentOf (h : WorkersKept free w w') (ho : Occupancy w.db) {a : Text}
    (hfree : ¬ free a) (hc : currentOf w.db a = some c) : currentOf w'.db a = some c := by
  obtain ⟨n, hn, hcur⟩ := bind_eq_some_iff.1 hc
  obtain ⟨n', hn', -, hcur'⟩ := h a n hfree hn ((ho.nodes a n hn).2 (by rw [hcur]; rfl))
  rw [CrynuxRelay.currentOf, hn']
  exact hcur'.trans hcur

/-- **an operation that changes no task** and frees only nodes without one. -/
theorem Occupancy.side (h : Occupancy w.db) (hnodes : ∀ a n, w'.db.nodes.get a = some n → n.RowFits)
    (htasks : ∀ c, w'.db.tasks.get c = w.db.tasks.get c) (hcur : ∀ a c, currentOf w'.db a = some c →
    currentOf w.db a = some c) (hnamed : w'.db.nodes.get [] = none) (hkept : WorkersKept free w w')
    (hfree : ∀ a, free a → currentOf w.db a = none) : Occupancy w'.db := by
  refine ⟨hnodes, fun a c hc => ?_, fun c t ht hocc => ?_, fun c t ht => ?_, fun c t ht => ?_, hnamed⟩
  · rw [htasks]
    exact h.held a c (hcur a c hc)
  · rw [htasks] at ht
    have hc := h.holds c t ht hocc
    refine hkept.currentOf h (fun hf => ?_) hc
    rw [hfree _ hf] at hc
    cases hc
  · rw [htasks] at ht
    exact h.waiting c t ht
  · rw [htasks] at ht
    exact h.parameters c t ht

/-- **a transition of one task** that does not give it a node, and that frees its node when it ends. -/
theorem Occupancy.moves {t : InferenceTask} (h : Occupancy w.db) (hfr : MoveFrame free False w w')
    (hm : Moves c f ds w w') (ht : w.db.tasks.get c = some t)
    (hsel : (f t).selectedNode = t.selectedNode)
    (hst : (f t).status = t.status ∨ (f t).status ≠ .queued ∧ (f t).status ≠ .parametersUploaded)
    (hocc : (f t).status.isOccupying = true → t.status.isOccupying = true)
    (hfree : ∀ a j, free a → currentOf w.db a = some j → a = t.selectedNode ∧
      t.status.isOccupying = true ∧ (f t).status.isOccupying = false)
    (hend : t.status.isOccupying = true → (f t).status.isOccupying = false →
      currentOf w'.db t.selectedNode ≠ some c) : Occupancy w'.db := by
  have hr := hfr.rowFrame
  have hkept := hfr.workersKept
  refine ⟨h.rowFits hr, fun a j hj => ?_, fun j u hu hju => ?_, fun j u hu hq => ?_,
    fun j u hu => ?_, h.unnamed hr⟩
  · obtain ⟨u, hu, hua, huo⟩ := h.held a j (hm.current a j hj)
    by_cases hjc : j = c
    · subst hjc
      rw [ht] at hu
      cases hu
      refine ⟨f t, hm.row ht, hsel.trans hua, ?_⟩
      by_contra hno
      refine hend huo (by simpa using hno) ?_
      rw [hua]
      exact hj
    · exact ⟨u, (hm.other hjc).trans hu, hua, huo⟩
  · rcases hm.row_cases ht hu with ⟨rfl, rfl⟩ | ⟨hjc, hu⟩
    · rw [hsel]
      have hc := h.holds j t ht (hocc hju)
      refine hkept.currentOf h (fun hf => ?_) hc
      rw [(hfree _ j hf hc).2.2] at hju
      cases hju
    · have hc := h.holds j u hu hju
      refine hkept.currentOf h (fun hf => ?_) hc
      -- a freed node held the task that ends
      obtain ⟨ha, hto, -⟩ := hfree _ j hf hc
      rw [ha, h.holds c t ht hto] at hc
      exact hjc (some.inj hc).symm
  · rcases hm.row_cases ht hu with ⟨rfl, rfl⟩ | ⟨-, hu⟩
    · rw [hsel]
      rcases hst with hst | hst
      · exact h.waiting j t ht (hst.symm.trans hq)
      · exact absurd hq hst.1
    · exact h.waiting j u hu hq
  · rcases hm.row_cases ht hu with ⟨rfl, rfl⟩ | ⟨-, hu⟩
    · rcases hst with hst | hst
      · rw [hst]
        exact h.parameters j t ht
      · exact hst.2
    · exact h.parameters j u hu

end

/-! ## copies -/

/-- what a handler's copy has in common with the row: a task has no node in the queue, and keeps its node
once it has left the queue. -/
structure CopyFits (db : Db) (task : InferenceTask) : Prop where
  waiting : task.status = .queued → task.selectedNode = []
  left : ∃ row, db.tasks.get task.taskIDCommitment = some row ∧
    (task.status ≠ .queued → row.status ≠ .queued ∧ task.selectedNode = row.selectedNode)

section
variable {w w' : World} {task : InferenceTask}

lemma CopyFits.frame (h : CopyFits w.db task) (hr : RowFrame starting w w') :
    CopyFits w'.db task := by
  obtain ⟨row, hrow, hleft⟩ := h.left
  obtain ⟨row', hrow', hkept⟩ := hr.kept _ row hrow
  refine ⟨h.waiting, row', hrow', fun hq => ?_⟩
  obtain ⟨hq', hsel⟩ := hleft hq
  obtain ⟨hq'', hsel'⟩ := hkept.left hq'
  exact ⟨hq'', hsel.trans hsel'.symm⟩

lemma CopyFits.write {task' : InferenceTask} (h : CopyFits db task)
    (hc : task'.taskIDCommitment = task.taskIDCommitment) (hst : task'.status = task.status)
    (hsel : task'.selectedNode = task.selectedNode) : CopyFits db task' := by
  obtain ⟨hwaiting, row, hrow, hleft⟩ := h
  rw [← hst, ← hsel] at hwaiting
  rw [← hst, ← hsel] at hleft
  rw [← hc] at hrow
  exact ⟨hwaiting, row, hrow, hleft⟩

lemma Occupancy.copyFits (h : Occupancy db) (ht : db.tasks.get c = some task) : CopyFits db task := by
  refine ⟨h.waiting c task ht, task, ?_, fun hq => ⟨hq, rfl⟩⟩
  rw [key_of_get ht]
  exact ht

end

/-! ## transitions -/

section
variable {env : Env} {task : InferenceTask} {w w' : World}

lemma Occupancy.ran (h : Occupancy w.db) (hfrom : task.status = .started ∨ task.status = .scoreReady)
    (hcur : TaskCurrent task w.db) (hfr : MoveFrame (fun _ => False) False w w')
    (hm : Moves task.taskIDCommitment f ds w w') (hf : GoesOn env task st f) : Occupancy w'.db := by
  obtain ⟨t, ht, htst⟩ := hcur
  have hst : (f t).status.isOccupying = true := by
    rw [hf.status]
    rcases hf.time t with ⟨rfl | rfl, -⟩ | ⟨rfl | rfl, -⟩
    all_goals rfl
  refine h.moves hfr hm ht (hf.same t).selectedNode (.inr (gone (.inl hst)))
    (fun _ => ?_) (fun _ _ hf => hf.elim) fun _ hno => ?_
  · rw [htst]
    rcases hfrom with hfrom | hfrom
    all_goals
      rw [hfrom]
      rfl
  · rw [hst] at hno
    cases hno

/-- **an end** takes a task out of the queue, or frees its node. -/
theorem Occupancy.ended (h : Occupancy w.db) (hc : CopyFits w.db task)
    (hopen : task.status.isTerminal = false ∨
      currentOf w.db task.selectedNode = some task.taskIDCommitment) (hcur : TaskCurrent task w.db)
    (hfr : MoveFrame (task.selectedNode = ·) False w w') (hm : Moves task.taskIDCommitment f ds w w')
    (hf : Ends f) (hfree : task.selectedNode ≠ [] →
      currentOf w'.db task.selectedNode ≠ some task.taskIDCommitment) : Occupancy w'.db := by
  obtain ⟨row, hrow, hleft⟩ := hc.left
  have hst : row.status = task.status := hcur.status hrow
  have hterm : task.status.isTerminal = false := by
    rcases hopen with hterm | hheld
    · exact hterm
    · obtain ⟨t, ht, -, hocc⟩ := h.held _ _ hheld
      rw [hrow] at ht
      cases ht
      exact hst ▸ not_terminal_of_occupying hocc
  have hno : (f row).status.isOccupying = false := by
    by_contra hx
    have hend := hf.status row
    rw [not_terminal_of_occupying (eq_true_of_ne_false hx)] at hend
    cases hend
  refine h.moves hfr hm hrow (hf.same row).selectedNode (.inr (gone (.inr (hf.status row))))
    (fun hocc => ?_) (fun a j ha hj => ?_) fun hocc _ => ?_
  · rw [hno] at hocc
    cases hocc
  · subst ha
    have hq : task.status ≠ .queued := fun e => by
      rw [hc.waiting e, currentOf, h.named] at hj
      cases hj
    refine ⟨(hleft hq).2, ?_, hno⟩
    have hparams := h.parameters _ row hrow
    rw [hst] at hparams ⊢
    cases hx : task.status with
    | queued => exact absurd hx hq
    | parametersUploaded => exact absurd hx hparams
    | _ =>
      rw [hx] at hterm
      first | rfl | cases hterm
  · have hq : task.status ≠ .queued := fun e => by rw [hst, e] at hocc; cases hocc
    have hheld := h.holds _ row hrow hocc
    rw [← (hleft hq).2] at hheld ⊢
    refine hfree fun hsel => ?_
    rw [hsel, currentOf, h.named] at hheld
    cases hheld

lemma Occupancy.rescored {row : InferenceTask} {u : Unit} (h : Occupancy w.db)
    (hrow : w.db.tasks.get task.taskIDCommitment = some row)
    (hok : Tx.Ok (persistValidationGroupAbortedTaskQos env task) w u w') : Occupancy w'.db := by
  have hfr : MoveFrame (fun _ => False) False w w' := (moves_persistAbortedTaskQos env task).ok hok
  refine h.moves hfr (persistAborted_ok hok) hrow rfl (.inl rfl) id (fun _ _ hf => hf.elim) ?_
  intro hocc hno
  have hsame : (row.rescored task).status = row.status := rfl
  rw [hsame, hocc] at hno
  cases hno

end

end CrynuxRelay
