import CrynuxRelay.Tasks.Coupling

/-!
# The register of tasks

What the ids of tasks, their nodes and the refunds in the log have to do with each other, whatever task
ids are revealed.

* `Registered` -- ids are unique, a selected node has a row, a running task has a start time, and a refund
  belongs to a task that has ended;
* `Registered.transition` -- the transitions of one task;
* `run_registered` -- **it holds in every reachable state.**
-/

namespace CrynuxRelay

open List Option

variable {t : InferenceTask} {s : RelayState} {op : RelayOp}
  {c : Text} {f : InferenceTask → InferenceTask} {ds : List EventDraft}

/-! ## the register -/

structure Registered (db : Db) : Prop extends TaskIds db where
  selected : ∀ c t, db.tasks.get c = some t → t.selectedNode ≠ [] →
    ∃ n, db.nodes.get t.selectedNode = some n
  begun : ∀ c t, db.tasks.get c = some t → t.status.isOccupying = true → t.startTime.isSome = true
  refunds : ∀ c, Recorded db (refundReason c) →
    ∃ t, db.tasks.get c = some t ∧ t.status.isTerminal = true

lemma Registered.refund_open {db : Db} (h : Registered db) (ht : db.tasks.get c = some t)
    (hend : t.status.isTerminal = false) : ¬ Recorded db (refundReason c) := by
  intro hr
  obtain ⟨t', ht', hend'⟩ := h.refunds c hr
  rw [ht] at ht'
  cases ht'
  rw [hend] at hend'
  cases hend'

section
variable {w w' : World} {starting : Prop} {free : Text → Prop}

lemma Registered.side (h : Registered w.db) (htasks : w'.db.tasks = w.db.tasks)
    (hnodes : ∀ a n, w.db.nodes.get a = some n → ∃ n', w'.db.nodes.get a = some n')
    (hlog : ∀ c, Recorded w'.db (refundReason c) → Recorded w.db (refundReason c)) :
    Registered w'.db := by
  refine ⟨⟨?_, ?_⟩, fun c t ht hsel => ?_, ?_, fun c hr => ?_⟩
  · rw [htasks]
    exact h.ids
  · rw [htasks]
    exact h.ids_le
  · rw [htasks] at ht
    obtain ⟨n, hn⟩ := h.selected c t ht hsel
    exact hnodes _ n hn
  · rw [htasks]
    exact h.begun
  · rw [htasks]
    exact h.refunds c (hlog c hr)

/-- a transition of one task: its id stays, it does not come back from its end, and a refund is its own and
posted at its end. -/
lemma Registered.moves (h : Registered w.db) (hr : MoveFrame free starting w w')
    (hm : Rewrites c f ds w w') (ht : w.db.tasks.get c = some t) (hid : (f t).id = t.id)
    (hsel : (f t).selectedNode ≠ [] → (∃ n, w.db.nodes.get (f t).selectedNode = some n) ∨
      (f t).selectedNode = t.selectedNode)
    (hend : t.status.isTerminal = true → (f t).status.isTerminal = true)
    (hbegun : (f t).status.isOccupying = true → (f t).startTime.isSome = true)
    (hds : ∀ d ∈ ds, ∀ j, d.reason = refundReason j → j = c ∧ (f t).status.isTerminal = true) :
    Registered w'.db := by
  refine ⟨h.toTaskIds.rewrites hm ht hid, fun j u hu hne => ?_, fun j u hu hocc => ?_, fun j hrec => ?_⟩
  · have hn : ∃ n, w.db.nodes.get u.selectedNode = some n := by
      rcases hm.row_cases ht hu with ⟨rfl, rfl⟩ | ⟨-, hu⟩
      · rcases hsel hne with hn | hsame
        · exact hn
        · rw [hsame] at hne ⊢
          exact h.selected j t ht hne
      · exact h.selected j u hu hne
    obtain ⟨n, hn⟩ := hn
    exact hr.nodes.forth _ n hn
  · rcases hm.row_cases ht hu with ⟨rfl, rfl⟩ | ⟨-, hu⟩
    · exact hbegun hocc
    · exact h.begun j u hu hocc
  · rcases (hm.posts.appends.recorded_iff _).1 hrec with hrec | ⟨d, hd, hre⟩
    · obtain ⟨u, hu, hterm⟩ := h.refunds j hrec
      by_cases hj : j = c
      · subst hj
        rw [ht] at hu
        cases hu
        exact ⟨f t, hm.row ht, hend hterm⟩
      · exact ⟨u, (hm.other hj).trans hu, hterm⟩
    · obtain ⟨rfl, hterm⟩ := hds d hd j hre
      exact ⟨f t, hm.row ht, hterm⟩

end

/-! ## transitions -/

section
variable {env : Env} {task : InferenceTask} {w w' : World} {u : Unit}

lemma registered_started {address : Text} (h : Registered w.db)
    (hok : Tx.Ok (setTaskStatusStarted env task address) w u w') : Registered w'.db := by
  have hr : MoveFrame (fun _ => True) True w w' := (moves_setTaskStatusStarted env task address).ok hok
  obtain ⟨hst, ⟨row, hrow, hrst⟩, node, hashes, timeout, hnode, -, -, -, -, -, hw⟩ :=
    setTaskStatusStarted_ok hok
  have hm := rewrites_startDb hw
  refine h.moves hr hm hrow rfl (fun _ => .inl ⟨node, ?_⟩) (fun hend => ?_) (fun _ => rfl) nofun
  · show w.db.nodes.get node.address = some node
    have hna : node.address = address := Table.key_of_get hnode
    rwa [hna]
  · rw [hrst, hst] at hend
    cases hend

lemma Registered.transition (h : Registered w.db) (ht : Transition env task w w') :
    Registered w'.db := by
  cases ht with
  | nothing he => exact he ▸ h
  | started address hok => exact registered_started h hok
  | ran st f hfrom hcur hfr hm hf =>
    obtain ⟨t, ht, htst⟩ := hcur
    have hocc : t.status.isOccupying = true := by
      rw [htst]
      rcases hfrom with hfrom | hfrom
      all_goals
        rw [hfrom]
        rfl
    refine h.moves hfr hm.toRewrites ht (hf.same t).id (fun _ => .inr (hf.same t).selectedNode)
      (fun hend => ?_) (fun _ => ?_) nofun
    · rw [TaskStatus.not_terminal_of_occupying hocc] at hend
      cases hend
    · rw [(hf.same t).startTime]
      exact h.begun _ t ht hocc
  | ended f ds hopen hcur hfr hm hf hds hfree =>
    obtain ⟨t, ht, -⟩ := hcur
    refine h.moves hfr hm.toRewrites ht (hf.same t).id (fun _ => .inr (hf.same t).selectedNode)
      (fun _ => hf.status t) (fun hocc => ?_) fun d hd j hj => ⟨hds d hd j hj, hf.status t⟩
    have hterm := hf.status t
    rw [TaskStatus.not_terminal_of_occupying hocc] at hterm
    cases hterm
  | rescored row hrow hok =>
    have hr : MoveFrame (fun _ => True) False w w' := (moves_persistAbortedTaskQos env task).ok hok
    exact h.moves hr (persistAborted_ok hok).toRewrites hrow rfl (fun _ => .inr rfl) id
      (h.begun _ row hrow) nofun

lemma registered_slash {node : Node} (h : Registered w.db)
    (hok : Tx.Ok (slashNode env node) w u w') : Registered w'.db := by
  rcases transition_slash hok with ⟨hs, -⟩ | ⟨t, -, ht⟩
  · have hr : MoveFrame (fun _ => True) False w w' := (moves_slashNode env node trivial).ok hok
    refine h.side hs.1.tasks hr.nodes.forth fun c hc => ?_
    rw [recorded_iff_log, logOf, hs.1.events] at hc
    exact recorded_iff_log.2 hc
  · exact h.transition (ht env)

lemma registered_create {t : NewTask} (h : Registered w.db)
    (hok : Tx.Ok (createTask env t.task) w u w') : Registered w'.db := by
  obtain ⟨-, hnew, hr, rfl⟩ := createTask_ok hok
  have hposts : Posts [paymentDraft t.task] w (afterCreate env t.task w) := posts_afterCreate hr
  refine ⟨h.toTaskIds.afterCreate hnew, fun c v hv hsel => ?_, fun c v hv hocc => ?_, fun c hc => ?_⟩
  · rcases afterCreate_cases hnew hv with ⟨-, rfl⟩ | hv
    · exact absurd t.unselected hsel
    · exact h.selected c v hv hsel
  · rcases afterCreate_cases hnew hv with ⟨-, rfl⟩ | hv
    · have hq : (createdTask env w.db t.task).status = .queued := t.queued
      rw [hq] at hocc
      cases hocc
    · exact h.begun c v hv hocc
  · rcases (hposts.appends.recorded_iff _).1 hc with hc | ⟨d, hd, hre⟩
    · obtain ⟨v, hv, hterm⟩ := h.refunds c hc
      exact ⟨v, afterCreate_of_get hnew hv, hterm⟩
    · rw [mem_singleton.1 hd] at hre
      exact absurd hre (ne_refundReason .taskPayment nofun _ c)

end

/-! ## runs -/

theorem exec_registered (h : Registered s.world.db)
    (hreq : ∀ req, op = .request req → req.isRequest = true) : Registered (op.exec s).world.db := by
  generalize (op.exec s).world = w', opStep_exec op s = hstep
  cases hstep with
  | aside op hf =>
    refine h.side hf.tasks (fun a n hn => ⟨n, by rw [hf.nodes]; exact hn⟩) fun c hc => ?_
    obtain ⟨ds, hlog, hds⟩ := hf.log
    rw [recorded_iff_log, hlog] at hc
    obtain ⟨d, hd, hre⟩ := hc
    rcases mem_append.1 hd with hd | hd
    · exact recorded_iff_log.2 ⟨d, hd, hre⟩
    · exact absurd hre ((hds d hd).2 c)
  | created env t hok => exact registered_create h hok
  | called env i call flight hmem ht => exact h.transition ht
  | group env i j k taskID vrfProof publicKey tasks hok =>
    exact validateTaskGroup_induct (c := fun _ _ => True) h (fun _ _ _ _ => trivial)
      (fun h _ ht _ => ⟨h.transition ht, fun _ _ => trivial⟩) hok
  | slashed env node hok => exact registered_slash h hok
  | request req he =>
    have hside : NodeSide s.world (req.exec s.world) := nodeSide_nodeOp (hreq req rfl) s.world
    rw [he]
    refine h.side hside.1.tasks (fun a n hn => request_forth req s.world hn) fun c hc => ?_
    rw [recorded_iff_log, logOf, hside.1.events] at hc
    exact recorded_iff_log.2 hc

lemma RelayOp.Atomic.isRequest (h : op.Atomic s) (req : NodeOp)
    (e : op = .request req) : req.isRequest = true := by
  subst e
  cases req with
  | join env input => rfl
  | _ => exact h

/-- **the register is in order in every reachable state**, from one without tasks and refunds. -/
theorem run_registered (ops : List RelayOp) (s : RelayState) (hs : Unoccupied s)
    (hlog : ∀ c, ¬ Recorded s.world.db (refundReason c))
    (hops : Along RelayOp.exec RelayOp.Atomic ops s) :
    Registered (run RelayOp.exec ops s).world.db := by
  have hinv : Registered s.world.db := by
    refine ⟨⟨fun c c' t t' ht => ?_, fun c t ht => ?_⟩, fun c t ht => ?_, fun c t ht => ?_,
      fun c hc => absurd hc (hlog c)⟩
    all_goals
      rw [hs.tasks] at ht
      cases ht
  exact run_invariant (fun (s : RelayState) (op : RelayOp) (h : Registered s.world.db) hatomic =>
    exec_registered h (RelayOp.Atomic.isRequest hatomic)) ops s hops hinv

end CrynuxRelay
