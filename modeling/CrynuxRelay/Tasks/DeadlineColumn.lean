import CrynuxRelay.Tasks.Coupling
import CrynuxRelay.Tasks.Timeouts

/-!
# The deadline column

Every transition writes the deadline of the status it leads to, computed from the copy of its handler.
The column is what `GetTaskDeadline` gives for the row, since a copy that has left the queue has the start
and the timeout of its row.

* `DeadlineExact` -- the column of one row; `TimesKept` -- what no transition changes once a task has
  left the queue;
* `DueStep` -- rows keep their times, and the column stays exact while the copy `task` has the times of
  its row; `Transition.dueStep` -- the transitions;
* `DeadlineState`, `step_deadlineState` -- the invariant with the copies of the handlers;
* `deadline_column` -- the column is exact in every reachable state, and the scan returns the overdue
  tasks.
-/

namespace CrynuxRelay

open List Option Table Tx TimeoutRun

variable {st : TaskStatus} {t task : InferenceTask} {db db' db'' : Db} {cfg : Env} {c : Text}
  {s : RelayState}

/-! ## the column of a row -/

structure SameTimeouts (cfg env : Env) : Prop where
  queue : env.defaultQueueTimeoutSeconds = cfg.defaultQueueTimeoutSeconds
  validation : env.appValidationTimeoutSeconds = cfg.appValidationTimeoutSeconds
  upload : env.resultUploadTimeoutSeconds = cfg.resultUploadTimeoutSeconds

structure DeadlineExact (cfg : Env) (t : InferenceTask) : Prop where
  running : t.status.isTerminal = false → t.deadlineAt = (getTaskDeadline cfg t).map Prod.fst
  ended : t.status.isTerminal = true → t.deadlineAt = none

section
variable {env : Env} {t' : InferenceTask}

lemma getQueueDeadline_of_sameTimeouts (h : SameTimeouts cfg env) (t : InferenceTask) :
    getQueueDeadline env t = getQueueDeadline cfg t := by
  rw [getQueueDeadline, getQueueDeadline, h.queue]

lemma getTaskDeadline_of_sameTimeouts (h : SameTimeouts cfg env) (t : InferenceTask) :
    getTaskDeadline env t = getTaskDeadline cfg t := by
  rw [getTaskDeadline, getTaskDeadline, getQueueDeadline_of_sameTimeouts h, h.validation, h.upload]

lemma getTaskDeadline_terminal (h : t.status.isTerminal = true) : getTaskDeadline cfg t = none := by
  unfold getTaskDeadline
  cases hst : t.status with
  | endInvalidated | endSuccess | endAborted | endGroupRefund | endGroupSuccess => simp
  | _ =>
    rw [hst] at h
    cases h

/-- a row whose deadline is the one of another row that agrees with it on all that is computed from. -/
lemma DeadlineExact.congr (h : DeadlineExact cfg t) (hst : t'.status = t.status)
    (hdeadline : t'.deadlineAt = t.deadlineAt)
    (hsame : getTaskDeadline cfg t' = getTaskDeadline cfg t) : DeadlineExact cfg t' := by
  refine ⟨fun hrun => ?_, fun hend => ?_⟩
  · rw [hdeadline, hsame]
    exact h.running (hst ▸ hrun)
  · rw [hdeadline]
    exact h.ended (hst ▸ hend)

/-! ## times -/

/-- what stays from `t` to `t'`: the type, and the start and the timeout of a task that has left the
queue. -/
structure TimesKept (t t' : InferenceTask) : Prop where
  taskType : t'.taskType = t.taskType
  left : t.status ≠ .queued →
    t'.status ≠ .queued ∧ t'.startTime = t.startTime ∧ t'.timeout = t.timeout

lemma TimesKept.refl (t : InferenceTask) : TimesKept t t := ⟨rfl, fun h => ⟨h, rfl, rfl⟩⟩

lemma TimesKept.trans {t'' : InferenceTask} (h : TimesKept t t') (h' : TimesKept t' t'') :
    TimesKept t t'' := by
  refine ⟨h'.taskType.trans h.taskType, fun hq => ?_⟩
  obtain ⟨hq', hstart, htimeout⟩ := h.left hq
  obtain ⟨hq'', hstart', htimeout'⟩ := h'.left hq'
  exact ⟨hq'', hstart'.trans hstart, htimeout'.trans htimeout⟩

/-- **the deadline of a transition** is computed from the copy `task`, which has the times of the row. -/
theorem getTaskDeadline_transition {row : InferenceTask} {now : Time}
    (hkept : TimesKept task row) (hleft : task.status ≠ .queued) (hst : t'.status = st)
    (htype : t'.taskType = row.taskType) (hstart : t'.startTime = row.startTime)
    (htimeout : t'.timeout = row.timeout)
    (htimes : (st = .scoreReady ∨ st = .errorReported) ∧ t'.scoreReadyTime = some now ∨
      (st = .validated ∨ st = .groupValidated) ∧ t'.validatedTime = some now) :
    getTaskDeadline cfg t' = getTaskDeadline cfg (task.atTransition st now) := by
  obtain ⟨-, hstart', htimeout'⟩ := hkept.left hleft
  rw [hkept.taskType] at htype
  rw [hstart'] at hstart
  rw [htimeout'] at htimeout
  rcases htimes with ⟨rfl | rfl, htime⟩ | ⟨rfl | rfl, htime⟩
  all_goals
    simp only [getTaskDeadline, usesRelayOwnedTimeouts, InferenceTask.atTransition, hst, htype,
      hstart, htimeout, htime, reduceCtorEq, if_false]
    rfl

lemma deadlineExact_created (henv : SameTimeouts cfg env) (hst : t.status = .queued)
    (hnone : t.deadlineAt = none) : DeadlineExact cfg (createdTask env db t) := by
  have hstatus : (createdTask env db t).status = .queued := hst
  refine ⟨fun _ => ?_, fun h => ?_⟩
  · have hqueue : getQueueDeadline cfg (createdTask env db t) = getQueueDeadline env t :=
      (getQueueDeadline_of_sameTimeouts henv t).symm
    rw [getTaskDeadline, if_pos hstatus, hqueue]
    simp only [createdTask, InferenceTask.withQueueDeadline]
    cases getQueueDeadline env t with
    | some d => rfl
    | none => exact hnone
  · rw [hstatus] at h
    cases h

end

/-! ## transitions -/

def CopyTimed (db : Db) (task : InferenceTask) : Prop :=
  ∃ row, db.tasks.get task.taskIDCommitment = some row ∧ TimesKept task row

def DeadlinesExact (cfg : Env) (db : Db) : Prop :=
  ∀ c t, db.tasks.get c = some t → DeadlineExact cfg t

def RowsTimed (db db' : Db) : Prop :=
  ∀ c t, db.tasks.get c = some t → ∃ t', db'.tasks.get c = some t' ∧ TimesKept t t'

lemma RowsTimed.trans (h : RowsTimed db db') (h' : RowsTimed db' db'') : RowsTimed db db'' := by
  intro c t ht
  obtain ⟨t', ht', hk⟩ := h c t ht
  obtain ⟨t'', ht'', hk'⟩ := h' c t' ht'
  exact ⟨t'', ht'', hk.trans hk'⟩

lemma CopyTimed.rows (hc : CopyTimed db task) (h : RowsTimed db db') : CopyTimed db' task := by
  obtain ⟨row, hrow, hk⟩ := hc
  obtain ⟨row', hrow', hk'⟩ := h _ row hrow
  exact ⟨row', hrow', hk.trans hk'⟩

lemma CopyTimed.write {task' : InferenceTask} (hc : CopyTimed db task)
    (hkey : task'.taskIDCommitment = task.taskIDCommitment) (htype : task'.taskType = task.taskType)
    (hst : task'.status = task.status) (hstart : task'.startTime = task.startTime)
    (htimeout : task'.timeout = task.timeout) : CopyTimed db task' := by
  obtain ⟨row, hrow, hk⟩ := hc
  refine ⟨row, hkey ▸ hrow, hk.taskType.trans htype.symm, fun hq => ?_⟩
  obtain ⟨hq', hs, ht⟩ := hk.left (hst ▸ hq)
  exact ⟨hq', hs.trans hstart.symm, ht.trans htimeout.symm⟩

/-- what a step does to the rows: their times stay, and the column stays exact. -/
structure DueStep (cfg : Env) (db db' : Db) : Prop where
  rows : RowsTimed db db'
  exact_ : DeadlinesExact cfg db → DeadlinesExact cfg db'

lemma DueStep.of_tasks (h : db'.tasks = db.tasks) : DueStep cfg db db' := by
  refine ⟨fun c t ht => ⟨t, ?_, TimesKept.refl t⟩, fun hex c t ht => ?_⟩
  · rwa [h]
  · rw [h] at ht
    exact hex c t ht

lemma DueStep.trans (h : DueStep cfg db db') (h' : DueStep cfg db' db'') : DueStep cfg db db'' :=
  ⟨h.rows.trans h'.rows, fun hex => h'.exact_ (h.exact_ hex)⟩

section
variable {env : Env} {w w' : World} {u : Unit}

lemma Rewrites.dueStep {f : InferenceTask → InferenceTask} {ds : List EventDraft}
    (h : Rewrites c f ds w w') (hf : ∀ row, w.db.tasks.get c = some row →
      TimesKept row (f row) ∧ (DeadlineExact cfg row → DeadlineExact cfg (f row))) :
    DueStep cfg w.db w'.db := by
  refine ⟨fun j t ht => ?_, fun hex j t ht => ?_⟩
  · rw [h.tasks]
    split
    · next hj =>
      subst hj
      exact ⟨f t, by rw [ht]; rfl, (hf t ht).1⟩
    · exact ⟨t, ht, TimesKept.refl t⟩
  · rw [h.tasks] at ht
    split at ht
    · obtain ⟨row, hrow, rfl⟩ := map_eq_some_iff.1 ht
      exact (hf row hrow).2 (hex c row hrow)
    · exact hex j t ht

/-- **a transition**, with the copy of its handler. -/
theorem Transition.dueStep (ht : Transition env task w w') (henv : SameTimeouts cfg env)
    (hc : CopyTimed w.db task) : DueStep cfg w.db w'.db := by
  cases ht with
  | nothing he => exact DueStep.of_tasks (he ▸ rfl)
  | started address hok =>
    obtain ⟨hst, ⟨row, hrow, hrst⟩, node, hashes, timeout, -, -, -, -, -, -, rfl⟩ :=
      setTaskStatusStarted_ok hok
    refine (rewrites_startDb rfl).dueStep fun row' hrow' => ?_
    rw [hrow] at hrow'
    cases hrow'
    refine ⟨⟨rfl, fun hq => absurd (hrst.trans hst) hq⟩, fun _ => ⟨fun _ => ?_, nofun⟩⟩
    cases htype : row.taskType with
    | _ => simp [getTaskDeadline, usesRelayOwnedTimeouts, InferenceTask.startedOn, htype]
  | ran st f hfrom hcur hfr hm hf =>
    obtain ⟨row0, hrow0, hk⟩ := hc
    obtain ⟨d, hd, hdeadline⟩ := hf.deadline
    refine hm.toRewrites.dueStep fun row hrow => ?_
    rw [hrow0] at hrow
    cases hrow
    have hs := hf.same row0
    have hleft : task.status ≠ .queued := by
      rcases hfrom with hfrom | hfrom
      all_goals
        rw [hfrom]
        nofun
    have hsame : getTaskDeadline cfg (f row0) = getTaskDeadline cfg (task.atTransition st env.now) :=
      getTaskDeadline_transition hk hleft (hf.status row0) hs.taskType hs.startTime hs.timeout
        (hf.time row0)
    have hst : st ≠ .queued ∧ st.isTerminal = false := by
      rcases hf.time row0 with ⟨rfl | rfl, -⟩ | ⟨rfl | rfl, -⟩
      all_goals exact ⟨nofun, rfl⟩
    refine ⟨⟨hs.taskType, fun _ => ⟨fun h => hst.1 ((hf.status row0).symm.trans h), hs.startTime, hs.timeout⟩⟩,
      fun _ => ⟨fun _ => ?_, fun hend => ?_⟩⟩
    · rw [hdeadline, hsame, ← getTaskDeadline_of_sameTimeouts henv]
      exact hd.symm
    · rw [hf.status, hst.2] at hend
      cases hend
  | ended f ds hopen hcur hfr hm hf hds hfree =>
    refine hm.toRewrites.dueStep fun row _ => ?_
    have hs := hf.same row
    have hend := hf.status row
    refine ⟨⟨hs.taskType, fun _ => ⟨fun hq => ?_, hs.startTime, hs.timeout⟩⟩,
      fun _ => ⟨fun hrun => ?_, fun _ => hf.deadline row⟩⟩
    · rw [hq] at hend
      cases hend
    · rw [hrun] at hend
      cases hend
  | rescored row hrow hok =>
    exact (persistAborted_ok hok).toRewrites.dueStep fun _ _ =>
      ⟨⟨rfl, fun hq => ⟨hq, rfl, rfl⟩⟩, fun hex => hex.congr rfl rfl rfl⟩

lemma dueStep_slash {node : Node} (hok : Ok (slashNode env node) w u w') :
    DueStep cfg w.db w'.db := by
  rcases transition_slash hok with ⟨hside, -⟩ | ⟨t, ht, htr⟩
  · exact DueStep.of_tasks hside.1.tasks
  · exact (htr cfg).dueStep ⟨rfl, rfl, rfl⟩ ⟨t, ht, TimesKept.refl t⟩

/-! ## operations -/

lemma dueStep_request (op : NodeOp) (w : World) : DueStep cfg w.db (op.exec w).db := by
  by_cases hreq : op.isRequest = true
  · exact DueStep.of_tasks (nodeSide_nodeOp hreq w).1.tasks
  · rcases ok_or_fails op.tx w with ⟨u, hok⟩ | ⟨e, hfail⟩
    · cases op with
      | start env address c =>
        obtain ⟨node, w1, hnode, h⟩ := ok_bind.1 hok
        obtain ⟨-, rfl⟩ := ok_getNodeByAddress.1 hnode
        rw [nodeStartTask, ok_require_bind, ok_require_bind, ok_transaction, ok_updateStatus] at h
        obtain ⟨-, -, -, hw⟩ := h
        refine DueStep.of_tasks ?_
        rw [NodeOp.exec, hw]
      | finish env address =>
        obtain ⟨node, w1, hnode, h⟩ := ok_bind.1 hok
        obtain ⟨-, rfl⟩ := ok_getNodeByAddress.1 hnode
        exact DueStep.of_tasks (Tx.Kept.ok (r := NodeSide) (ok_transaction.1 h)).1.tasks
      | slash env address =>
        obtain ⟨node, w1, hnode, h⟩ := ok_bind.1 hok
        obtain ⟨-, rfl⟩ := ok_getNodeByAddress.1 hnode
        exact dueStep_slash h
      | _ => exact absurd rfl hreq
    · rw [NodeOp.exec, op.atomic w e _ hfail]
      exact DueStep.of_tasks rfl

end

/-- the operations run with the timeouts of one configuration, and a new task has no deadline yet. -/
def RelayOp.Configured (cfg : Env) : RelayOp → Prop
  | .create env t => SameTimeouts cfg env ∧ t.task.deadlineAt = none
  | .attempt env _ _ => SameTimeouts cfg env
  | .validateGroup env _ _ _ _ _ _ => SameTimeouts cfg env
  | _ => True

theorem exec_dueStep {op : RelayOp} (hop : op.Configured cfg) (hc : ∀ flight ∈ s.flights,
    CopyTimed s.world.db flight.task) : DueStep cfg s.world.db (op.exec s).world.db := by
  generalize (op.exec s).world = w', opStep_exec op s = hstep
  cases hstep with
  | aside op hf => exact DueStep.of_tasks hf.tasks
  | created env t hok =>
    obtain ⟨-, hnew, -, rfl⟩ := createTask_ok hok
    refine ⟨fun c v hv => ⟨v, afterCreate_of_get hnew hv, TimesKept.refl v⟩, fun hex c v hv => ?_⟩
    rcases afterCreate_cases hnew hv with ⟨-, rfl⟩ | hv
    · exact deadlineExact_created hop.1 t.queued hop.2
    · exact hex c v hv
  | called env i call flight hmem ht => exact ht.dueStep hop (hc flight hmem)
  | group env i j k taskID vrfProof publicKey tasks hok =>
    -- a group validation works on rows that it has read in its transaction
    refine validateTaskGroup_induct (p := fun db => DueStep cfg s.world.db db) (c := CopyTimed)
      (DueStep.of_tasks rfl) (fun r taskID score hr => ?_) (fun hp hc ht _ => ?_) hok
    · have hrow : CopyTimed s.world.db r := ⟨r, hr, TimesKept.refl r⟩
      exact hrow.write rfl rfl rfl rfl rfl
    · have hstep := ht.dueStep hop hc
      exact ⟨hp.trans hstep, fun m' hc' => hc'.rows hstep.rows⟩
  | slashed env node hok => exact dueStep_slash hok
  | request req he => exact he ▸ dueStep_request req s.world

/-- the copies after an operation: new ones are rows, and a retry with a task that has left the queue gives
up. -/
lemma copyTimed_flights (hc : ∀ flight ∈ s.flights, CopyTimed s.world.db flight.task) (op : RelayOp) :
    ∀ flight ∈ op.flights s.world.db s.flights, CopyTimed s.world.db flight.task := by
  intro flight hm
  cases flightFrom_of_mem hm with
  | old flight hold => exact hc flight hold
  | read c t ht =>
    have hkey : t.taskIDCommitment = c := key_of_get ht
    exact ⟨t, hkey ▸ ht, TimesKept.refl t⟩
  | synced fl row hfl hrow hq =>
    obtain ⟨row', hrow', hk⟩ := hc fl hfl
    rw [hrow] at hrow'
    cases hrow'
    exact ⟨row, hrow, hk.taskType, fun hrq => hk.left fun htq => hq ⟨htq, hrq⟩⟩

/-! ## runs -/

structure DeadlineState (cfg : Env) (s : RelayState) : Prop where
  rows : DeadlinesExact cfg s.world.db
  copies : ∀ flight ∈ s.flights, CopyTimed s.world.db flight.task

lemma step_deadlineState (s : RelayState) (op : RelayOp) (h : DeadlineState cfg s)
    (hop : op.Configured cfg) : DeadlineState cfg (op.exec s) := by
  have hstep := exec_dueStep hop h.copies
  exact ⟨hstep.exact_ h.rows, fun flight hm =>
    (copyTimed_flights h.copies op flight hm).rows hstep.rows⟩

def Overdue (cfg : Env) (now : Time) (t : InferenceTask) : Prop :=
  ∃ deadline reason, getTaskDeadline cfg t = some (deadline, reason) ∧ deadline ≤ now

lemma mem_dueStatuses : st ∈ dueStatuses ↔ st.isTerminal = false := by
  cases st with
  | _ => decide

lemma DeadlineExact.dueTask_iff (h : DeadlineExact cfg t)
    (now : Time) : (∃ x, dueTask now t = some x) ↔ Overdue cfg now t := by
  cases hterm : t.status.isTerminal with
  | true =>
    refine iff_of_false ?_ ?_
    · rintro ⟨x, hx⟩
      have hd := (dueTask_some hx).2.1
      rw [h.ended hterm] at hd
      cases hd
    · rintro ⟨deadline, reason, hd, -⟩
      rw [getTaskDeadline_terminal hterm] at hd
      cases hd
  | false =>
    have hrun := h.running hterm
    constructor
    · rintro ⟨x, hx⟩
      obtain ⟨-, hd, hle⟩ := dueTask_some hx
      rw [hd] at hrun
      obtain ⟨p, hp, hfst⟩ := map_eq_some_iff.1 hrun.symm
      exact ⟨x.deadline, p.2, by rw [hp, ← hfst], hle⟩
    · rintro ⟨deadline, reason, hd, hle⟩
      rw [hd] at hrun
      have hcol : t.deadlineAt = some deadline := hrun
      refine ⟨⟨t, deadline⟩, ?_⟩
      rw [dueTask, hcol]
      exact if_pos ⟨mem_dueStatuses.2 hterm, hle⟩

section
variable {now : Time} {limit : Nat} {cursor : Option TaskDeadlineCursor}

lemma overdue_of_scan (h : DeadlinesExact cfg db) {x : DueTask}
    (hx : x ∈ getDueTaskDeadlines db.tasks now limit cursor) :
    db.tasks.get x.task.taskIDCommitment = some x.task ∧ Overdue cfg now x.task := by
  have hmem := mem_of_mem_take hx
  rw [mem_insertionSort] at hmem
  obtain ⟨row, hrow, hdue⟩ := mem_filterMap.1 (mem_filter.1 hmem).1
  obtain ⟨rfl, -⟩ := dueTask_some hdue
  have hget := mem_rows.1 hrow
  exact ⟨hget, ((h _ _ hget).dueTask_iff now).1 ⟨x, hdue⟩⟩

lemma scan_of_overdue (h : DeadlinesExact cfg db) (hlimit : db.tasks.rows.length ≤ limit)
    (ht : db.tasks.get c = some t) (hover : Overdue cfg now t) :
    ∃ x ∈ getDueTaskDeadlines db.tasks now limit none, x.task = t := by
  obtain ⟨x, hx⟩ := ((h c t ht).dueTask_iff now).2 hover
  refine ⟨x, ?_, (dueTask_some hx).1⟩
  have hkey : t.taskIDCommitment = c := key_of_get ht
  have hrow : t ∈ db.tasks.rows := mem_rows.2 (hkey ▸ ht)
  rw [getDueTaskDeadlines, take_of_length_le]
  · rw [mem_insertionSort]
    exact mem_filter.2 ⟨mem_filterMap.2 ⟨t, hrow, hx⟩, rfl⟩
  · rw [length_insertionSort]
    exact ((length_filter_le _ _).trans (length_filterMap_le _ _)).trans hlimit

/-- the ticks of a scan during which the rows and the time stay as they are. -/
def TimeoutRun.Fixed (r : TimeoutRun) (db : Db) (now : Time) : Prop :=
  ∀ m, (r.ticks m).tasks = db.tasks ∧ (r.ticks m).now = now ∧ (r.ticks m).failed = false

lemma pages_of_overdue {r : TimeoutRun} {n : Nat} (h : DeadlinesExact cfg db) (hr : r.Fixed db now)
    (hn : db.tasks.rows.length ≤ n * r.limit) (ht : db.tasks.get c = some t) (hover : Overdue cfg now t) :
    ∃ m < n, ∃ x ∈ r.returned m, x.task = t := by
  obtain ⟨x, hx⟩ := ((h c t ht).dueTask_iff now).2 hover
  have hdue : r.dueTasks = fun _ => db.tasks.rows.filterMap (dueTask now) := by
    funext m
    rw [dueTasks, (hr m).1, (hr m).2.1]
  have hfailed : (fun m => (r.ticks m).failed) = fun _ => false := funext fun m => (hr m).2.2
  have hmem : x ∈ r.dueTasks 0 := mem_dueTasks.2 ⟨c, by rw [dueAt, (hr 0).1, (hr 0).2.1, ht]; exact hx⟩
  have hnodup : ((r.dueTasks 0).map DueTask.orderKey).Nodup := by
    refine Nodup.map_on orderKey_inj ?_
    rw [hdue]
    refine (Nodup.of_map _ (nodup_map_key_rows _)).filterMap fun u v y hu hv => ?_
    rw [← (dueTask_some hu).1, (dueTask_some hv).1]
  rw [hdue] at hmem hnodup
  obtain ⟨m, hm, hpage⟩ := Keyset.mem_page_fixed hnodup hmem ((length_filterMap_le _ _).trans hn)
  refine ⟨m, hm, x, ?_, (dueTask_some hx).1⟩
  rwa [returned_eq r (hr m).2.2, hdue, hfailed]

end

/-- **the deadline column is exact** in every state that the relay reaches from one in which it is, whatever
the handlers have read and however often they retry; and the scan by the column returns overdue tasks only,
and all of them on one page, or on the pages of as many ticks as have room for them. -/
theorem deadline_column (cfg : Env) (ops : List RelayOp) (s : RelayState)
    (hs : DeadlinesExact cfg s.world.db) (hflights : s.flights = [])
    (hops : ∀ op ∈ ops, op.Configured cfg) :
    (∀ c t, (run RelayOp.exec ops s).world.db.tasks.get c = some t →
      (t.status.isTerminal = false → t.deadlineAt = (getTaskDeadline cfg t).map Prod.fst) ∧
        (t.status.isTerminal = true → t.deadlineAt = none)) ∧ ∀ now limit cursor,
        (∀ x ∈ getDueTaskDeadlines (run RelayOp.exec ops s).world.db.tasks now limit cursor,
          (run RelayOp.exec ops s).world.db.tasks.get x.task.taskIDCommitment = some x.task ∧
            Overdue cfg now x.task) ∧ ((run RelayOp.exec ops s).world.db.tasks.rows.length ≤ limit →
          ∀ c t, (run RelayOp.exec ops s).world.db.tasks.get c = some t → Overdue cfg now t →
            ∃ x ∈ getDueTaskDeadlines (run RelayOp.exec ops s).world.db.tasks now limit none,
              x.task = t) ∧ ∀ r : TimeoutRun, r.Fixed (run RelayOp.exec ops s).world.db now → ∀ n,
            (run RelayOp.exec ops s).world.db.tasks.rows.length ≤ n * r.limit →
          ∀ c t, (run RelayOp.exec ops s).world.db.tasks.get c = some t → Overdue cfg now t →
            ∃ m < n, ∃ x ∈ r.returned m, x.task = t := by
  have hinv : DeadlineState cfg s := by
    refine ⟨hs, fun flight hm => ?_⟩
    rw [hflights] at hm
    cases hm
  have hrun : DeadlineState cfg (run RelayOp.exec ops s) :=
    run_invariant (p := fun _ op => op.Configured cfg) step_deadlineState ops s
      (Along.of_forall_mem hops s) hinv
  refine ⟨fun c t ht => ⟨(hrun.rows c t ht).running, (hrun.rows c t ht).ended⟩,
    fun now limit cursor => ⟨fun x hx => overdue_of_scan hrun.rows hx, fun hlimit c t ht hover => ?_,
      fun r hr n hn c t ht hover => ?_⟩⟩
  · exact scan_of_overdue hrun.rows hlimit ht hover
  · exact pages_of_overdue hrun.rows hr hn ht hover

theorem deadline_column_at_pausing :
    ∃ t, (run RelayOp.exec pausingRun freshRelay).world.db.tasks.get "0xc1".toList = some t ∧
      t.status = .scoreReady ∧ t.deadlineAt = (getTaskDeadline {} t).map Prod.fst := by
  have hops : ∀ op ∈ pausingRun, op.Configured {} := by
    simp only [pausingRun, forall_mem_cons]
    exact ⟨trivial, ⟨⟨rfl, rfl, rfl⟩, rfl⟩, trivial, ⟨rfl, rfl, rfl⟩, trivial, trivial, ⟨rfl, rfl, rfl⟩,
      fun _ hm => absurd hm not_mem_nil⟩
  have hst : taskStatusOf (run RelayOp.exec pausingRun freshRelay).world.db "0xc1".toList =
      some .scoreReady := by decide +kernel
  obtain ⟨t, ht, hready⟩ := map_eq_some_iff.1 hst
  have hs : DeadlinesExact {} freshRelay.world.db := by
    intro c t ht
    cases ht
  have hcol := (deadline_column {} pausingRun freshRelay hs rfl hops).1 _ t ht
  exact ⟨t, ht, hready, hcol.1 (by rw [hready]; rfl)⟩

end CrynuxRelay
