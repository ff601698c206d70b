import CrynuxRelay.Model.Deadlines

/-!
# Tasks past their deadline wait for a reset of the cursor

The cursor of the scan is reset when a page comes back empty and never otherwise.  While new tasks above
it become due at every tick, no page is empty, and the tasks below it are not asked for.

* `TimeoutRun` -- infinitely many ticks, over tasks that change in any way in between;
* `getDueTaskDeadlines_eq` -- the query is a page in the order of the cursor;
* `Waits` -- a task that is due from some tick on;
* `waiting_task_returned` -- if again and again a tick finds nothing above the cursor, every waiting
  task is returned.
-/

namespace CrynuxRelay

open List Option Table InferenceTask Keyset TaskDeadlineCursor

variable {m n : Nat} {t : DueTask} {c : Text} {task : InferenceTask}

/-! ## runs of the scan -/

/-- what a tick finds: the rows of the tasks, with ids that tell them apart, and the time. -/
structure Tick where
  tasks : Table InferenceTask.taskIDCommitment
  now : Time
  failed : Bool := false
  ids : ∀ c c' t t', tasks.get c = some t → tasks.get c' = some t' → t.id = t'.id → t = t'

structure TimeoutRun where
  limit : Nat
  limit_pos : 1 ≤ limit
  ticks : Nat → Tick

namespace TimeoutRun

def cursor (r : TimeoutRun) : Nat → Option TaskDeadlineCursor
  | 0 => none
  | n + 1 =>
    (processTick (r.ticks n).failed (r.ticks n).tasks (r.ticks n).now r.limit (r.cursor n)).2

def returned (r : TimeoutRun) (n : Nat) : List DueTask :=
  (processTick (r.ticks n).failed (r.ticks n).tasks (r.ticks n).now r.limit (r.cursor n)).1

def dueAt (r : TimeoutRun) (n : Nat) (c : Text) : Option DueTask :=
  ((r.ticks n).tasks.get c).bind (dueTask (r.ticks n).now)

/-- tick `n` asks for tasks, and no due task is above its cursor. -/
def Cleared (r : TimeoutRun) (n : Nat) : Prop :=
  (r.ticks n).failed = false ∧
    ∀ c t, r.dueAt n c = some t → ∃ k, r.cursor n = some k ∧ aboveCursor k t = false

/-- the task is due from tick `n` on, and status and deadline move forward only. -/
structure Waits (r : TimeoutRun) (n : Nat) (c : Text) : Prop where
  due : ∀ m, n ≤ m → ∃ t, r.dueAt m c = some t
  forward : ∀ m, n ≤ m → ∀ t t', r.dueAt m c = some t → r.dueAt (m + 1) c = some t' →
    t.orderKey ≤ t'.orderKey

end TimeoutRun

/-! ## the query as a page -/

def TaskDeadlineCursor.orderKey (c : TaskDeadlineCursor) : Nat ×ₗ Time ×ₗ Nat :=
  toLex (c.status.code, toLex (c.deadlineAt, c.id))

lemma aboveCursor_iff (c : TaskDeadlineCursor) (t : DueTask) :
    aboveCursor c t = true ↔ c.orderKey < t.orderKey := by
  rw [aboveCursor, decide_eq_true_iff, orderKey, DueTask.orderKey,
    Prod.Lex.toLex_lt_toLex, Prod.Lex.toLex_lt_toLex]
  simp only [eq_comm (a := t.task.status.code), eq_comm (a := t.deadline), ← and_or_left]

lemma getDueTaskDeadlines_eq (tasks : Table taskIDCommitment) (now : Time)
    (limit : Nat) (cursor : Option TaskDeadlineCursor) :
    getDueTaskDeadlines tasks now limit cursor = page DueTask.orderKey limit (cursor.map orderKey)
        (tasks.rows.filterMap (dueTask now)) := by
  have hcond : (fun t => cursor.all fun c => aboveCursor c t) =
      fun t : DueTask => (cursor.map orderKey).all fun k =>
        decide (k < t.orderKey) := by
    funext t
    cases cursor with
    | none => rfl
    | some c => exact Bool.eq_iff_iff.2 ((aboveCursor_iff c t).trans decide_eq_true_iff.symm)
  rw [getDueTaskDeadlines, page, above, hcond]

namespace TimeoutRun

variable (r : TimeoutRun)

def dueTasks (n : Nat) : List DueTask := (r.ticks n).tasks.rows.filterMap (dueTask (r.ticks n).now)

lemma mem_dueTasks {r : TimeoutRun} : t ∈ r.dueTasks n ↔ ∃ c, r.dueAt n c = some t := by
  rw [dueTasks, mem_filterMap]
  refine ⟨fun ⟨task, hrow, hdue⟩ => ⟨task.taskIDCommitment, ?_⟩, fun ⟨c, hdue⟩ => ?_⟩
  · rwa [dueAt, mem_rows.1 hrow]
  · obtain ⟨task, hget, hdue⟩ := bind_eq_some_iff.1 hdue
    have hkey : task.taskIDCommitment = c := key_of_get hget
    exact ⟨task, mem_rows.2 (hkey ▸ hget), hdue⟩

lemma cursor_eq (n : Nat) : (r.cursor n).map orderKey =
    cursorAt DueTask.orderKey r.limit r.dueTasks (fun n => (r.ticks n).failed) n := by
  induction n with
  | zero => rfl
  | succ n ih =>
    rw [cursor, processTick, cursorAt, ← ih]
    split
    · rfl
    · rw [getDueTaskDeadlines_eq, Option.map_map]
      rfl

lemma returned_eq (h : (r.ticks n).failed = false) :
    r.returned n = page DueTask.orderKey r.limit
      (cursorAt DueTask.orderKey r.limit r.dueTasks (fun n => (r.ticks n).failed) n)
      (r.dueTasks n) := by
  rw [returned, processTick, h, if_neg Bool.false_ne_true, getDueTaskDeadlines_eq, cursor_eq,
    dueTasks]

variable {r}

lemma dueTask_some {now : Time} (h : dueTask now task = some t) :
    t.task = task ∧ task.deadlineAt = some t.deadline ∧ t.deadline ≤ now := by
  rw [dueTask] at h
  split at h
  · next deadline hd =>
    split at h
    · next hdue =>
      cases h
      exact ⟨rfl, hd, hdue.2⟩
    · cases h
  · cases h

lemma dueAt_task (h : r.dueAt n c = some t) :
    (r.ticks n).tasks.get c = some t.task ∧ t.task.deadlineAt = some t.deadline := by
  obtain ⟨task, hget, hdue⟩ := bind_eq_some_iff.1 h
  obtain ⟨rfl, hd, -⟩ := dueTask_some hdue
  exact ⟨hget, hd⟩

lemma orderKey_inj (t : DueTask) (ht : t ∈ r.dueTasks n) (u : DueTask) (hu : u ∈ r.dueTasks n)
    (h : t.orderKey = u.orderKey) : t = u := by
  obtain ⟨c, hc⟩ := mem_dueTasks.1 ht
  obtain ⟨d, hd⟩ := mem_dueTasks.1 hu
  obtain ⟨hgt, hdt⟩ := dueAt_task hc
  obtain ⟨hgu, hdu⟩ := dueAt_task hd
  have hid : t.task.id = u.task.id := congrArg (fun k => (ofLex (ofLex k).2).2) h
  have htask : t.task = u.task := (r.ticks n).ids _ _ _ _ hgt hgu hid
  have hdeadline : t.deadline = u.deadline := by
    rw [htask, hdu, some.injEq] at hdt
    exact hdt.symm
  cases t
  cases u
  simp only at htask hdeadline
  rw [htask, hdeadline]

lemma Cleared.above_eq_nil (h : r.Cleared n) : above DueTask.orderKey
      (cursorAt DueTask.orderKey r.limit r.dueTasks (fun n => (r.ticks n).failed) n)
      (r.dueTasks n) = [] := by
  rw [eq_nil_iff_forall_not_mem]
  intro t ht
  obtain ⟨hmem, habove⟩ := mem_above.1 ht
  obtain ⟨c, hc⟩ := mem_dueTasks.1 hmem
  obtain ⟨k, hk, hnot⟩ := h.2 c t hc
  have hlt := habove k.orderKey (by rw [← cursor_eq, hk]; rfl)
  rw [(aboveCursor_iff k t).2 hlt] at hnot
  cases hnot

/-- **between two ticks that find nothing above the cursor**, every waiting task is returned. -/
theorem Waits.returned_between {m' : Nat} (h : r.Waits n c) (hn : n ≤ m)
    (hm : r.Cleared m) (hm' : r.Cleared m') (hlt : m < m') :
    ∃ j, m < j ∧ j < m' ∧ ∃ t ∈ r.returned j, t.task.taskIDCommitment = c := by
  obtain ⟨t0, -⟩ := h.due n (Nat.le_refl n)
  have hitem : ∀ j, n ≤ j → r.dueAt j c = some ((r.dueAt j c).getD t0) := by
    intro j hj
    obtain ⟨t, ht⟩ := h.due j hj
    rw [ht, getD_some]
  obtain ⟨j, hmj, hjm', hf, hret⟩ := Keyset.returned_between (fun j => (r.dueAt j c).getD t0)
    (fun j => orderKey_inj) (fun j hj => mem_dueTasks.2 ⟨c, hitem j (by omega)⟩)
    (fun j hj => h.forward j (by omega) _ _ (hitem j (by omega)) (hitem (j + 1) (by omega)))
    hm.above_eq_nil hm.1 hm'.above_eq_nil hlt
  refine ⟨j, hmj, hjm', _, by rw [returned_eq r hf]; exact hret, ?_⟩
  exact key_of_get (dueAt_task (hitem j (by omega))).1

/-- **No waiting task starves**, in every run in which again and again a tick finds no due task above
its cursor. -/
theorem waiting_task_returned (r : TimeoutRun) (h : ∀ n, ∃ m, n ≤ m ∧ r.Cleared m) (n : Nat) (c : Text)
    (hw : r.Waits n c) : ∃ m, n < m ∧ ∃ t ∈ r.returned m, t.task.taskIDCommitment = c := by
  obtain ⟨m, hnm, hm⟩ := h n
  obtain ⟨m', hmm', hm'⟩ := h (m + 1)
  obtain ⟨j, hmj, -, hret⟩ := hw.returned_between hnm hm hm' hmm'
  exact ⟨j, by omega, hret⟩

end TimeoutRun

/-! ## two tasks that cannot be aborted are returned in turn -/

def overdueTask : InferenceTask :=
  { id := 1, taskIDCommitment := "0xc1".toList, creator := "0xa1".toList, taskFee := 1,
    deadlineAt := some 1 }

def startedTask : InferenceTask :=
  { overdueTask with id := 2, taskIDCommitment := "0xc2".toList, status := .started }

def overdueRows : Table InferenceTask.taskIDCommitment := (Table.empty.insert overdueTask).insert startedTask

lemma get_overdueRows (h : overdueRows.get c = some task) :
    task = overdueTask ∨ task = startedTask := by
  rw [overdueRows, get_insert _ _ _ rfl, get_insert _ _ _ rfl] at h
  split at h
  · exact .inr (some.inj h).symm
  · split at h
    · exact .inl (some.inj h).symm
    · cases h

lemma ids_overdueRows (c c' : Text) (t t' : InferenceTask) (h : overdueRows.get c = some t)
    (h' : overdueRows.get c' = some t') (hid : t.id = t'.id) : t = t' := by
  rcases get_overdueRows h with rfl | rfl
  all_goals
    rcases get_overdueRows h' with rfl | rfl
    all_goals first | rfl | cases hid

def overdueRun : TimeoutRun where
  limit := 1
  limit_pos := Nat.le_refl 1
  ticks := fun _ => { tasks := overdueRows, now := 1, ids := ids_overdueRows }

lemma cursor_overdueRun (n : Nat) : overdueRun.cursor (3 * n) = none ∧
    overdueRun.cursor (3 * n + 1) = some ⟨.queued, 1, 1⟩ ∧ overdueRun.cursor (3 * n + 2) = some ⟨.started, 1, 2⟩ := by
  have hstep : ∀ m, overdueRun.cursor (m + 1) = (processTick false overdueRows 1 1 (overdueRun.cursor m)).2 :=
    fun _ => rfl
  have hround : ∀ m, overdueRun.cursor m = none → overdueRun.cursor m = none ∧
      overdueRun.cursor (m + 1) = some ⟨.queued, 1, 1⟩ ∧ overdueRun.cursor (m + 2) = some ⟨.started, 1, 2⟩ := by
    intro m hm
    have hfirst : overdueRun.cursor (m + 1) = some ⟨.queued, 1, 1⟩ := by
      rw [hstep, hm]
      rfl
    refine ⟨hm, hfirst, ?_⟩
    rw [hstep, hfirst]
    rfl
  refine hround _ ?_
  induction n with
  | zero => rfl
  | succ n ih =>
    rw [Nat.mul_succ, hstep, (hround _ ih).2.2]
    rfl

/-- at tick 1 the queued task is below the cursor and the running one above it. -/
theorem waiting_task_returned_at_overdue :
    overdueRun.cursor 1 = some ⟨.queued, 1, 1⟩ ∧ aboveCursor ⟨.queued, 1, 1⟩ ⟨startedTask, 1⟩ = true ∧
      ∃ m, 1 < m ∧ ∃ t ∈ overdueRun.returned m, t.task.taskIDCommitment = "0xc1".toList := by
  refine ⟨(cursor_overdueRun 0).2.1, rfl,
    TimeoutRun.waiting_task_returned overdueRun (fun n => ?_) 1 _ ⟨fun m _ => ⟨⟨overdueTask, 1⟩, rfl⟩, ?_⟩⟩
  · refine ⟨3 * n + 2, by omega, rfl, fun c t ht => ⟨_, (cursor_overdueRun n).2.2, ?_⟩⟩
    obtain ⟨task, hget, hdue⟩ := bind_eq_some_iff.1 ht
    rcases get_overdueRows hget with rfl | rfl
    all_goals
      cases hdue
      rfl
  · intro m _ t t' ht ht'
    rw [some.inj (ht.symm.trans ht')]

/-! ## a queued task below a cursor that is never reset -/

def arrival (n : Nat) : InferenceTask :=
  { id := n + 2, taskIDCommitment := 'a' :: Text.decimal n, creator := "0xa1".toList, taskFee := 1,
    status := .started, deadlineAt := some n }

def InferenceTask.timedOut (t : InferenceTask) : InferenceTask :=
  { t with status := .endAborted, deadlineAt := none }

lemma InferenceTask.taskIDCommitment_timedOut (t : InferenceTask) :
    t.timedOut.taskIDCommitment = t.taskIDCommitment := rfl

/-- at every tick the arrival of the tick before was aborted, and a new one is due. -/
def rowsAt : Nat → Table InferenceTask.taskIDCommitment
  | 0 => (Table.empty.insert overdueTask).insert (arrival 0)
  | n + 1 =>
    ((rowsAt n).modify (arrival n).taskIDCommitment InferenceTask.timedOut
      InferenceTask.taskIDCommitment_timedOut).insert (arrival (n + 1))

lemma arrival_inj (h : (arrival n).taskIDCommitment = (arrival m).taskIDCommitment) :
    n = m := Text.decimal_injective (cons.inj h).2

lemma overdueTask_ne_arrival (n : Nat) :
    overdueTask.taskIDCommitment ≠ (arrival n).taskIDCommitment := by
  intro h
  have : '0' = 'a' := (cons.inj h).1
  exact absurd this (by decide)

structure RowsAt (n : Nat) (t : Table InferenceTask.taskIDCommitment) : Prop where
  overdue : t.get overdueTask.taskIDCommitment = some overdueTask
  last : t.get (arrival n).taskIDCommitment = some (arrival n)
  fresh : ∀ m, n < m → t.get (arrival m).taskIDCommitment = none
  all : ∀ c task, t.get c = some task →
    task = overdueTask ∨ task = arrival n ∨ ∃ k < n, task = (arrival k).timedOut

lemma rowsAt_zero : RowsAt 0 (rowsAt 0) := by
  have hget : ∀ c, (rowsAt 0).get c = if c = (arrival 0).taskIDCommitment then some (arrival 0)
      else if c = overdueTask.taskIDCommitment then some overdueTask else none := by
    intro c
    rw [rowsAt, get_insert, get_insert _ _ _ rfl]
    · rfl
    · rfl
  refine ⟨?_, ?_, ?_, ?_⟩
  · rw [hget, if_neg (overdueTask_ne_arrival 0), if_pos rfl]
  · rw [hget, if_pos rfl]
  · intro m hm
    rw [hget, if_neg, if_neg (overdueTask_ne_arrival m).symm]
    intro h
    have := arrival_inj h
    omega
  · intro c task h
    rw [hget] at h
    split at h
    · cases h
      exact .inr (.inl rfl)
    · split at h
      · cases h
        exact .inl rfl
      · cases h

lemma RowsAt.succ {t : Table taskIDCommitment} (h : RowsAt n t) :
    RowsAt (n + 1) ((t.modify (arrival n).taskIDCommitment timedOut
      taskIDCommitment_timedOut).insert (arrival (n + 1))) := by
  have hne : ∀ m, n < m → (arrival m).taskIDCommitment ≠ (arrival n).taskIDCommitment := by
    intro m hm he
    have := arrival_inj he
    omega
  have hfree : (t.modify (arrival n).taskIDCommitment timedOut
      taskIDCommitment_timedOut).get (arrival (n + 1)).taskIDCommitment = none := by
    rw [get_modify, if_neg (hne (n + 1) (by omega)), h.fresh (n + 1) (by omega)]
  have hget := fun c => get_insert _ (arrival (n + 1)) c hfree
  refine ⟨?_, ?_, ?_, ?_⟩
  · rw [hget, if_neg (overdueTask_ne_arrival _), get_modify,
      if_neg (overdueTask_ne_arrival n), h.overdue]
  · rw [hget, if_pos rfl]
  · intro m hm
    rw [hget, if_neg (fun he => by have := arrival_inj he; omega), get_modify,
      if_neg (hne m (by omega)), h.fresh m (by omega)]
  · intro c task hc
    rw [hget] at hc
    split at hc
    · cases hc
      exact .inr (.inl rfl)
    · rw [get_modify, h.last] at hc
      split at hc
      · cases hc
        exact .inr (.inr ⟨n, by omega, rfl⟩)
      · next hcn =>
        rcases h.all c task hc with rfl | rfl | ⟨k, hk, rfl⟩
        · exact .inl rfl
        · exact absurd (key_of_get hc).symm hcn
        · exact .inr (.inr ⟨k, by omega, rfl⟩)

lemma rowsAt_rows (n : Nat) : RowsAt n (rowsAt n) := by
  induction n with
  | zero => exact rowsAt_zero
  | succ n ih => exact ih.succ

lemma RowsAt.ids {t : Table taskIDCommitment} (h : RowsAt n t)
    (c c' : Text) (task task' : InferenceTask) (hc : t.get c = some task)
    (hc' : t.get c' = some task') (hid : task.id = task'.id) : task = task' := by
  rcases h.all c task hc with rfl | rfl | ⟨k, hk, rfl⟩ <;>
    rcases h.all c' task' hc' with rfl | rfl | ⟨k', hk', rfl⟩
  · rfl
  · exact absurd hid (by simp [overdueTask, arrival])
  · exact absurd hid (by simp [overdueTask, arrival, timedOut])
  · exact absurd hid (by simp [overdueTask, arrival])
  · rfl
  · exact absurd hid (by simp [arrival, timedOut]; omega)
  · exact absurd hid (by simp [overdueTask, arrival, timedOut])
  · exact absurd hid (by simp [arrival, timedOut]; omega)
  · have : k = k' := by simpa [arrival, timedOut] using hid
    rw [this]

/-- pages of a hundred tasks; one started task is due at every tick, and aborted at once. -/
def arrivingRun : TimeoutRun where
  limit := 100
  limit_pos := by decide
  ticks := fun n => { tasks := rowsAt n, now := n, ids := (rowsAt_rows n).ids }

lemma dueAt_arrivingRun (h : arrivingRun.dueAt n c = some t) :
    (t = ⟨overdueTask, 1⟩ ∧ 1 ≤ n) ∨ t = ⟨arrival n, n⟩ := by
  obtain ⟨task, hget, hdue⟩ := bind_eq_some_iff.1 h
  obtain ⟨htask, hd, hnow⟩ := TimeoutRun.dueTask_some hdue
  cases t with
  | mk task' deadline =>
    obtain rfl : task' = task := htask
    rcases (rowsAt_rows n).all c task' hget with rfl | rfl | ⟨k, hk, rfl⟩
    · cases hd
      have hone : (1 : Int) ≤ (n : Int) := hnow
      exact .inl ⟨rfl, by omega⟩
    · cases hd
      exact .inr rfl
    · cases hd

/-- a tick returns the arrival alone, when the queued task is below the cursor or not due yet. -/
lemma returned_arrival
    (hbelow : 1 ≤ n → ∃ k, arrivingRun.cursor n = some k ∧ aboveCursor k ⟨overdueTask, 1⟩ = false)
    (ht : t ∈ arrivingRun.returned n) : t = ⟨arrival n, n⟩ := by
  rw [TimeoutRun.returned_eq _ rfl] at ht
  obtain ⟨hmem, hcur⟩ := mem_above.1 (mem_above_of_page ht)
  obtain ⟨c, hc⟩ := TimeoutRun.mem_dueTasks.1 hmem
  rcases dueAt_arrivingRun hc with ⟨rfl, hn⟩ | rfl
  · obtain ⟨k, hk, hnot⟩ := hbelow hn
    have hlt := hcur k.orderKey (by rw [← TimeoutRun.cursor_eq, hk]; rfl)
    rw [← aboveCursor_iff, hnot] at hlt
    cases hlt
  · rfl

lemma returned_ne_nil (habove : ∀ k, arrivingRun.cursor n = some k → aboveCursor k ⟨arrival n,
    n⟩ = true) : arrivingRun.returned n ≠ [] := by
  have hdue : arrivingRun.dueAt n (arrival n).taskIDCommitment = some ⟨arrival n, n⟩ := by
    rw [TimeoutRun.dueAt, show (arrivingRun.ticks n).tasks = rowsAt n from rfl, (rowsAt_rows n).last]
    simp [dueTask, arrival, arrivingRun, dueStatuses]
  rw [TimeoutRun.returned_eq _ rfl]
  refine page_ne_nil arrivingRun.limit_pos
    (mem_above.2 ⟨TimeoutRun.mem_dueTasks.2 ⟨_, hdue⟩, ?_⟩)
  intro k hk
  rw [← TimeoutRun.cursor_eq] at hk
  obtain ⟨c, hc, rfl⟩ := map_eq_some_iff.1 hk
  exact (aboveCursor_iff c _).1 (habove c hc)

lemma cursor_after_arrival (hall : ∀ t ∈ arrivingRun.returned n, t = ⟨arrival n, n⟩)
    (hne : arrivingRun.returned n ≠ []) : arrivingRun.cursor (n + 1) = some ⟨.started, n, n + 2⟩ := by
  obtain ⟨last, hlast⟩ := ne_none_iff_exists'.1 (mt getLast?_eq_none_iff.1 hne)
  have hcursor : arrivingRun.cursor (n + 1) = (arrivingRun.returned n).getLast?.map fun last =>
      ⟨last.task.status, last.deadline, last.task.id⟩ := rfl
  rw [hcursor, hlast, hall last (mem_of_getLast? hlast)]
  rfl

/-- every tick returns the arrival and nothing else, and leaves the cursor there. -/
lemma returned_arrivingRun (n : Nat) : (∀ t ∈ arrivingRun.returned n, t = ⟨arrival n, n⟩) ∧
      arrivingRun.cursor (n + 1) = some ⟨.started, n, n + 2⟩ := by
  induction n with
  | zero =>
    have hall : ∀ t ∈ arrivingRun.returned 0, t = ⟨arrival 0, (0 : Nat)⟩ :=
      fun t ht => returned_arrival (fun h => absurd h (by omega)) ht
    exact ⟨hall, cursor_after_arrival hall (returned_ne_nil nofun)⟩
  | succ n ih =>
    have hall : ∀ t ∈ arrivingRun.returned (n + 1), t = ⟨arrival (n + 1), (n + 1 : Nat)⟩ :=
      fun t ht => returned_arrival (fun _ => ⟨_, ih.2, rfl⟩) ht
    refine ⟨hall, cursor_after_arrival hall (returned_ne_nil ?_)⟩
    intro k hk
    rw [ih.2] at hk
    cases hk
    refine decide_eq_true (.inr (.inl ⟨rfl, ?_⟩))
    show (n : Int) < ((n + 1 : Nat) : Int)
    omega

/-- one started task past its deadline at every tick keeps the cursor above the queued task, which is
due from tick one on and never returned. -/
theorem queued_task_starves : arrivingRun.Waits 1 "0xc1".toList ∧
      ∀ m, ∀ t ∈ arrivingRun.returned m, t.task.taskIDCommitment ≠ "0xc1".toList := by
  have hget : ∀ m, 1 ≤ m → arrivingRun.dueAt m "0xc1".toList = some ⟨overdueTask, 1⟩ := by
    intro m hm
    have hrow : (rowsAt m).get "0xc1".toList = some overdueTask := (rowsAt_rows m).overdue
    rw [TimeoutRun.dueAt, show (arrivingRun.ticks m).tasks = rowsAt m from rfl, hrow]
    have hnow : (1 : Time) ≤ (arrivingRun.ticks m).now := by
      show (1 : Int) ≤ (m : Int)
      omega
    simp [dueTask, overdueTask, dueStatuses, hnow]
  refine ⟨⟨fun m hm => ⟨_, hget m hm⟩, ?_⟩, ?_⟩
  · intro m hm t t' ht ht'
    rw [hget m hm] at ht
    rw [hget (m + 1) (by omega)] at ht'
    cases ht
    cases ht'
    exact le_refl _
  · intro m t ht
    rw [(returned_arrivingRun m).1 t ht]
    exact (overdueTask_ne_arrival m).symm

end CrynuxRelay
