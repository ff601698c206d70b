import CrynuxRelay.Base.Run
import CrynuxRelay.Model.State
import Mathlib.Algebra.BigOperators.Group.List.Lemmas
import Mathlib.Algebra.GroupWithZero.Nat
import Mathlib.Data.List.Sort

/-!
# Task statistics

A worker records each window of an hour once, after it has ended.

* `HistogramQuery`, `getTimeCount` -- the histograms of execution, upload and waiting times;
* `RowIterator` -- the answers that the loop over the rows of a query gets;
* `histogram_complete_iff` -- a histogram is complete exactly when all rows are delivered and scanned, or when
  a row that is recorded twice hides the rows that are not;
* `finished_counted` -- tasks that have ended when their window is recorded are counted once.
-/

namespace CrynuxRelay

open List Option

/-! ## histograms -/

structure StatsRow where
  createdAt : Time
  taskType : TaskType
  modelSwitched : Bool := false
  createTime : Option Time := none
  startTime : Option Time := none
  scoreReadyTime : Option Time := none
  validatedTime : Option Time := none
  resultUploadedTime : Option Time := none

def statsTaskTypes : List TaskType := [.sd, .llm, .sdFTLora]

/-- the two times of a histogram, and whether it tells switched models apart. -/
structure HistogramQuery where
  since : StatsRow → Option Time
  upto : StatsRow → Option Time
  bySwitch : Bool

def taskExecutionTime : HistogramQuery := ⟨(·.startTime), (·.scoreReadyTime), true⟩
def taskUploadResultTime : HistogramQuery := ⟨(·.validatedTime), (·.resultUploadedTime), false⟩
def taskWaitingTime : HistogramQuery := ⟨(·.createTime), (·.startTime), false⟩

structure TimeCount where
  group : TaskType × Bool
  seconds : Int
  count : Nat
  deriving DecidableEq

def binSize : Int := 5
def statsProgressMarkerSeconds : Int := -1

namespace HistogramQuery

variable (q : HistogramQuery) (rows : List StatsRow) (start stop : Time)

def groups : List (TaskType × Bool) :=
  statsTaskTypes.flatMap fun t => if q.bySwitch then [(t, false), (t, true)] else [(t, false)]

/-- the seconds between the two times in bins, to the nearest. -/
def bin (r : StatsRow) : Option Int := do
  let upto ← q.upto r
  let since ← q.since r
  pure ((2 * (upto - since) + binSize) / (2 * binSize))

def selected (g : TaskType × Bool) : List Int :=
  ((rows.filter fun r => start ≤ r.createdAt ∧ r.createdAt < stop ∧ r.taskType = g.1 ∧
    (q.bySwitch → r.modelSwitched = g.2)).filterMap q.bin).filter (0 ≤ ·)

/-- the result of the query: bins in their order, with the numbers of their rows. -/
def resultSet (g : TaskType × Bool) : List TimeCount :=
  ((q.selected rows start stop g).dedup.insertionSort (· ≤ ·)).map fun t =>
    ⟨g, t * binSize, (q.selected rows start stop g).count t⟩

end HistogramQuery

/-- the answers of an iterator: the number of rows that are scanned, and whether `Next` then delivers a row
that `Scan` cannot read.  The context of the query is cancelled before the rows are read, which closes them
at some point: no row comes after that, and what ended them is not asked for. -/
structure RowIterator where
  scanned : Nat
  failedScan : Bool := false

/-- the loop over the rows.  The error of `Scan` is dropped, and its row is recorded with the values of the row
before it, or with zeros. -/
def RowIterator.read (it : RowIterator) (g : TaskType × Bool) (rs : List TimeCount) : List TimeCount :=
  let seen := rs.take it.scanned
  if it.failedScan ∧ it.scanned < rs.length then seen ++ [seen.getLast?.getD ⟨g, 0, 0⟩] else seen

namespace HistogramQuery

variable (q : HistogramQuery) (rows : List StatsRow) (start stop : Time)

/-- the loop over the queries; a query can fail. -/
def collect (delivered : TaskType × Bool → Option RowIterator) :
    List (TaskType × Bool) → Option (List TimeCount)
  | [] => some []
  | g :: gs => do
    let it ← delivered g
    let results ← collect delivered gs
    pure (it.read g (q.resultSet rows start stop g) ++ results)

def getTimeCount (delivered : TaskType × Bool → Option RowIterator) : Option (List TimeCount) := do
  let results ← q.collect rows start stop delivered q.groups
  pure (if results = [] then [⟨(.sd, false), statsProgressMarkerSeconds, 0⟩] else results)

end HistogramQuery

def groupTotal (g : TaskType × Bool) (results : List TimeCount) : Nat :=
  ((results.filter fun r => r.group = g).map (·.count)).sum

variable {q : HistogramQuery} {rows : List StatsRow} {start stop : Time} {g : TaskType × Bool}
  {delivered : TaskType × Bool → Option RowIterator} {results rs : List TimeCount} {r : TimeCount}
  {it : RowIterator}

lemma mem_resultSet (h : r ∈ q.resultSet rows start stop g) :
    r.group = g ∧ 0 ≤ r.seconds ∧ 0 < r.count := by
  obtain ⟨t, ht, rfl⟩ := List.mem_map.1 h
  have ht : t ∈ q.selected rows start stop g :=
    List.mem_dedup.1 ((mem_insertionSort (· ≤ ·)).1 ht)
  refine ⟨rfl, ?_, count_pos_iff.2 ht⟩
  have := of_decide_eq_true (mem_filter.1 ht).2
  show 0 ≤ t * 5
  omega

/-- the row that is recorded twice counts as much as the rows that are not recorded. -/
def RowIterator.RepeatHides (it : RowIterator) (rs : List TimeCount) : Prop :=
  it.failedScan = true ∧
    (rs.take it.scanned).getLast?.map (·.count) = some ((rs.drop it.scanned).map (·.count)).sum

lemma mem_read (h : r ∈ it.read g rs) : r ∈ rs ∨ r = ⟨g, 0, 0⟩ := by
  have hseen : ∀ r ∈ rs.take it.scanned, r ∈ rs := fun r hr => mem_of_mem_take hr
  rw [RowIterator.read] at h
  split at h
  · rcases mem_append.1 h with h | h
    · exact .inl (hseen r h)
    · rw [mem_singleton.1 h]
      cases hl : (rs.take it.scanned).getLast? with
      | none => exact .inr rfl
      | some r' => exact .inl (hseen r' (mem_of_getLast? hl))
  · exact .inl (hseen r h)

lemma sum_read_eq_iff (hpos : ∀ r ∈ rs, 0 < r.count) (g : TaskType × Bool) :
    ((it.read g rs).map (·.count)).sum = (rs.map (·.count)).sum ↔
      rs.length ≤ it.scanned ∨ it.RepeatHides rs := by
  have hsplit : (rs.map (·.count)).sum = ((rs.take it.scanned).map (·.count)).sum +
      ((rs.drop it.scanned).map (·.count)).sum := by
    rw [← sum_append, ← map_append, take_append_drop]
  rcases Nat.lt_or_ge it.scanned rs.length with hlt | hle
  · -- some row is left, and its count is positive
    have hrest : 0 < ((rs.drop it.scanned).map (·.count)).sum := by
      rw [drop_eq_getElem_cons hlt, map_cons, sum_cons]
      have := hpos _ (getElem_mem hlt)
      omega
    rw [or_iff_right (Nat.not_le.2 hlt), RowIterator.RepeatHides, RowIterator.read, hsplit]
    cases it.failedScan with
    | false =>
      simp only [Bool.false_eq_true, false_and, if_false, iff_false]
      omega
    | true =>
      rw [if_pos ⟨rfl, hlt⟩, map_append, sum_append]
      cases (rs.take it.scanned).getLast? with
      | none =>
        simp only [getD_none, map_cons, map_nil, sum_singleton, Option.map_none, reduceCtorEq, and_false, iff_false]
        omega
      | some r =>
        simp only [getD_some, map_cons, map_nil, sum_singleton, Option.map_some, some.injEq, true_and]
        omega
  · rw [RowIterator.read, if_neg fun h => absurd h.2 (Nat.not_lt.2 hle), take_of_length_le hle]
    exact iff_of_true rfl (.inl hle)

lemma groupTotal_append (l l' : List TimeCount) :
    groupTotal g (l ++ l') = groupTotal g l + groupTotal g l' := by
  rw [groupTotal, filter_append, map_append, sum_append]
  rfl

lemma groupTotal_read (g' : TaskType × Bool) (it : RowIterator) :
    groupTotal g (it.read g' (q.resultSet rows start stop g')) =
      if g' = g then ((it.read g' (q.resultSet rows start stop g')).map (·.count)).sum else 0 := by
  have hgroup : ∀ r ∈ it.read g' (q.resultSet rows start stop g'), r.group = g' := by
    intro r hr
    rcases mem_read hr with hr | rfl
    · exact (mem_resultSet hr).1
    · rfl
  rw [groupTotal]
  split
  · next he =>
    rw [filter_eq_self.2 fun r hr => decide_eq_true ((hgroup r hr).trans he)]
  · next he =>
    rw [filter_eq_nil_iff.2 fun r hr hg => he ((hgroup r hr).symm.trans (of_decide_eq_true hg))]
    rfl

/-- what the loop collects for a group: the rows that it records of its iterator. -/
lemma groupTotal_collect {gs : List (TaskType × Bool)} (hnd : gs.Nodup)
    (h : q.collect rows start stop delivered gs = some results) :
    (∀ g ∈ gs, ∃ it, delivered g = some it ∧ groupTotal g results =
        ((it.read g (q.resultSet rows start stop g)).map (·.count)).sum) ∧
      (∀ g, g ∉ gs → groupTotal g results = 0) ∧ ∀ r ∈ results, 0 ≤ r.seconds := by
  induction gs generalizing results with
  | nil =>
    cases h
    exact ⟨nofun, fun _ _ => rfl, nofun⟩
  | cons g' gs ih =>
    obtain ⟨it, hit, h⟩ := bind_eq_some_iff.1 h
    obtain ⟨tail, htail, h⟩ := bind_eq_some_iff.1 h
    cases h
    obtain ⟨hnot, hnd⟩ := nodup_cons.1 hnd
    obtain ⟨hin, hout, hsec⟩ := ih hnd htail
    refine ⟨fun g hg => ?_, fun g hg => ?_, fun r hr => ?_⟩
    · rw [groupTotal_append, groupTotal_read]
      rcases mem_cons.1 hg with rfl | hg
      · exact ⟨it, hit, by rw [if_pos rfl, hout g hnot, Nat.add_zero]⟩
      · obtain ⟨m, hm, htotal⟩ := hin g hg
        have hne : g' ≠ g := fun e => hnot (e ▸ hg)
        exact ⟨m, hm, by rw [if_neg hne, htotal, Nat.zero_add]⟩
    · obtain ⟨hne, hg⟩ := not_or.1 fun h => hg (mem_cons.2 h)
      rw [groupTotal_append, groupTotal_read, if_neg (Ne.symm hne), hout g hg]
    · rcases mem_append.1 hr with hr | hr
      · rcases mem_read hr with hr | rfl
        · exact (mem_resultSet hr).2.1
        · exact le_refl (0 : Int)
      · exact hsec r hr

lemma nodup_groups (q : HistogramQuery) : q.groups.Nodup := by
  unfold HistogramQuery.groups
  cases q.bySwitch <;> decide

/-- **Histograms.**  A histogram that is returned counts every selected row, and is the marker only if there
is none, exactly when every iterator delivers all of its rows and every one of them is scanned; apart from
the case that a row whose scan fails repeats a count that is the one of all the rows not recorded. -/
theorem histogram_complete_iff (h : q.getTimeCount rows start stop delivered = some results) :
    ((∀ g ∈ q.groups, groupTotal g results = (q.selected rows start stop g).length) ∧
        ((∃ r ∈ results, r.seconds = statsProgressMarkerSeconds) →
          ∀ g ∈ q.groups, q.selected rows start stop g = [])) ↔
      ∀ g ∈ q.groups, ∀ it, delivered g = some it → (q.resultSet rows start stop g).length ≤ it.scanned ∨
        it.RepeatHides (q.resultSet rows start stop g) := by
  obtain ⟨collected, hc, h⟩ := bind_eq_some_iff.1 h
  obtain ⟨hin, -, hsec⟩ := groupTotal_collect (nodup_groups q) hc
  have htotal : ∀ g, groupTotal g results = groupTotal g collected := by
    intro g
    rw [← some.inj h]
    split
    · next hnil =>
      rw [hnil, groupTotal, filter_cons]
      split <;> rfl
    · rfl
  have hgroup : ∀ g ∈ q.groups, (groupTotal g results = (q.selected rows start stop g).length ↔
      ∀ it, delivered g = some it → (q.resultSet rows start stop g).length ≤ it.scanned ∨
        it.RepeatHides (q.resultSet rows start stop g)) := by
    intro g hg
    obtain ⟨it, hit, hsum⟩ := hin g hg
    -- every selected row is in one bin
    have hbins : ((q.resultSet rows start stop g).map (·.count)).sum = (q.selected rows start stop g).length := by
      rw [HistogramQuery.resultSet, List.map_map]
      refine Eq.trans ?_ (List.sum_map_count_dedup_eq_length _)
      exact ((perm_insertionSort (· ≤ ·) _).map _).sum_eq
    rw [htotal, hsum, ← hbins, sum_read_eq_iff fun r hr => (mem_resultSet hr).2.2]
    exact ⟨fun hall it' hit' => some.inj (hit.symm.trans hit') ▸ hall, fun hall => hall it hit⟩
  refine ⟨fun hall g hg => (hgroup g hg).1 (hall.1 g hg), fun hall => ?_⟩
  have hsum : ∀ g ∈ q.groups, groupTotal g results = (q.selected rows start stop g).length :=
    fun g hg => (hgroup g hg).2 (hall g hg)
  refine ⟨hsum, fun ⟨r, hr, hmark⟩ g hg => ?_⟩
  rw [← some.inj h] at hr
  split at hr
  · next hnil =>
    rw [← length_eq_zero_iff, ← hsum g hg, htotal, hnil]
    rfl
  · have hpos := hsec r hr
    rw [hmark] at hpos
    exact absurd hpos (by decide)

def oneStatsRow : StatsRow := { createdAt := 0, taskType := .sd, createTime := some 0, startTime := some 7 }

theorem histogram_complete_at_oneStatsRow :
    taskWaitingTime.getTimeCount [oneStatsRow] 0 3600 (fun _ => some ⟨1, false⟩) = some [⟨(.sd, false), 5, 1⟩] ∧
      ∀ g ∈ taskWaitingTime.groups, groupTotal g [⟨(.sd, false), 5, 1⟩] =
        (taskWaitingTime.selected [oneStatsRow] 0 3600 g).length := by
  have h : taskWaitingTime.getTimeCount [oneStatsRow] 0 3600 (fun _ => some ⟨1, false⟩) =
      some [⟨(.sd, false), 5, 1⟩] := by decide +kernel
  refine ⟨h, ((histogram_complete_iff h).2 fun g hg it hit => .inl ?_).1⟩
  cases hit
  revert g
  decide +kernel

/-- an iterator that stops before its first row: the window is recorded as one without tasks; and one whose
first row cannot be scanned: the window is recorded with a count of zero. -/
theorem stopped_histogram_empty :
    taskWaitingTime.getTimeCount [oneStatsRow] 0 3600 (fun _ => some ⟨0, false⟩) =
        some [⟨(.sd, false), statsProgressMarkerSeconds, 0⟩] ∧
      taskWaitingTime.getTimeCount [oneStatsRow] 0 3600 (fun _ => some ⟨0, true⟩) = some [⟨(.sd, false), 0, 0⟩] ∧
      (taskWaitingTime.selected [oneStatsRow] 0 3600 (.sd, false)).length = 1 := by
  decide +kernel

/-! ## hourly counts -/

/-- a task with its end: the instant, and the status it then stays in. -/
structure StatsTask where
  createdAt : Time
  taskType : TaskType
  endedAt : Option Time := none
  status : TaskStatus := .endSuccess

/-- `readAt` is the instant of the queries of the row. -/
structure TaskCount where
  start : Time
  stop : Time
  taskType : TaskType
  readAt : Time
  totalCount : Nat := 0
  successCount : Nat := 0
  abortedCount : Nat := 0

def statsDuration : Int := 3600

def successStatuses : List TaskStatus := [.endSuccess, .endGroupSuccess, .endGroupRefund]
def abortedStatuses : List TaskStatus := [.endAborted, .endInvalidated]

/-- the query of a row selects the task: it has one of the statuses from its end on. -/
def TaskCount.selects (c : TaskCount) (statuses : List TaskStatus) (t : StatsTask) : Bool :=
  c.start ≤ t.createdAt ∧ t.createdAt < c.stop ∧ t.taskType = c.taskType ∧
    t.endedAt.any (· ≤ c.readAt) ∧ t.status ∈ statuses

def getTaskCounts (tasks : List StatsTask) (start stop readAt : Time) : List TaskCount :=
  statsTaskTypes.map fun taskType =>
    let row : TaskCount := ⟨start, stop, taskType, readAt, 0, 0, 0⟩
    let abortedCount := tasks.countP (row.selects abortedStatuses)
    let successCount := tasks.countP (row.selects successStatuses)
    ⟨start, stop, taskType, readAt, successCount + abortedCount, successCount, abortedCount⟩

/-- a call of the worker: its time, the instants at which it reads the windows by their starts, and the
windows at which the database fails. -/
structure StatsTick where
  now : Time
  readAt : Time → Time
  fails : Time → Bool := fun _ => false

def StatsTick.record (tick : StatsTick) (tasks : List StatsTask) :
    Nat → Time → List TaskCount → List TaskCount
  | 0, _, counts => counts
  | n + 1, start, counts =>
    if tick.fails start then counts
    else tick.record tasks n (start + statsDuration)
      (counts ++ getTaskCounts tasks start (start + statsDuration) (tick.readAt start))

def lastStop (init : Time) (counts : List TaskCount) : Time := (counts.getLast?.map (·.stop)).getD init

def statsTaskCount (init : Time) (tasks : List StatsTask) (tick : StatsTick)
    (counts : List TaskCount) : List TaskCount :=
  tick.record tasks ((tick.now - lastStop init counts) / statsDuration).toNat (lastStop init counts) counts

/-- the tasks of the windows that a call records have ended when it reads them, if they end at all. -/
def StatsTick.Settled (init : Time) (tasks : List StatsTask) (counts : List TaskCount)
    (tick : StatsTick) : Prop :=
  ∀ c ∈ (statsTaskCount init tasks tick counts).drop counts.length, ∀ t ∈ tasks,
    c.start ≤ t.createdAt → t.createdAt < c.stop → ∀ e, t.endedAt = some e → e ≤ c.readAt

section counts
variable {init readAt : Time} {tasks : List StatsTask} {counts : List TaskCount} {tick : StatsTick}

lemma lastStop_append (init : Time) (tasks : List StatsTask) (counts : List TaskCount)
    (start stop readAt : Time) :
    lastStop init (counts ++ getTaskCounts tasks start stop readAt) = stop := by
  simp [lastStop, getTaskCounts, statsTaskTypes]

structure CountInv (init : Time) (tasks : List StatsTask) (counts : List TaskCount) : Prop where
  numbers : ∀ c ∈ counts, c.successCount = tasks.countP (c.selects successStatuses) ∧
    c.abortedCount = tasks.countP (c.selects abortedStatuses)
  once : ∀ t ∈ tasks, init ≤ t.createdAt → t.endedAt.isSome → ∀ statuses, t.status ∈ statuses →
    counts.countP (·.selects statuses t) = if t.createdAt < lastStop init counts then 1 else 0

lemma CountInv.window (readAt : Time) (h : CountInv init tasks counts)
    (hs : ∀ t ∈ tasks, lastStop init counts ≤ t.createdAt →
      t.createdAt < lastStop init counts + statsDuration → ∀ e, t.endedAt = some e → e ≤ readAt) :
    CountInv init tasks (counts ++ getTaskCounts tasks (lastStop init counts)
      (lastStop init counts + statsDuration) readAt) := by
  refine ⟨fun c hc => ?_, fun t ht hinit hend statuses hst => ?_⟩
  · rcases mem_append.1 hc with hc | hc
    · exact h.numbers c hc
    · obtain ⟨taskType, -, rfl⟩ := List.mem_map.1 hc
      exact ⟨rfl, rfl⟩
  · obtain ⟨e, he⟩ := isSome_iff_exists.1 hend
    have hpos : (0 : Int) < statsDuration := by decide
    rw [countP_append, h.once t ht hinit hend statuses hst, lastStop_append, getTaskCounts, countP_map]
    cases hty : t.taskType <;>
      simp only [statsTaskTypes, countP_cons, countP_nil, TaskCount.selects, hty, he, Function.comp_apply] <;> grind

lemma record_prefix (tick : StatsTick) (tasks : List StatsTask) (n : Nat) (start : Time) (counts : List TaskCount) :
    counts <+: tick.record tasks n start counts := by
  induction n generalizing start counts with
  | zero => exact prefix_rfl
  | succ n ih =>
    rw [StatsTick.record]
    split
    · exact prefix_rfl
    · exact (prefix_append _ _).trans (ih _ _)

theorem CountInv.record (n : Nat) (h : CountInv init tasks counts)
    (hs : ∀ c ∈ (tick.record tasks n (lastStop init counts) counts).drop counts.length, ∀ t ∈ tasks,
      c.start ≤ t.createdAt → t.createdAt < c.stop → ∀ e, t.endedAt = some e → e ≤ c.readAt) :
    CountInv init tasks (tick.record tasks n (lastStop init counts) counts) := by
  induction n generalizing counts with
  | zero => exact h
  | succ n ih =>
    rw [StatsTick.record] at hs ⊢
    split
    · exact h
    · next hf =>
      rw [if_neg hf] at hs
      -- the rows of this window come first among those that the call adds
      obtain ⟨rest, hrest⟩ := record_prefix tick tasks n (lastStop init counts + statsDuration)
        (counts ++ getTaskCounts tasks (lastStop init counts) (lastStop init counts + statsDuration)
          (tick.readAt (lastStop init counts)))
      rw [← hrest, append_assoc, drop_left] at hs
      have hw := h.window (tick.readAt (lastStop init counts))
        (hs _ (mem_append_left rest (mem_map_of_mem (a := .sd) (by decide))))
      have htail := ih hw
      rw [lastStop_append, ← hrest, drop_left] at htail
      rw [← hrest]
      exact htail fun c hc => hs c (mem_append_right _ hc)

/-- **Hourly counts.**  When the tasks of the windows that a call records have ended by then, every task
of a recorded window that ends is in one count, of successes or of aborted tasks. -/
theorem finished_counted {ticks : List StatsTick}
    (h : Along (statsTaskCount init tasks) (StatsTick.Settled init tasks) ticks [])
    (hrun : run (statsTaskCount init tasks) ticks [] = counts) :
    (∀ c ∈ counts, c.successCount = tasks.countP (c.selects successStatuses) ∧
      c.abortedCount = tasks.countP (c.selects abortedStatuses)) ∧
    ∀ t ∈ tasks, init ≤ t.createdAt → t.endedAt.isSome → t.createdAt < lastStop init counts →
      (t.status ∈ successStatuses → counts.countP (·.selects successStatuses t) = 1) ∧
      (t.status ∈ abortedStatuses → counts.countP (·.selects abortedStatuses t) = 1) := by
  have hempty : CountInv init tasks [] :=
    ⟨nofun, fun t _ hinit _ _ _ => (if_neg (not_lt.2 hinit)).symm⟩
  have hinv := hrun ▸ run_invariant (fun _ _ (h : CountInv init tasks _) hs => h.record _ hs) ticks [] h hempty
  refine ⟨hinv.numbers, fun t ht hinit hend hlt => ?_⟩
  have honce := hinv.once t ht hinit hend
  rw [if_pos hlt] at honce
  exact ⟨honce _, honce _⟩

end counts

def shortTask : StatsTask := { createdAt := 0, taskType := .sd, endedAt := some 10 }

theorem finished_counted_at_shortTask :
    (run (statsTaskCount 0 [shortTask]) [⟨3600, fun _ => 3600, fun _ => false⟩] []).countP
      (·.selects successStatuses shortTask) = 1 := by
  have h : Along (statsTaskCount 0 [shortTask]) (StatsTick.Settled 0 [shortTask])
      [⟨3600, fun _ => 3600, fun _ => false⟩] [] := by
    refine ⟨fun c hc t ht _ _ e he => ?_, trivial⟩
    have hread : ∀ c ∈ statsTaskCount 0 [shortTask] ⟨3600, fun _ => 3600, fun _ => false⟩ [], c.readAt = 3600 := by
      decide +kernel
    rw [mem_singleton.1 ht] at he
    cases he
    rw [hread c hc]
    exact (by decide : (10 : Int) ≤ 3600)
  exact ((finished_counted h rfl).2 shortTask mem_cons_self (by decide) rfl (by decide +kernel)).1
    (by decide)

def lateTask : StatsTask := { shortTask with endedAt := some 5000 }

/-- a task that ends after its window was recorded is never counted. -/
theorem late_task_not_counted : lastStop 0 (run (statsTaskCount 0 [lateTask])
        [⟨3600, fun _ => 3600, fun _ => false⟩, ⟨7200, fun _ => 7200, fun _ => false⟩] []) = 7200 ∧
      (run (statsTaskCount 0 [lateTask])
        [⟨3600, fun _ => 3600, fun _ => false⟩, ⟨7200, fun _ => 7200, fun _ => false⟩] []).countP
        (·.selects successStatuses lateTask) = 0 := by
  decide +kernel

end CrynuxRelay
