import CrynuxRelay.Base.Nested
import CrynuxRelay.Base.Run
import CrynuxRelay.Model.State

/-!
# Traces of tasks

The traces are in memory, by commitment, with an index from the identifiers of groups to commitments.  A
trace is dropped when it is looked up after its time, or by the cleanup of every hour.

* `TaskTraceStore`, `TraceOp` -- the records, the index and the operations;
* `TaskTraceStore.Exact` -- the index is that of the records; `exact_exec` -- every operation keeps it;
* `trace_index_exact` -- the index is exact after every run, the cleanup leaves nothing that is
  expired, and a lookup by group returns what is not expired, each record once.
-/

namespace CrynuxRelay

open List Option Table Function

variable {taskID : Text}

/-! ## the store -/

/-- a trace; `π` is the part that the operations of the store do not look at. -/
structure TaskTraceRecord (π : Type) where
  taskIDCommitment : Text
  taskID : Text
  createdAt : Time
  updatedAt : Time
  expiresAt : Time
  payload : π

variable {π : Type}

/-- the groups of the index are sets: their amounts are zero. -/
structure TaskTraceStore (π : Type) where
  records : Table (TaskTraceRecord.taskIDCommitment : TaskTraceRecord π → Text) := Table.empty
  taskIDCommitments : Nested Text Text := fun _ => none

def addGroupIndexLocked (index : Nested Text Text) (taskID c : Text) : Nested Text Text :=
  if taskID = [] then index else index.store taskID c 0

def removeGroupIndexLocked (index : Nested Text Text) (taskID c : Text) : Nested Text Text :=
  if taskID = [] then index else index.discard taskID c

namespace TaskTraceStore

variable (s : TaskTraceStore π)

/-- `fn` has the identifier of the group and the rest of the record, and changes both. -/
def upsert [Inhabited π] (c : Text) (now retention : Time) (fn : Text → π → Text × π) :
    TaskTraceStore π :=
  if c = [] ∨ retention = 0 then s else
    let record := (s.records.get c).getD ⟨c, [], now, now, now, default⟩
    let changed := fn record.taskID record.payload
    { records := s.records.put
        { record with
          taskID := changed.1
          payload := changed.2
          updatedAt := now
          expiresAt := now + retention }
      taskIDCommitments :=
        if record.taskID = changed.1 then s.taskIDCommitments
        else addGroupIndexLocked (removeGroupIndexLocked s.taskIDCommitments record.taskID c) changed.1 c }

def deleteLocked (c : Text) : TaskTraceStore π where
  records := s.records.erase c
  taskIDCommitments :=
    (s.records.get c).elim s.taskIDCommitments fun r =>
      removeGroupIndexLocked s.taskIDCommitments r.taskID c

def get (c : Text) (now : Time) : Option (TaskTraceRecord π) × TaskTraceStore π :=
  match s.records.get c with
  | none => (none, s)
  | some r => if now < r.expiresAt then (some r, s) else (none, s.deleteLocked c)

def group (taskID : Text) : List Text := ((s.taskIDCommitments taskID).map (·.keys)).getD []

/-- the loop of `GetByTaskID`. -/
def collect (now : Time) : List Text → TaskTraceStore π → List (TaskTraceRecord π) × TaskTraceStore π
  | [], s => ([], s)
  | c :: l, s =>
    let found := s.get c now
    let rest := collect now l found.2
    (found.1.toList ++ rest.1, rest.2)

def getByTaskID (it : Iteration Text) (taskID : Text) (now : Time) :
    List (TaskTraceRecord π) × TaskTraceStore π :=
  collect now (it.order (s.group taskID)) s

def cleanupExpired (it : Iteration Text) (now : Time) : TaskTraceStore π :=
  (collect now (it.order s.records.keys) s).2

end TaskTraceStore

inductive TraceOp (π : Type)
  | upsert (c : Text) (now retention : Time) (fn : Text → π → Text × π)
  | get (c : Text) (now : Time)
  | getByTaskID (it : Iteration Text) (taskID : Text) (now : Time)
  | cleanupExpired (it : Iteration Text) (now : Time)

def TraceOp.exec [Inhabited π] (op : TraceOp π) (s : TaskTraceStore π) : TaskTraceStore π :=
  match op with
  | .upsert c now retention fn => s.upsert c now retention fn
  | .get c now => (s.get c now).2
  | .getByTaskID it taskID now => (s.getByTaskID it taskID now).2
  | .cleanupExpired it now => s.cleanupExpired it now

/-! ## the index -/

namespace TaskTraceStore

/-- the index is that of the identifiers `of`, where an empty one is none, and no group is empty. -/
def Indexes (index : Nested Text Text) (of : Text → Text) : Prop :=
  ∃ tot, Nested.Exact (fun taskID c => if taskID ≠ [] ∧ of c = taskID then some 0 else none)
    (fun _ => 0) index tot

variable {s : TaskTraceStore π} {index : Nested Text Text} {of : Text → Text} {c : Text}
  {r : TaskTraceRecord π}

lemma Indexes.remove (h : Indexes index of) (c : Text) :
    Indexes (removeGroupIndexLocked index (of c) c) (update of c []) := by
  rw [removeGroupIndexLocked]
  split
  · next hnil => rwa [← hnil, update_eq_self]
  · next hne =>
    obtain ⟨tot, h⟩ := h
    obtain ⟨t, ht⟩ := isSome_iff_exists.1 (h.present (of c) c 0 (if_pos ⟨hne, rfl⟩))
    refine ⟨_, h.discard ht (fun o i => ?_) fun o => ?_⟩
    · by_cases hi : i = c <;> grind
    · simp [hne]

lemma Indexes.add (h : Indexes index of) (hc : of c = []) (taskID : Text) :
    Indexes (addGroupIndexLocked index taskID c) (update of c taskID) := by
  rw [addGroupIndexLocked]
  split
  · next hnil => rwa [hnil, ← hc, update_eq_self]
  · next hne =>
    obtain ⟨tot, h⟩ := h
    refine ⟨_, h.store (fun o i => ?_) fun o => ?_⟩
    · by_cases hi : i = c <;> grind
    · simp [hc, Ne.symm hne]

lemma Indexes.write (h : Indexes index of) (c taskID : Text) :
    Indexes (if of c = taskID then index
      else addGroupIndexLocked (removeGroupIndexLocked index (of c) c) taskID c)
      (update of c taskID) := by
  split
  · next hid => rwa [← hid, update_eq_self]
  · have hadd := (h.remove c).add (update_self ..) taskID
    rwa [update_idem] at hadd

def taskIDOf (s : TaskTraceStore π) (c : Text) : Text := ((s.records.get c).map (·.taskID)).getD []

/-- **the index is that of the records**, and no group is empty. -/
abbrev Exact (s : TaskTraceStore π) : Prop := Indexes s.taskIDCommitments s.taskIDOf

lemma Exact.put (h : s.Exact) (r : TaskTraceRecord π) {old : Text}
    (hold : old = s.taskIDOf r.taskIDCommitment) :
    Exact ⟨s.records.put r, if old = r.taskID then s.taskIDCommitments
      else addGroupIndexLocked (removeGroupIndexLocked s.taskIDCommitments old r.taskIDCommitment)
        r.taskID r.taskIDCommitment⟩ := by
  have hof : ∀ index, taskIDOf ⟨s.records.put r, index⟩ =
      update s.taskIDOf r.taskIDCommitment r.taskID := by
    intro index
    funext j
    rw [taskIDOf, get_put, update_apply]
    split <;> rfl
  rw [Exact, hof, hold]
  exact h.write _ _

lemma upserted [Inhabited π] (s : TaskTraceStore π) (c : Text) (now : Time) :
    let record := (s.records.get c).getD ⟨c, [], now, now, now, default⟩
    record.taskIDCommitment = c ∧ record.taskID = s.taskIDOf c := by
  intro record
  rw [taskIDOf]
  cases hr : s.records.get c with
  | none => simp [record, hr]
  | some r => simp [record, hr, key_of_get hr]

lemma exact_upsert [Inhabited π] (h : s.Exact) (c : Text) (now retention : Time)
    (fn : Text → π → Text × π) : (s.upsert c now retention fn).Exact := by
  unfold upsert
  split
  · exact h
  · have hrecord := s.upserted c now
    generalize (s.records.get c).getD ⟨c, [], now, now, now, default⟩ = record at hrecord ⊢
    obtain ⟨rfl, hold⟩ := hrecord
    exact h.put _ hold

lemma exact_deleteLocked (h : s.Exact) (c : Text) : (s.deleteLocked c).Exact := by
  have hof : (s.deleteLocked c).taskIDOf = update s.taskIDOf c [] := by
    funext j
    rw [taskIDOf, deleteLocked, get_erase, update_apply]
    split <;> rfl
  have hindex : (s.deleteLocked c).taskIDCommitments =
      removeGroupIndexLocked s.taskIDCommitments (s.taskIDOf c) c := by
    rw [deleteLocked, taskIDOf]
    cases s.records.get c <;> rfl
  rw [Exact, hof, hindex]
  exact h.remove c

lemma exact_get (h : s.Exact) (c : Text) (now : Time) : (s.get c now).2.Exact := by
  unfold get
  split
  · exact h
  · split
    · exact h
    · exact exact_deleteLocked h c

lemma exact_collect (now : Time) (l : List Text) : ∀ s : TaskTraceStore π, s.Exact →
    (collect now l s).2.Exact := by
  induction l with
  | nil => exact fun s h => h
  | cons c l ih => exact fun s h => ih _ (exact_get h c now)

lemma exact_exec [Inhabited π] (op : TraceOp π) (h : s.Exact) : (op.exec s).Exact := by
  cases op with
  | upsert c now retention fn => exact exact_upsert h c now retention fn
  | get c now => exact exact_get h c now
  | getByTaskID it taskID now => exact exact_collect now _ s h
  | cleanupExpired it now => exact exact_collect now _ s h

/-! ## expired records -/

variable {now : Time}

/-- the record, if it is not expired. -/
def fresh (s : TaskTraceStore π) (now : Time) (c : Text) : Option (TaskTraceRecord π) :=
  (s.records.get c).filter fun r => now < r.expiresAt

lemma get_fst (s : TaskTraceStore π) (c : Text) : (s.get c now).1 = s.fresh now c := by
  unfold get fresh
  split
  · next h => simp [h]
  · next r h => split <;> simp [*, Option.filter_some]

lemma records_get (s : TaskTraceStore π) (c d : Text) :
    (s.get c now).2.records.get d = if d = c then s.fresh now d else s.records.get d := by
  by_cases hd : d = c
  · subst hd
    unfold get fresh
    split
    · next h => simp [h]
    · next r h => split <;> simp [*, Option.filter_some, deleteLocked, get_erase]
  · unfold get
    split
    · simp [hd]
    · split <;> simp [hd, deleteLocked, get_erase]

lemma records_collect (l : List Text) (d : Text) : ∀ s : TaskTraceStore π,
    (collect now l s).2.records.get d = if d ∈ l then s.fresh now d else s.records.get d := by
  induction l with
  | nil => exact fun s => rfl
  | cons c l ih =>
    intro s
    show (collect now l (s.get c now).2).2.records.get d = _
    rw [ih, fresh, records_get]
    by_cases hd : d = c
    · simp [hd, fresh]
    · simp [hd, fresh]

lemma collect_fst {l : List Text} (hl : l.Nodup) : ∀ s : TaskTraceStore π,
    (collect now l s).1 = l.filterMap (s.fresh now) := by
  induction l with
  | nil => exact fun s => rfl
  | cons c l ih =>
    intro s
    obtain ⟨hc, hl⟩ := nodup_cons.1 hl
    show (s.get c now).1.toList ++ (collect now l (s.get c now).2).1 = _
    have hfresh : ∀ d ∈ l, (s.get c now).2.fresh now d = s.fresh now d := by
      intro d hd
      rw [fresh, records_get, if_neg (ne_of_mem_of_not_mem hd hc)]
      rfl
    rw [ih hl, get_fst, filterMap_congr hfresh, filterMap_cons]
    cases s.fresh now c <;> rfl

lemma mem_group (h : s.Exact) :
    c ∈ s.group taskID ↔ taskID ≠ [] ∧ ∃ r, s.records.get c = some r ∧ r.taskID = taskID := by
  obtain ⟨tot, h⟩ := h
  have hmem : c ∈ s.group taskID ↔ (s.taskIDCommitments.lookup taskID c).isSome := by
    rw [group]
    cases hg : s.taskIDCommitments taskID with
    | none => simp [Nested.lookup_of_none hg]
    | some g => simp [Nested.lookup_of_some hg, g.mem_keys, Table.get]
  rw [hmem, h.lookup, taskIDOf]
  cases s.records.get c with
  | none => simp [eq_comm]
  | some r => simp

lemma mem_fresh : s.fresh now c = some r ↔ s.records.get c = some r ∧ now < r.expiresAt := by
  simp [fresh, filter_eq_some_iff]

variable (it : Iteration Text)

lemma lt_of_cleanupExpired (hr : (s.cleanupExpired it now).records.get c = some r) :
    now < r.expiresAt := by
  simp only [cleanupExpired, records_collect, (it.perm _).mem_iff] at hr
  split at hr
  · exact (mem_fresh.1 hr).2
  · next hc => exact absurd (mem_keys_of_get hr) hc

lemma nodup_order_group (taskID : Text) : (it.order (s.group taskID)).Nodup := by
  rw [(it.perm _).nodup_iff, group]
  cases s.taskIDCommitments taskID with
  | none => exact nodup_nil
  | some g => exact g.nodup

lemma mem_getByTaskID : r ∈ (s.getByTaskID it taskID now).1 ↔
    r.taskIDCommitment ∈ s.group taskID ∧ s.records.get r.taskIDCommitment = some r ∧
      now < r.expiresAt := by
  rw [getByTaskID, collect_fst (nodup_order_group it taskID), mem_filterMap]
  constructor
  · rintro ⟨c, hc, hr⟩
    obtain ⟨hget, hlt⟩ := mem_fresh.1 hr
    cases key_of_get hget
    exact ⟨(it.perm _).mem_iff.1 hc, hget, hlt⟩
  · rintro ⟨hc, hr⟩
    exact ⟨_, (it.perm _).mem_iff.2 hc, mem_fresh.2 hr⟩

lemma nodup_getByTaskID (taskID : Text) : (s.getByTaskID it taskID now).1.Nodup := by
  rw [getByTaskID, collect_fst (nodup_order_group it taskID)]
  refine (nodup_order_group it taskID).filterMap fun c d r hc hd => ?_
  rw [← key_of_get (mem_fresh.1 hc).1, ← key_of_get (mem_fresh.1 hd).1]

end TaskTraceStore

open TaskTraceStore

/-- **the index is exact after every run**, an upsert stores the record that it was given in its group, the cleanup
leaves nothing that is expired, and the lookup of a group returns each of its records that are not expired, and
drops the others. -/
theorem trace_index_exact [Inhabited π] (ops : List (TraceOp π)) :
    let s : TaskTraceStore π := run TraceOp.exec ops {}
    (∀ taskID c, c ∈ s.group taskID ↔
        taskID ≠ [] ∧ ∃ r, s.records.get c = some r ∧ r.taskID = taskID) ∧
      (∀ taskID g, s.taskIDCommitments taskID = some g → g.keys ≠ []) ∧
      (∀ c now retention fn, c ≠ [] → retention ≠ 0 →
        let old := (s.records.get c).getD ⟨c, [], now, now, now, default⟩
        let changed := fn old.taskID old.payload
        (s.upsert c now retention fn).records.get = Function.update s.records.get c
          (some ⟨c, changed.1, old.createdAt, now, now + retention, changed.2⟩) ∧
        ∀ taskID, c ∈ (s.upsert c now retention fn).group taskID ↔ taskID ≠ [] ∧ changed.1 = taskID) ∧
      (∀ it now, (∀ c r, (s.cleanupExpired it now).records.get c = some r → now < r.expiresAt) ∧
        ∀ taskID, ∀ c ∈ (s.cleanupExpired it now).group taskID,
          ∃ r, (s.cleanupExpired it now).records.get c = some r ∧ now < r.expiresAt) ∧
      ∀ it taskID now, (s.getByTaskID it taskID now).1.Nodup ∧
        (∀ r, r ∈ (s.getByTaskID it taskID now).1 ↔ r.taskIDCommitment ∈ s.group taskID ∧
          s.records.get r.taskIDCommitment = some r ∧ now < r.expiresAt) ∧
        ∀ c, (s.getByTaskID it taskID now).2.records.get c =
          if c ∈ s.group taskID then (s.records.get c).filter (now < ·.expiresAt)
          else s.records.get c := by
  intro s
  have hs : s.Exact := run_invariant (fun _ op h _ => exact_exec op h) ops _
    (Along.of_forall (fun _ _ => trivial) ops _)
    ⟨_, Nested.exact_empty.congr (fun _ _ => if_neg fun h => h.1 h.2.symm) fun _ => rfl⟩
  refine ⟨fun _ _ => mem_group hs, ?_, fun c now retention fn hc hretention => ?_,
    fun it now => ⟨fun c r => lt_of_cleanupExpired it, ?_⟩,
    fun it taskID now => ⟨nodup_getByTaskID it taskID, fun r => mem_getByTaskID it, ?_⟩⟩
  · obtain ⟨tot, h⟩ := hs
    exact h.nonempty
  · intro old changed
    refine (fun hrecords => ⟨hrecords, fun taskID => ?_⟩) ?_
    · funext d
      simp only [upsert, if_neg (not_or.2 ⟨hc, hretention⟩), get_put, update_apply, (s.upserted c now).1]
      rfl
    · rw [mem_group (exact_upsert hs c now retention fn), hrecords, update_self]
      simp
  · intro taskID c hc
    obtain ⟨-, r, hr, -⟩ := (mem_group (exact_collect now _ s hs)).1 hc
    exact ⟨r, hr, lt_of_cleanupExpired it hr⟩
  · intro c
    simp only [getByTaskID, records_collect, (it.perm _).mem_iff]
    rfl

/-- a record with the group `g`, which is moved to the group `h`. -/
def movedTrace : List (TraceOp Unit) :=
  [.upsert ['c'] 0 60 fun _ p => (['g'], p), .upsert ['c'] 5 60 fun _ p => (['h'], p)]

theorem trace_index_exact_at_moved :
    ['c'] ∉ (run TraceOp.exec movedTrace {}).group ['g'] ∧ ['c'] ∈ (run TraceOp.exec movedTrace {}).group ['h'] := by
  have hmoved := ((trace_index_exact (movedTrace.take 1)).2.2.1 ['c'] 5 60 (fun _ p => (['h'], p)) (by decide)
    (by decide)).2
  exact ⟨fun hg => absurd ((hmoved ['g']).1 hg).2 (by decide), (hmoved ['h']).2 ⟨by decide, rfl⟩⟩

end CrynuxRelay
