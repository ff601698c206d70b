import CrynuxRelay.Matching.Rounds

/-!
# A task that fails holds up the queue behind it

* `LeaveQueue` -- the queue while tasks of a page are aborted; `matchPages_eq` -- the pages of the
  database are the chunks of its queue;
* `Dispatched` -- a round leaves no task waiting next to a free candidate;
* `dispatched_iff` -- with a task in the queue that always fails, nothing behind it is started, and
  the round dispatches the others only when there is nothing to dispatch, or when the pages before the
  page of that task use up the nodes;
* `failing_task_stops_dispatch` -- a queue that is never served.
-/

namespace CrynuxRelay

open List Option Table Tx

variable {w : World} {round' : MatchingRound} {last : Option (Int × Nat)}
  {entries : List NodeIndexEntry}
  {db db' : Db} {tasks : List InferenceTask} {t : InferenceTask} {w' : World}
    {round : MatchingRound}

/-! ## the queue while tasks are aborted -/

def queuedTasks (db : Db) : List InferenceTask := db.tasks.rows.filter fun t => t.status = .queued

/-- of the given tasks some have left the queue, and nothing else has changed. -/
structure LeaveQueue (tasks : List InferenceTask) (db db' : Db) : Prop where
  keys : db'.tasks.keys = db.tasks.keys
  rows : ∀ c, db'.tasks.get c = db.tasks.get c ∨
    (c ∈ tasks.map (·.taskIDCommitment) ∧ ∀ t, db'.tasks.get c = some t → t.status ≠ .queued)

lemma LeaveQueue.refl (tasks : List InferenceTask) (db : Db) : LeaveQueue tasks db db :=
  ⟨rfl, fun _ => .inl rfl⟩

lemma LeaveQueue.trans {l l' : List InferenceTask} {db'' : Db} (h : LeaveQueue l db db')
    (h' : LeaveQueue l' db' db'') : LeaveQueue (l ++ l') db db'' := by
  refine ⟨h'.keys.trans h.keys, fun c => ?_⟩
  rw [map_append]
  rcases h'.rows c with he | ⟨hc, hq⟩
  · rcases h.rows c with he' | ⟨hc, hq⟩
    · exact .inl (he.trans he')
    · exact .inr ⟨mem_append_left _ hc, fun t ht => hq t (he ▸ ht)⟩
  · exact .inr ⟨mem_append_right _ hc, hq⟩

lemma filter_queuedTasks (db : Db) (p : InferenceTask → Bool) :
    (queuedTasks db).filter p = db.tasks.keys.filterMap fun c =>
      (db.tasks.get c).filter fun t => decide (t.status = .queued) && p t := by
  rw [queuedTasks, List.filter_filter, Table.rows, filter_filterMap]
  refine filterMap_congr fun c _ => ?_
  show ((db.tasks.get c).filter _) = _
  congr 1
  funext t
  rw [Bool.and_comm]

lemma LeaveQueue.filter_eq (h : LeaveQueue tasks db db') {p : InferenceTask → Bool}
    (hin : ∀ t ∈ tasks, db.tasks.get t.taskIDCommitment = some t) (hp : ∀ t ∈ tasks, p t = false) :
    (queuedTasks db').filter p = (queuedTasks db).filter p := by
  rw [filter_queuedTasks, filter_queuedTasks, h.keys]
  refine filterMap_congr fun c _ => ?_
  rcases h.rows c with he | ⟨hc, hq⟩
  · rw [he]
  · obtain ⟨t, ht, rfl⟩ := List.mem_map.1 hc
    rw [hin t ht]
    have hbefore : (some t).filter (fun t => decide (t.status = .queued) && p t) = none := by
      simp [hp t ht]
    rw [hbefore]
    cases hrow : db'.tasks.get t.taskIDCommitment with
    | none => rfl
    | some u => simp [hq u hrow]

lemma LeaveQueue.mem (h : LeaveQueue tasks db db') (ht : t ∈ queuedTasks db') :
    t ∈ queuedTasks db := by
  obtain ⟨hrow, hst⟩ := mem_filter.1 ht
  have hget : db'.tasks.get t.taskIDCommitment = some t := mem_rows.1 hrow
  rcases h.rows t.taskIDCommitment with he | ⟨-, hq⟩
  · exact mem_filter.2 ⟨mem_rows.2 (he ▸ hget), hst⟩
  · exact absurd (of_decide_eq_true hst) (hq t hget)

lemma leaveQueue_abort {env : Env} {reason : TaskAbortReason} {u : Unit}
    (h : Ok (setTaskStatusEndAborted env { t with abortReason := reason }) w u w') :
    LeaveQueue [t] w.db w'.db := by
  rcases setTaskStatusEndAborted_ok h with ⟨-, rfl⟩ | ⟨-, -, ds, -, hm, -⟩
  · exact LeaveQueue.refl _ _
  · refine ⟨hm.keys, fun c => ?_⟩
    have hrow := hm.tasks c
    by_cases hc : c = t.taskIDCommitment
    · refine .inr ⟨mem_singleton.2 hc, fun u hu => ?_⟩
      rw [hrow, if_pos hc] at hu
      obtain ⟨v, -, rfl⟩ := map_eq_some_iff.1 hu
      exact fun hq => TaskStatus.noConfusion hq
    · exact .inl (hrow.trans (if_neg hc))

namespace RoundInput

variable {r : RoundInput}

lemma leaveQueue_matchTasks
    (h : Ok (r.matchTasks tasks round) w round' w') : LeaveQueue tasks w.db w'.db := by
  induction tasks generalizing round w with
  | nil =>
    obtain ⟨-, rfl⟩ := ok_pure.1 h
    exact LeaveQueue.refl _ _
  | cons t l ih =>
    obtain ⟨round1, w1, ht, hl⟩ := ok_bind.1 h
    have hleave : LeaveQueue [t] w.db w1.db := by
      rcases r.processTask_ok ht with ⟨-, -, rfl | habort⟩ | ⟨-, -, rfl⟩ | ⟨-, -, -, rfl⟩
      · exact LeaveQueue.refl _ _
      · exact leaveQueue_abort habort
      all_goals exact LeaveQueue.refl _ _
    exact hleave.trans (ih hl)

/-! ## pages -/

variable (r)

def queue (db : Db) : List InferenceTask :=
  (db.tasks.rows.filter fun t => t.status = .queued).insertionSort fun t u =>
    r.orderKey t ≤ r.orderKey u

def cursorKey (last : Int × Nat) : Int ×ₗ Nat := toLex (-last.1, last.2)

def ahead (db : Db) (last : Option (Int × Nat)) : List InferenceTask :=
  Keyset.ahead r.orderKey (last.map cursorKey) (queuedTasks db)

lemma fetchQueuedTaskPage_eq (db : Db) (last : Option (Int × Nat)) :
    r.fetchQueuedTaskPage db last = (r.ahead db last).take r.batchSize := by
  have hcond : (fun t : InferenceTask => last.all fun c =>
      decide (r.priority t.taskIDCommitment < c.1 ∨
        (r.priority t.taskIDCommitment = c.1 ∧ c.2 < t.id))) =
      fun t => (last.map cursorKey).all fun k => decide (k < r.orderKey t) := by
    funext t
    cases last with
    | none => rfl
    | some c =>
      show decide _ = decide (cursorKey c < r.orderKey t)
      refine decide_eq_decide.2 ?_
      rw [cursorKey, orderKey, Prod.Lex.toLex_lt_toLex]
      omega
  rw [fetchQueuedTaskPage]
  simp only [hcond]
  rfl

lemma queue_eq_ahead (db : Db) : r.queue db = r.ahead db none := by
  have hall : Keyset.above r.orderKey none (queuedTasks db) = queuedTasks db :=
    filter_eq_self.2 fun t _ => rfl
  rw [ahead, Keyset.ahead, map_none, hall]
  rfl

def IdsDistinct (db : Db) : Prop :=
  ∀ t ∈ queuedTasks db, ∀ u ∈ queuedTasks db, t.id = u.id → t = u

lemma nodup_orderKey (h : IdsDistinct db) : ((queuedTasks db).map r.orderKey).Nodup := by
  have hnd : (queuedTasks db).Nodup := (List.Nodup.of_map _ db.tasks.nodup_map_key_rows).filter _
  refine List.Nodup.map_on (fun t ht u hu hkey => h t ht u hu ?_) hnd
  have hpair : (-r.priority t.taskIDCommitment, t.id) = (-r.priority u.taskIDCommitment, u.id) :=
    toLex.injective hkey
  exact congrArg Prod.snd hpair

variable {r}

lemma ahead_after_page (hids : IdsDistinct db)
    (hleave : LeaveQueue ((r.ahead db last).take r.batchSize) db db')
    (hne : (r.ahead db last).take r.batchSize ≠ []) :
    r.ahead db' (((r.ahead db last).take r.batchSize).getLast?.map fun t =>
      (r.priority t.taskIDCommitment, t.id)) = (r.ahead db last).drop r.batchSize := by
  have hnd := r.nodup_orderKey hids
  have hsorted : (r.ahead db last).Pairwise fun t u => r.orderKey t < r.orderKey u :=
    Keyset.pairwise_ahead hnd
  obtain ⟨init, x, hpage⟩ := (eq_nil_or_concat' _).resolve_left hne
  have hsplit : r.ahead db last = init ++ x :: (r.ahead db last).drop r.batchSize := by
    have h := (take_append_drop r.batchSize (r.ahead db last)).symm
    rwa [hpage, append_assoc] at h
  have hle : ∀ t ∈ (r.ahead db last).take r.batchSize, ¬ r.orderKey x < r.orderKey t := by
    intro t ht
    rw [hsplit] at hsorted
    rw [hpage] at ht
    rcases mem_append.1 ht with ht | ht
    · exact ((pairwise_append.1 hsorted).2.2 t ht x mem_cons_self).asymm
    · rw [mem_singleton.1 ht]
      exact lt_irrefl _
  have hrow : ∀ t ∈ (r.ahead db last).take r.batchSize, db.tasks.get t.taskIDCommitment = some t := by
    intro t ht
    have hmem := (mem_insertionSort _).1 (mem_of_mem_take ht)
    exact mem_rows.1 (mem_filter.1 (mem_filter.1 hmem).1).1
  have habove : Keyset.above r.orderKey (some (r.orderKey x)) (queuedTasks db') =
      Keyset.above r.orderKey (some (r.orderKey x)) (queuedTasks db) :=
    hleave.filter_eq hrow fun t ht => decide_eq_false (hle t ht)
  rw [hpage, getLast?_concat]
  show Keyset.ahead r.orderKey (some (r.orderKey x)) (queuedTasks db') = _
  rw [Keyset.ahead, habove]
  exact Keyset.ahead_last hnd hsplit

/-- **the pages of the database are the chunks of its queue**, while tasks of earlier pages leave. -/
theorem matchPages_eq {fuel : Nat} (hids : IdsDistinct w.db) :
    r.matchPages fuel last round w = r.matchChunks fuel (r.ahead w.db last) round w := by
  induction fuel generalizing last round w with
  | zero => rfl
  | succ fuel ih =>
    have hread : r.matchPages (fuel + 1) last round w =
        (if (r.ahead w.db last).take r.batchSize = [] then pure round
        else do
          let round' ← r.matchTasks ((r.ahead w.db last).take r.batchSize) round
          if ((r.ahead w.db last).take r.batchSize).length < r.batchSize ∨
              round'.hasUnreservedEligibleNode = false then pure round'
          else r.matchPages fuel (((r.ahead w.db last).take r.batchSize).getLast?.map fun t =>
            (r.priority t.taskIDCommitment, t.id)) round' : Relay MatchingRound) w := by
      rw [matchPages, ← r.fetchQueuedTaskPage_eq]
      rfl
    rw [hread, matchChunks]
    have hpos := r.batchSize_pos
    by_cases hnil : r.ahead w.db last = []
    · rw [if_pos hnil, if_pos (by rw [hnil, take_nil])]
    · have hne : (r.ahead w.db last).take r.batchSize ≠ [] := by
        rw [Ne, take_eq_nil_iff]
        rintro (h0 | h0)
        · omega
        · exact hnil h0
      rw [if_neg hnil, if_neg hne]
      apply bind_congr_ok
      intro round' w' hok
      have hleave := leaveQueue_matchTasks hok
      split
      · rfl
      · rw [ih fun t ht u hu => hids t (hleave.mem ht) u (hleave.mem hu),
          ahead_after_page hids hleave hne]

/-! ## what a round is for -/

section
variable (r)

def started (entries : List NodeIndexEntry) (w : World) : List MatchedPair :=
  match (r.matchQueue entries w).1 with
  | .ok round => round.pairs
  | .error _ => []

/-- every queued task that can be matched is started, unless its candidates are taken by tasks that
are. -/
def Dispatched (entries : List NodeIndexEntry) (w : World) : Prop :=
  ∀ t ∈ r.queue w.db, r.Dispatchable t → (∃ pair ∈ r.started entries w, pair.task = t) ∨
      ∀ e ∈ r.candidatesOf entries t, e.address ∈ (r.started entries w).map (·.nodeAddress)

/-- what a round does to the world: phase one, and then the starts of `started`. -/
lemma runMatchingRound_after (entries : List NodeIndexEntry) (w : World) :
    after (r.runMatchingRound entries) w =
      after (r.startMatchedPairs (r.started entries w)) (after (r.matchQueue entries) w) := by
  rcases hq : r.matchQueue entries w with ⟨res, w'⟩
  cases res with
  | error e =>
    have hfail : Fails (r.runMatchingRound entries) w e w' := fails_bind.2 (.inl hq)
    rw [hfail.after_eq, started, Tx.after, Tx.after, hq]
    rfl
  | ok round =>
    rw [started, hq]
    show after (r.runMatchingRound entries) w =
      after (r.startMatchedPairs round.pairs) (r.matchQueue entries w).2
    rw [hq]
    rcases ok_or_fails (r.startMatchedPairs round.pairs) w' with ⟨u, hs⟩ | ⟨e, hs⟩
    · have hall : Ok (r.runMatchingRound entries) w round.pairs.length _ :=
        ok_bind.2 ⟨round, w', hq, ok_bind.2 ⟨u, _, hs, ok_pure.2 ⟨rfl, rfl⟩⟩⟩
      exact hall.after_eq
    · have hall : Fails (r.runMatchingRound entries) w e _ :=
        fails_bind.2 (.inr ⟨round, w', hq, fails_bind.2 (.inl hs)⟩)
      exact hall.after_eq

end

/-! ## a task that always fails -/

variable (r) in
/-- the given tasks, taken alone, use up the nodes of the index. -/
def UsesUpNodes (entries : List NodeIndexEntry) (tasks : List InferenceTask) (w : World) : Prop :=
  ∃ round w', Ok (r.matchChunks (tasks.length + 1) tasks { entries := entries }) w round w' ∧
    round.hasUnreservedEligibleNode = false

lemma matchQueue_eq (hids : IdsDistinct w.db) : r.matchQueue entries w =
      r.matchChunks (w.db.tasks.rows.length + 1) (r.queue w.db) { entries := entries } w := by
  rw [queue_eq_ahead]
  exact matchPages_eq hids

lemma length_queue_le (db : Db) : (r.queue db).length ≤ db.tasks.rows.length := by
  rw [queue, length_insertionSort]
  exact length_filter_le _ _

variable (r) in
lemma started_cases (entries : List NodeIndexEntry) (w : World) :
    (∃ round w', Ok (r.matchQueue entries) w round w' ∧ r.started entries w = round.pairs) ∨
      ((∃ e w', Fails (r.matchQueue entries) w e w') ∧ r.started entries w = []) := by
  rcases hq : r.matchQueue entries w with ⟨res, w'⟩
  rw [started, hq]
  cases res with
  | ok round => exact .inl ⟨round, w', hq, rfl⟩
  | error e => exact .inr ⟨⟨e, w', hq⟩, rfl⟩

lemma candidates_nil_of_full
    (h : ({ entries := entries } : MatchingRound).hasUnreservedEligibleNode = false)
    (t : InferenceTask) : r.candidatesOf entries t = [] := by
  refine eq_nil_iff_forall_not_mem.2 fun e he => ?_
  exact absurd ((roundInv_start (r := r) entries).taken h he) not_mem_nil

lemma dispatched_of_ok (hids : IdsDistinct w.db)
    (hok : Ok (r.matchQueue entries) w round w') (hstarted : r.started entries w = round.pairs) :
    r.Dispatched entries w := by
  rw [Ok, matchQueue_eq hids] at hok
  obtain ⟨read, unread, hsplit, hinv, hend⟩ := (roundInv_start entries).matchChunks
    (Nat.lt_succ_of_le (length_queue_le w.db)) hok
  intro t ht hd
  rw [hstarted]
  rcases hend with rfl | hfull
  · rw [append_nil] at hsplit
    exact hinv.served t (hsplit ▸ ht) hd
  · exact .inr fun e he => hinv.taken hfull he

section failing

variable (hids : IdsDistinct w.db) {i : Nat} (hi : (r.queue w.db)[i]? = some t)
  (hfail : r.AlwaysFails t)
include hids hi hfail

/-- phase one succeeds exactly when it stops before the page of the failing task. -/
lemma matchQueue_ok_iff
    (hfree : ({ entries := entries } : MatchingRound).hasUnreservedEligibleNode = true)
    (round : MatchingRound) (w' : World) :
    Ok (r.matchQueue entries) w round w' ↔
      Ok (r.matchChunks (((r.queue w.db).take (i / r.batchSize * r.batchSize)).length + 1)
        ((r.queue w.db).take (i / r.batchSize * r.batchSize)) { entries := entries }) w round w' ∧
        round.hasUnreservedEligibleNode = false := by
  have hpos := r.batchSize_pos
  have hlt : i < (r.queue w.db).length := (List.getElem?_eq_some_iff.1 hi).1
  have hdiv : i / r.batchSize * r.batchSize ≤ i := Nat.div_mul_le_self i r.batchSize
  have hnext : i < i / r.batchSize * r.batchSize + r.batchSize := Nat.lt_div_mul_add hpos
  have hlen : ((r.queue w.db).take (i / r.batchSize * r.batchSize)).length =
      i / r.batchSize * r.batchSize := by
    rw [length_take]
    omega
  -- the failing task is on the first page of what is left
  have hmem : t ∈ ((r.queue w.db).drop (i / r.batchSize * r.batchSize)).take r.batchSize := by
    generalize i / r.batchSize * r.batchSize = p at hdiv hnext ⊢
    refine mem_of_getElem? (i := i - p) ?_
    rw [getElem?_take_of_lt (by omega), getElem?_drop, show p + (i - p) = i from by omega]
    exact hi
  have hbound : (r.queue w.db).length ≤ w.db.tasks.rows.length := length_queue_le w.db
  have hfuel : ((r.queue w.db).take (i / r.batchSize * r.batchSize)).length <
      w.db.tasks.rows.length + 1 := by omega
  rw [← (roundInv_start entries).matchChunks_iff hfree hlen hfuel hmem hfail (Nat.lt_succ_self _),
    take_append_drop, Ok, matchQueue_eq hids]
  rfl

lemma started_before {pair : MatchedPair} (hpair : pair ∈ r.started entries w) :
    pair.task ∈ (r.queue w.db).take i := by
  rcases r.started_cases entries w with ⟨round, w', hok, hs⟩ | ⟨-, hs⟩
  · rw [hs] at hpair
    cases hfree : ({ entries := entries } : MatchingRound).hasUnreservedEligibleNode with
    | false =>
      rw [Ok, matchQueue_eq hids] at hok
      obtain ⟨read, unread, -, hinv, -⟩ := (roundInv_start entries).matchChunks
        (Nat.lt_succ_of_le (length_queue_le w.db)) hok
      exact absurd (candidates_nil_of_full hfree _) (hinv.pairs pair hpair).2
    | true =>
      obtain ⟨hok, -⟩ := (matchQueue_ok_iff hids hi hfail hfree round w').1 hok
      obtain ⟨read, unread, hread, hinv, -⟩ := (roundInv_start entries).matchChunks
        (Nat.lt_succ_self _) hok
      have hin : pair.task ∈ (r.queue w.db).take (i / r.batchSize * r.batchSize) := by
        rw [hread]
        exact mem_append_left _ (hinv.pairs pair hpair).1
      exact take_subset_take_left _ (Nat.div_mul_le_self i r.batchSize) hin
  · rw [hs] at hpair
    exact absurd hpair not_mem_nil

end failing

lemma dispatched_of_no_candidates (h : ∀ u ∈ r.queue w.db, r.Dispatchable u →
    r.candidatesOf entries u = []) : r.Dispatched entries w := by
  intro u hu hd
  rw [h u hu hd]
  exact .inr nofun

/-- **a task that always fails stops the queue**: no task from it on is started, and the round
dispatches the queue only if no task has a candidate, or if the pages before the page of that task use up
the nodes. -/
theorem dispatched_iff (r : RoundInput) (entries : List NodeIndexEntry) (w : World)
    (hids : IdsDistinct w.db) {i : Nat} {t : InferenceTask} (hi : (r.queue w.db)[i]? = some t)
    (hfail : r.AlwaysFails t) : (∀ pair ∈ r.started entries w, pair.task ∈ (r.queue w.db).take i) ∧
      (r.Dispatched entries w ↔
        (∀ u ∈ r.queue w.db, r.Dispatchable u → r.candidatesOf entries u = []) ∨
          r.UsesUpNodes entries ((r.queue w.db).take (i / r.batchSize * r.batchSize)) w) := by
  refine ⟨fun pair hpair => started_before hids hi hfail hpair, ?_⟩
  cases hfree : ({ entries := entries } : MatchingRound).hasUnreservedEligibleNode with
  | false =>
    have hnone : ∀ u ∈ r.queue w.db, r.Dispatchable u → r.candidatesOf entries u = [] :=
      fun u _ _ => candidates_nil_of_full hfree u
    exact ⟨fun _ => .inl hnone, fun _ => dispatched_of_no_candidates hnone⟩
  | true =>
    have hiff := matchQueue_ok_iff hids hi hfail hfree
    constructor
    · intro hdisp
      rcases r.started_cases entries w with ⟨round, w', hok, -⟩ | ⟨-, hs⟩
      · exact .inr ⟨round, w', (hiff round w').1 hok⟩
      · refine .inl fun u hu hd => eq_nil_iff_forall_not_mem.2 fun e he => ?_
        rw [Dispatched, hs] at hdisp
        rcases hdisp u hu hd with ⟨pair, hpair, -⟩ | hall
        · exact absurd hpair not_mem_nil
        · exact absurd (hall e he) not_mem_nil
    · rintro (hnone | ⟨round, w', hok, hfull⟩)
      · exact dispatched_of_no_candidates hnone
      · have hphase := (hiff round w').2 ⟨hok, hfull⟩
        refine dispatched_of_ok hids hphase ?_
        rw [started, hphase]

end RoundInput

/-! ## a queue that is never served -/

def queuedTask (id : Nat) (c : Char) : InferenceTask :=
  { id := id, taskIDCommitment := [c], creator := ['c'], taskFee := 1 }

def unreadableRound (batchSize : Nat) (h : 0 < batchSize) : RoundInput where
  env := {}
  batchSize := batchSize
  batchSize_pos := h
  modelCheckError := fun t => if t.taskIDCommitment = ['f'] then some (.validationError "task_args" "invalid") else none

def freeNode (c : Char) : NodeIndexEntry :=
  buildNodeIndexEntry { address := [c], status := .available } []

def blockedQueue : World :=
  ⟨{ tasks := ((Table.empty.insert (queuedTask 1 'a')).insert (queuedTask 2 'f')).insert
      (queuedTask 3 'b') }, {}⟩

lemma blockedQueue_idsDistinct : RoundInput.IdsDistinct blockedQueue.db := by
  unfold RoundInput.IdsDistinct
  decide +kernel

/-- a round in which task `f` is not allowed and cannot be aborted. -/
def lockedRound : RoundInput where
  env := { taskModelsAllowed := fun t => t.taskIDCommitment ≠ ['f'] }
  batchSize := 1
  batchSize_pos := Nat.one_pos
  abortError := fun _ => some .invalidStatement

/-- with one node and pages of one task, the page before the failing task uses up the node. -/
theorem dispatched_iff_at_oneNode : lockedRound.Dispatched [freeNode 'n'] blockedQueue ∧
    (unreadableRound 1 Nat.one_pos).Dispatched [freeNode 'n'] blockedQueue :=
  ⟨(lockedRound.dispatched_iff [freeNode 'n'] blockedQueue blockedQueue_idsDistinct (i := 1) rfl
      ⟨rfl, .inr (.inl ⟨rfl, some_ne_none _⟩)⟩).2.2 (.inr ⟨_, _, rfl, rfl⟩),
    ((unreadableRound 1 Nat.one_pos).dispatched_iff [freeNode 'n'] blockedQueue
      blockedQueue_idsDistinct (i := 1) rfl ⟨rfl, .inl (some_ne_none _)⟩).2.2 (.inr ⟨_, _, rfl, rfl⟩)⟩

/-- **one task stops the dispatch**: however often the round is repeated, neither task `a`, which it
matches, nor task `b` is started, with two free nodes that are candidates of both. -/
theorem failing_task_stops_dispatch :
    (∀ n, (fun w => after ((unreadableRound 10 (by decide)).runMatchingRound
        [freeNode 'n', freeNode 'm']) w)^[n] blockedQueue = blockedQueue) ∧
      (unreadableRound 10 (by decide)).candidatesOf [freeNode 'n', freeNode 'm'] (queuedTask 1 'a') =
        [freeNode 'n', freeNode 'm'] ∧
      (unreadableRound 10 (by decide)).candidatesOf [freeNode 'n', freeNode 'm'] (queuedTask 3 'b') =
        [freeNode 'n', freeNode 'm'] := by
  have hround : after ((unreadableRound 10 (by decide)).runMatchingRound
      [freeNode 'n', freeNode 'm']) blockedQueue = blockedQueue := rfl
  exact ⟨fun n => Function.iterate_fixed hround n, by decide +kernel, by decide +kernel⟩

end CrynuxRelay
