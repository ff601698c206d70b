import Mathlib.Algebra.BigOperators.Ring.List
import Mathlib.Algebra.Order.Ring.Int
import CrynuxRelay.Accounts.Reasons
import CrynuxRelay.Tasks.Effects

/-!
# The books of a task

What the events of the log say about a task, and how a step of the relay keeps them in line with the
row of the task.

* `Evolves`, `Evolution` -- what any step may do to a row: a task that has left the queue keeps its
  node, and a task that has ended keeps its status;
* `Accounted` -- an event of a task is backed by the row of that task;
* `RowBooks` -- the events that a row demands: the payment, the refund, the incomes of a timeout;
* `TaskEffect` -- a step as the books see it; steps compose (`TaskEffect.trans`) and keep the books
  (`Books.step`);
* `taskIncome_split` -- how an income is split between the DAO, the delegators and the node.
-/

namespace CrynuxRelay

open List Table

variable {st : TaskStatus} {address c network : Text} {ds l : List EventDraft} {w w' : World}
  {env : Env} {amount x : Int}
  {t t' : InferenceTask} {db db' : Db} {d : EventDraft}

/-! ## the course of a row -/

def TaskStatus.isValidated : TaskStatus → Bool
  | .validated | .groupValidated => true
  | _ => false

structure Evolves (t t' : InferenceTask) : Prop where
  id : t'.id = t.id
  taskIDCommitment : t'.taskIDCommitment = t.taskIDCommitment
  creator : t'.creator = t.creator
  taskFee : t'.taskFee = t.taskFee
  left : t.status ≠ .queued → t'.status ≠ .queued ∧ t'.selectedNode = t.selectedNode
  revealed : t.status.isValidated = true →
    t'.status.isTerminal = true ∨ (t'.status.isValidated = true ∧ t'.taskID = t.taskID)
  ended : t.status.isTerminal = true → t'.status = t.status ∧ t'.abortReason = t.abortReason ∧
    (t.status ≠ .endAborted → t'.taskID = t.taskID)

lemma TaskStatus.not_terminal_of_validated (h : st.isValidated = true) : st.isTerminal = false := by
  cases st <;> first | rfl | cases h

lemma TaskStatus.ne_queued_of_terminal (h : st.isTerminal = true) : st ≠ .queued := by
  rintro rfl
  cases h

lemma Evolves.refl (t : InferenceTask) : Evolves t t :=
  ⟨rfl, rfl, rfl, rfl, fun h => ⟨h, rfl⟩, fun h => .inr ⟨h, rfl⟩, fun _ => ⟨rfl, rfl, fun _ => rfl⟩⟩

lemma Evolves.trans {t'' : InferenceTask} (h : Evolves t t') (h' : Evolves t' t'') :
    Evolves t t'' where
  id := h'.id.trans h.id
  taskIDCommitment := h'.taskIDCommitment.trans h.taskIDCommitment
  creator := h'.creator.trans h.creator
  taskFee := h'.taskFee.trans h.taskFee
  left := fun hq => by
    obtain ⟨hq', hs⟩ := h.left hq
    obtain ⟨hq'', hs'⟩ := h'.left hq'
    exact ⟨hq'', hs'.trans hs⟩
  revealed := fun hv => by
    rcases h.revealed hv with hterm | ⟨hv', hid⟩
    · refine .inl ?_
      rwa [(h'.ended hterm).1]
    · rcases h'.revealed hv' with hterm | ⟨hv'', hid'⟩
      · exact .inl hterm
      · exact .inr ⟨hv'', hid'.trans hid⟩
  ended := fun hterm => by
    obtain ⟨hs, hr, hid⟩ := h.ended hterm
    obtain ⟨hs', hr', hid'⟩ := h'.ended (hs ▸ hterm)
    refine ⟨hs'.trans hs, hr'.trans hr, fun hne => ?_⟩
    exact (hid' (hs ▸ hne)).trans (hid hne)

lemma evolves_of_running (hterm : t.status.isTerminal = false) (hid : t'.id = t.id)
    (hc : t'.taskIDCommitment = t.taskIDCommitment) (hcr : t'.creator = t.creator)
    (hfee : t'.taskFee = t.taskFee) (hleft : t'.status ≠ .queued ∧ t'.selectedNode = t.selectedNode)
    (hv : t.status.isValidated = true → t'.status.isTerminal = true) : Evolves t t' :=
  ⟨hid, hc, hcr, hfee, fun _ => hleft, fun h => .inl (hv h), fun h => by rw [hterm] at h; cases h⟩

/-- every row is still there, further on its course. -/
def Evolution (db db' : Db) : Prop :=
  ∀ c t, db.tasks.get c = some t → ∃ t', db'.tasks.get c = some t' ∧ Evolves t t'

lemma Evolution.of_eq (h : db'.tasks = db.tasks) : Evolution db db' :=
  fun c t ht => ⟨t, by rw [h]; exact ht, Evolves.refl t⟩

lemma Evolution.trans {db'' : Db} (h : Evolution db db') (h' : Evolution db' db'') :
    Evolution db db'' := by
  intro c t ht
  obtain ⟨t', ht', he⟩ := h c t ht
  obtain ⟨t'', ht'', he'⟩ := h' c t' ht'
  exact ⟨t'', ht'', he.trans he'⟩

lemma Rewrites.evolution {f : InferenceTask → InferenceTask} (hm : Rewrites c f ds w w') (ht : w.db.tasks.get c = some t)
    (he : Evolves t (f t)) : Evolution w.db w'.db := by
  intro j u hu
  by_cases hj : j = c
  · subst hj
    rw [ht] at hu
    cases hu
    exact ⟨f t, hm.row ht, he⟩
  · exact ⟨u, (hm.other hj).trans hu, Evolves.refl u⟩

/-! ## events of tasks -/

/-- an income event names its task in its reason, next to the delegator it may be for. -/
def EventDraft.isIncomeOf (d : EventDraft) (c : Text) : Bool :=
  match d.type with
  | .taskIncome | .daoTaskShare => d.reason = reason2 d.type c
  | .userDelegation => d.reason = reason3 d.type c d.address
  | _ => false

lemma isIncomeOf_unique {c' : Text} (h : d.isIncomeOf c = true) (h' : d.isIncomeOf c' = true) :
    c = c' := by
  unfold EventDraft.isIncomeOf at h h'
  split at h
  iterate 2
    next hty =>
      rw [hty] at h h'
      have h := of_decide_eq_true h
      exact (reason2_inj.1 (h.symm.trans (of_decide_eq_true h'))).2
  · next hty =>
    rw [hty] at h h'
    have h := of_decide_eq_true h
    exact append_cancel_right (reason2_inj.1 (h.symm.trans (of_decide_eq_true h'))).2
  · cases h

lemma taskIncomeEvents_isIncomeOf
    (h : d ∈ taskIncomeEvents env c address amount network) : d.isIncomeOf c = true := by
  rcases mem_append.1 h with h | h
  · obtain ⟨p, -, rfl⟩ := mem_map.1 h
    exact decide_eq_true rfl
  · simp only [mem_cons, not_mem_nil, or_false] at h
    rcases h with rfl | rfl
    all_goals exact decide_eq_true rfl

lemma ofTask_of_isIncomeOf (h : d.isIncomeOf c = true) : d.type.ofTask = true := by
  unfold EventDraft.isIncomeOf at h
  split at h
  · next hty => rw [hty]; rfl
  · next hty => rw [hty]; rfl
  · next hty => rw [hty]; rfl
  · cases h

/-! ## events backed by rows -/

/-- the fee of the task has gone to nodes: its own success, the success of the representative of its
group, or the timeout of its creator. -/
def IncomeSettled (db : Db) (t : InferenceTask) : Prop :=
  t.status = .endSuccess ∨ t.status = .endGroupSuccess ∨
    (t.status = .endGroupRefund ∧ ∃ c r, db.tasks.get c = some r ∧ r.taskID = t.taskID ∧
      r.status = .endGroupSuccess) ∨
    (t.status = .endAborted ∧ t.abortReason = .creatorValidationTimeout)

lemma IncomeSettled.terminal (h : IncomeSettled db t) : t.status.isTerminal = true := by
  rcases h with h | h | ⟨h, -⟩ | ⟨h, -⟩
  all_goals
    rw [h]
    rfl

lemma taskRefundAllowed_iff : taskRefundAllowed t = true ↔ t.status = .endGroupRefund ∨
      (t.status = .endAborted ∧ t.abortReason ≠ .creatorValidationTimeout) := by
  rw [taskRefundAllowed, decide_eq_true_eq]

lemma taskRefundAllowed_terminal (h : taskRefundAllowed t = true) : t.status.isTerminal = true := by
  rcases taskRefundAllowed_iff.1 h with h | ⟨h, -⟩
  all_goals
    rw [h]
    rfl

lemma IncomeSettled.evolution (hev : Evolution db db') (he : Evolves t t')
    (h : IncomeSettled db t) : IncomeSettled db' t' := by
  obtain ⟨hs, hr, hid⟩ := he.ended h.terminal
  rcases h with h | h | ⟨h, c, r, hrow, hrid, hrs⟩ | ⟨h, hreason⟩
  · exact .inl (hs.trans h)
  · exact .inr (.inl (hs.trans h))
  · obtain ⟨r', hrow', her⟩ := hev c r hrow
    obtain ⟨hrs', -, hrid'⟩ := her.ended (by rw [hrs]; rfl)
    refine .inr (.inr (.inl ⟨hs.trans h, c, r', hrow', ?_, hrs'.trans hrs⟩))
    rw [hrid' (by rw [hrs]; decide), hrid, hid (by rw [h]; decide)]
  · exact .inr (.inr (.inr ⟨hs.trans h, hr.trans hreason⟩))

lemma Evolves.paymentDraft (he : Evolves t t') :
    CrynuxRelay.paymentDraft t' = CrynuxRelay.paymentDraft t := by
  rw [CrynuxRelay.paymentDraft, he.taskIDCommitment, he.creator, he.taskFee]
  rfl

lemma Evolves.refundDraft (he : Evolves t t') :
    CrynuxRelay.refundDraft t' = CrynuxRelay.refundDraft t := by
  rw [CrynuxRelay.refundDraft, he.taskIDCommitment, he.creator, he.taskFee]
  rfl

/-- an event of a task tells the truth about its row; events of other types say nothing of tasks. -/
def Accounted (db : Db) (d : EventDraft) : Prop :=
  match d.type with
  | .taskPayment => ∃ c t, db.tasks.get c = some t ∧ d = paymentDraft t
  | .taskRefund => ∃ c t, db.tasks.get c = some t ∧ d = refundDraft t ∧ taskRefundAllowed t = true
  | .taskIncome | .daoTaskShare | .userDelegation =>
    ∃ c t, db.tasks.get c = some t ∧ d.isIncomeOf c = true ∧ IncomeSettled db t
  | _ => True

lemma Accounted.evolution (hev : Evolution db db') (h : Accounted db d) : Accounted db' d := by
  have hincome : (∃ c t, db.tasks.get c = some t ∧ d.isIncomeOf c = true ∧ IncomeSettled db t) →
      ∃ c t, db'.tasks.get c = some t ∧ d.isIncomeOf c = true ∧ IncomeSettled db' t := by
    rintro ⟨c, t, ht, hd, hi⟩
    obtain ⟨t', ht', he⟩ := hev c t ht
    exact ⟨c, t', ht', hd, hi.evolution hev he⟩
  unfold Accounted at h ⊢
  split
  · next hty =>
    rw [hty] at h
    obtain ⟨c, t, ht, hd⟩ := h
    obtain ⟨t', ht', he⟩ := hev c t ht
    exact ⟨c, t', ht', hd.trans he.paymentDraft.symm⟩
  · next hty =>
    rw [hty] at h
    obtain ⟨c, t, ht, hd, hr⟩ := h
    obtain ⟨t', ht', he⟩ := hev c t ht
    refine ⟨c, t', ht', hd.trans he.refundDraft.symm, ?_⟩
    obtain ⟨hs, hreason, -⟩ := he.ended (taskRefundAllowed_terminal hr)
    rw [taskRefundAllowed_iff] at hr ⊢
    rwa [hs, hreason]
  iterate 3
    next hty =>
      rw [hty] at h
      exact hincome h
  · trivial

lemma Accounted.income (h : Accounted db d) (hd : d.isIncomeOf c = true) :
    ∃ t, db.tasks.get c = some t ∧ IncomeSettled db t := by
  have hincome : (∃ c' t, db.tasks.get c' = some t ∧ d.isIncomeOf c' = true ∧ IncomeSettled db t) →
      ∃ t, db.tasks.get c = some t ∧ IncomeSettled db t := by
    rintro ⟨c', t, ht, hd', hi⟩
    rw [isIncomeOf_unique hd hd']
    exact ⟨t, ht, hi⟩
  unfold EventDraft.isIncomeOf at hd
  split at hd
  iterate 3
    next hty =>
      rw [Accounted, hty] at h
      exact hincome h
  · cases hd

/-! ## the books -/

def incomeSum (c : Text) (l : List EventDraft) : Int :=
  ((l.filter fun d => d.isIncomeOf c).map (·.amount)).sum

lemma incomeSum_append (c : Text) (l l' : List EventDraft) :
    incomeSum c (l ++ l') = incomeSum c l + incomeSum c l' := by
  rw [incomeSum, filter_append, map_append, sum_append]
  rfl

lemma incomeSum_of_none (h : ∀ d ∈ l, d.isIncomeOf c = false) : incomeSum c l = 0 := by
  rw [incomeSum, filter_eq_nil_iff.2]
  · rfl
  · intro d hd
    rw [h d hd]
    exact Bool.false_ne_true

def InferenceTask.creatorTimedOut (t : InferenceTask) : Prop :=
  t.status = .endAborted ∧ t.abortReason = .creatorValidationTimeout

/-- the events that a row demands of the log. -/
structure RowBooks (log : List EventDraft) (t : InferenceTask) : Prop where
  payment : paymentDraft t ∈ log
  refund : taskRefundAllowed t = true → refundDraft t ∈ log
  timeout : t.creatorTimedOut → incomeSum t.taskIDCommitment log = t.taskFee

structure Books (db : Db) : Prop where
  accounted : ∀ d ∈ logOf db, Accounted db d
  rows : ∀ c t, db.tasks.get c = some t → RowBooks (logOf db) t

/-- what the events `ds` of a step must bring when the row of `t` becomes `t'`. -/
structure RowBooked (ds : List EventDraft) (db : Db) (t t' : InferenceTask) : Prop where
  refund : taskRefundAllowed t' = true → taskRefundAllowed t = true ∨ refundDraft t ∈ ds
  timeout : t'.creatorTimedOut →
    (t.creatorTimedOut ∧ ∀ d ∈ ds, d.isIncomeOf t.taskIDCommitment = false) ∨
      (¬ IncomeSettled db t ∧ incomeSum t.taskIDCommitment ds = t.taskFee)

def FeesNonneg (db : Db) : Prop := ∀ c t, db.tasks.get c = some t → 0 ≤ t.taskFee

/-- a completed step on the tasks: it posts the credits `ds`, every event is backed by a row, and
every row has the events it demands. -/
structure TaskEffect (ds : List EventDraft) (w w' : World) : Prop where
  posts : Posts ds w w'
  types : ∀ d ∈ ds, d.type.ofTask = true
  credits : FeesNonneg w.db → ∀ d ∈ ds, d.type.isDebit = false ∧ 0 ≤ d.amount
  evolution : Evolution w.db w'.db
  absent : ∀ c, w.db.tasks.get c = none → w'.db.tasks.get c = none
  accounted : ∀ d ∈ ds, Accounted w'.db d
  booked : ∀ c t t', w.db.tasks.get c = some t → w'.db.tasks.get c = some t' → RowBooked ds w.db t t'
  withdrawRecords : w'.db.withdrawRecords = w.db.withdrawRecords
  vestingRecords : SameVestings w.db.vestingRecords w'.db.vestingRecords

lemma Evolution.evolves (h : Evolution db db') (ht : db.tasks.get c = some t)
    (ht' : db'.tasks.get c = some t') : Evolves t t' := by
  obtain ⟨u, hu, he⟩ := h c t ht
  rw [ht'] at hu
  cases hu
  exact he

lemma TaskEffect.feesNonneg (h : TaskEffect ds w w') (hf : FeesNonneg w.db) : FeesNonneg w'.db := by
  intro c t' ht'
  cases ht : w.db.tasks.get c with
  | none =>
    rw [h.absent c ht] at ht'
    cases ht'
  | some t =>
    rw [(h.evolution.evolves ht ht').taskFee]
    exact hf c t ht

lemma TaskEffect.trans {ds' : List EventDraft} {w1 w2 : World} (h : TaskEffect ds w w1)
    (h' : TaskEffect ds' w1 w2) : TaskEffect (ds ++ ds') w w2 where
  posts := h.posts.trans h'.posts
  types := fun d hd => by
    rcases mem_append.1 hd with hd | hd
    · exact h.types d hd
    · exact h'.types d hd
  credits := fun hf d hd => by
    rcases mem_append.1 hd with hd | hd
    · exact h.credits hf d hd
    · exact h'.credits (h.feesNonneg hf) d hd
  evolution := h.evolution.trans h'.evolution
  absent := fun c hc => h'.absent c (h.absent c hc)
  accounted := fun d hd => by
    rcases mem_append.1 hd with hd | hd
    · exact (h.accounted d hd).evolution h'.evolution
    · exact h'.accounted d hd
  booked := fun c t t2 ht ht2 => by
    obtain ⟨t1, ht1, he⟩ := h.evolution c t ht
    have hb := h.booked c t t1 ht ht1
    have hb' := h'.booked c t1 t2 ht1 ht2
    refine ⟨fun hr => ?_, fun hto => ?_⟩
    · rcases hb'.refund hr with hr | hr
      · rcases hb.refund hr with hr | hr
        · exact .inl hr
        · exact .inr (mem_append_left _ hr)
      · rw [he.refundDraft] at hr
        exact .inr (mem_append_right _ hr)
    · rw [incomeSum_append]
      rcases hb'.timeout hto with ⟨hto, hno⟩ | ⟨hns, hsum⟩
      · rw [he.taskIDCommitment] at hno
        rw [incomeSum_of_none hno, add_zero]
        rcases hb.timeout hto with ⟨hto, hno1⟩ | hnew
        · refine .inl ⟨hto, fun d hd => ?_⟩
          rcases mem_append.1 hd with hd | hd
          · exact hno1 d hd
          · exact hno d hd
        · exact .inr hnew
      · -- the incomes are new in the second step: the first one has posted none
        have hc := key_of_get ht
        have hno : ∀ d ∈ ds, d.isIncomeOf t.taskIDCommitment = false := by
          intro d hd
          rw [Bool.eq_false_iff]
          intro hi
          obtain ⟨u, hu, hset⟩ := (h.accounted d hd).income hi
          rw [hc, ht1] at hu
          cases hu
          exact hns hset
        rw [he.taskIDCommitment, he.taskFee] at hsum
        refine .inr ⟨fun hset => hns (hset.evolution h.evolution he), ?_⟩
        rw [incomeSum_of_none hno, zero_add, hsum]
  withdrawRecords := h'.withdrawRecords.trans h.withdrawRecords
  vestingRecords := fun id => (h'.vestingRecords id).trans (h.vestingRecords id)

theorem Books.step (hb : Books w.db) (h : TaskEffect ds w w') : Books w'.db := by
  have hlog := h.posts.appends.logOf
  refine ⟨fun d hd => ?_, fun c t' ht' => ?_⟩
  · rw [hlog] at hd
    rcases mem_append.1 hd with hd | hd
    · exact (hb.accounted d hd).evolution h.evolution
    · exact h.accounted d hd
  · cases ht : w.db.tasks.get c with
    | none =>
      rw [h.absent c ht] at ht'
      cases ht'
    | some t =>
      have he := h.evolution.evolves ht ht'
      have hrow := hb.rows c t ht
      have hnew := h.booked c t t' ht ht'
      rw [hlog]
      refine ⟨?_, fun hr => ?_, fun hto => ?_⟩
      · rw [he.paymentDraft]
        exact mem_append_left _ hrow.payment
      · rw [he.refundDraft]
        rcases hnew.refund hr with hr | hr
        · exact mem_append_left _ (hrow.refund hr)
        · exact mem_append_right _ hr
      · rw [incomeSum_append, he.taskIDCommitment, he.taskFee]
        rcases hnew.timeout hto with ⟨hto, hno⟩ | ⟨hns, hsum⟩
        · rw [hrow.timeout hto, incomeSum_of_none hno, add_zero]
        · have hno : ∀ d ∈ logOf w.db, d.isIncomeOf t.taskIDCommitment = false := by
            intro d hd
            rw [Bool.eq_false_iff]
            intro hi
            obtain ⟨u, hu, hset⟩ := (hb.accounted d hd).income hi
            rw [key_of_get ht, ht] at hu
            cases hu
            exact hns hset
          rw [incomeSum_of_none hno, zero_add, hsum]

/-! ## transitions of one task -/

section
variable {f : InferenceTask → InferenceTask}

/-- a transition as the books see it: the row of `c` is booked, and no other row that has timed out
gets an income. -/
lemma Rewrites.taskEffect (hm : Rewrites c f ds w w') (ht : w.db.tasks.get c = some t)
    (he : Evolves t (f t)) (htypes : ∀ d ∈ ds, d.type.ofTask = true)
    (hacc : ∀ d ∈ ds, Accounted w'.db d)
    (hcred : FeesNonneg w.db → ∀ d ∈ ds, d.type.isDebit = false ∧ 0 ≤ d.amount)
    (hb : RowBooked ds w.db t (f t))
    (hothers : ∀ d ∈ ds, ∀ j u, j ≠ c → d.isIncomeOf j = true → w.db.tasks.get j = some u →
      ¬ u.creatorTimedOut) : TaskEffect ds w w' where
  posts := hm.posts
  types := htypes
  credits := hcred
  evolution := hm.evolution ht he
  absent := fun j hj => by
    rw [hm.tasks]
    split
    · next e =>
      rw [e, ht] at hj
      cases hj
    · exact hj
  accounted := hacc
  booked := fun j u u' hu hu' => by
    by_cases hj : j = c
    · subst hj
      rw [ht] at hu
      cases hu
      rw [hm.row ht] at hu'
      cases hu'
      exact hb
    · rw [hm.other hj, hu] at hu'
      cases hu'
      refine ⟨fun hr => .inl hr, fun hto => .inl ⟨hto, fun d hd => ?_⟩⟩
      rw [key_of_get hu, Bool.eq_false_iff]
      intro hi
      exact hothers d hd j u hj hi hu hto
  withdrawRecords := hm.withdrawRecords
  vestingRecords := hm.vestingRecords

/-- a transition that posts nothing and ends in no status that demands money. -/
lemma Rewrites.quietEffect (hm : Rewrites c f [] w w') (ht : w.db.tasks.get c = some t)
    (he : Evolves t (f t)) (hr : taskRefundAllowed (f t) = true → taskRefundAllowed t = true)
    (hto : (f t).creatorTimedOut → t.creatorTimedOut) : TaskEffect [] w w' := by
  refine hm.taskEffect ht he (by simp) (by simp) (by simp)
    ⟨fun h => .inl (hr h), fun h => .inl ⟨hto h, by simp⟩⟩ ?_
  intro d hd
  cases hd

lemma Rewrites.runningEffect (hm : Rewrites c f [] w w') (ht : w.db.tasks.get c = some t)
    (he : Evolves t (f t)) (hterm : (f t).status.isTerminal = false) : TaskEffect [] w w' := by
  refine hm.quietEffect ht he (fun hr => ?_) (fun hto => ?_)
  · rw [taskRefundAllowed_terminal hr] at hterm
    cases hterm
  · rw [hto.1] at hterm
    cases hterm

lemma Rewrites.refundEffect (hm : Rewrites c f [refundDraft t] w w')
    (ht : w.db.tasks.get c = some t) (he : Evolves t (f t))
    (hr : taskRefundAllowed (f t) = true) : TaskEffect [refundDraft t] w w' := by
  have hrow := hm.row ht
  have hno : ¬ (f t).creatorTimedOut := by
    rintro ⟨hs, hreason⟩
    rcases taskRefundAllowed_iff.1 hr with h | ⟨-, h⟩
    · rw [hs] at h
      cases h
    · exact h hreason
  refine hm.taskEffect ht he ?_ ?_ ?_ ⟨fun _ => .inr mem_cons_self, fun h => absurd h hno⟩ ?_
  · intro d hd
    rw [mem_singleton.1 hd]
    rfl
  · intro d hd
    rw [mem_singleton.1 hd]
    exact ⟨c, f t, hrow, he.refundDraft.symm, hr⟩
  · intro hf d hd
    rw [mem_singleton.1 hd]
    exact ⟨rfl, hf c t ht⟩
  · intro d hd j u _ hi
    rw [mem_singleton.1 hd] at hi
    cases hi

end

/-! ## incomes -/

lemma sum_delegatorFees (pool : Int) (stakes : List Int) (h : stakes ≠ []) :
    (delegatorFees pool stakes).sum = pool := by
  cases hs : stakes.map fun s => pool * s / stakes.sum with
  | nil =>
    rw [map_eq_nil_iff] at hs
    exact absurd hs h
  | cons x l =>
    rw [delegatorFees, hs]
    simp only [sum_cons]
    omega

lemma length_delegatorFees (pool : Int) (stakes : List Int) :
    (delegatorFees pool stakes).length = stakes.length := by
  have hl : (stakes.map fun s => pool * s / stakes.sum).length = stakes.length := length_map _
  rw [delegatorFees]
  cases hs : stakes.map fun s => pool * s / stakes.sum with
  | _ =>
    rwa [hs] at hl

theorem sum_taskIncomeEvents (env : Env) (c address : Text) (amount : Int) (network : Text) :
    ((taskIncomeEvents env c address amount network).map (·.amount)).sum = amount := by
  rw [taskIncomeEvents]
  simp only [map_append, map_map, sum_append, map_cons, map_nil, sum_cons, sum_nil]
  generalize hu : (if 0 < env.delegatorShare address network then
    env.delegationsOfNode address network else []) = users
  generalize hp : totalDelegatorFee env address network
    (amount - amount * env.daoTaskFeeSharePercent / 100) = pool
  have hsum : ((users.zip (delegatorFees pool (users.map (·.2)))).map
      ((fun x => x.amount) ∘ fun p => (⟨.userDelegation, reason3 .userDelegation c p.1.1, p.1.1,
        p.2⟩ : EventDraft))).sum = pool := by
    have hz : (users.zip (delegatorFees pool (users.map (·.2)))).map
        ((fun x => x.amount) ∘ fun p => (⟨.userDelegation, reason3 .userDelegation c p.1.1, p.1.1,
          p.2⟩ : EventDraft)) = delegatorFees pool (users.map (·.2)) := by
      have hl : (delegatorFees pool (users.map (·.2))).length ≤ users.length := by
        rw [length_delegatorFees, length_map]
      exact map_snd_zip hl
    rw [hz]
    by_cases hne : users = []
    · -- without delegators there is no pool
      have hpool : pool = 0 := by
        rw [← hp, totalDelegatorFee, if_neg]
        rintro ⟨hshare, hdel⟩
        rw [if_pos hshare] at hu
        exact hdel (hu.trans hne)
      rw [hne, hpool]
      rfl
    · exact sum_delegatorFees pool _ (by rw [Ne, map_eq_nil_iff]; exact hne)
  omega

lemma sum_ediv_le (S : Int) (hS : 0 < S) (l : List Int) : (l.map (· / S)).sum ≤ l.sum / S := by
  induction l with
  | nil => simp
  | cons x l ih =>
    rw [map_cons, sum_cons, sum_cons]
    have hx : x / S + l.sum / S ≤ (x + l.sum) / S := by
      rw [Int.le_ediv_iff_mul_le hS, add_mul]
      exact add_le_add (Int.ediv_mul_le x hS.ne') (Int.ediv_mul_le l.sum hS.ne')
    omega

lemma lt_sum_ediv {S : Int} (hS : 0 < S) (l : List Int) :
    l.sum + l.length ≤ ((l.map (· / S)).sum + l.length) * S := by
  induction l with
  | nil => simp
  | cons x l ih =>
    have hx : x + 1 ≤ (x / S + 1) * S := Int.lt_ediv_add_one_mul_self x hS
    rw [map_cons, sum_cons, sum_cons, length_cons]
    push_cast
    simp only [add_mul, one_mul] at *
    omega

/-- the floored shares leave less of the pool than there are shares. -/
lemma sum_floors {pool : Int} {stakes : List Int} (hs : ∀ s ∈ stakes, 0 < s) (hne : stakes ≠ []) :
    (stakes.map fun s => pool * s / stakes.sum).sum ≤ pool ∧
      pool < (stakes.map fun s => pool * s / stakes.sum).sum + stakes.length := by
  have hS : 0 < stakes.sum := sum_pos stakes hs hne
  have hle := sum_ediv_le stakes.sum hS (stakes.map (pool * ·))
  have hlt := lt_sum_ediv hS (stakes.map (pool * ·))
  rw [map_map, sum_map_mul_left, map_id'] at hle hlt
  rw [Int.mul_ediv_cancel _ hS.ne'] at hle
  rw [length_map] at hlt
  refine ⟨hle, lt_of_mul_lt_mul_right (lt_of_lt_of_le ?_ hlt) hS.le⟩
  have := length_pos_of_ne_nil hne
  omega

lemma delegatorFees_nonneg {pool : Int} {stakes : List Int} (hp : 0 ≤ pool)
    (hs : ∀ s ∈ stakes, 0 < s) : ∀ x ∈ delegatorFees pool stakes, 0 ≤ x := by
  have hfloor : ∀ x ∈ stakes.map fun s => pool * s / stakes.sum, 0 ≤ x := by
    intro x hx
    obtain ⟨s, hsm, rfl⟩ := mem_map.1 hx
    exact Int.ediv_nonneg (mul_nonneg hp (hs s hsm).le)
      (sum_nonneg fun y hy => (hs y hy).le)
  have hle : (stakes.map fun s => pool * s / stakes.sum).sum ≤ pool := by
    by_cases hne : stakes = []
    · rwa [hne]
    · exact (sum_floors hs hne).1
  intro x hx
  rw [delegatorFees] at hx
  cases hm : stakes.map fun s => pool * s / stakes.sum with
  | nil =>
    rw [hm] at hx
    cases hx
  | cons f fs =>
    rw [hm] at hx hle hfloor
    rcases mem_cons.1 hx with rfl | hx
    · have := hfloor f mem_cons_self
      omega
    · exact hfloor x (mem_cons_of_mem f hx)

lemma share_nonneg (hx : 0 ≤ x) (n : Nat) : 0 ≤ x * n / 100 :=
  Int.ediv_nonneg (mul_nonneg hx (Int.natCast_nonneg n)) (by omega)

lemma share_le (hx : 0 ≤ x) {n : Nat} (hn : n ≤ 100) : x * n / 100 ≤ x := by
  refine Int.ediv_le_of_le_mul (by omega) ?_
  exact mul_le_mul_of_nonneg_left (by omega) hx

lemma stakes_pos : ∀ s ∈ (if 0 < env.delegatorShare address network then
    env.delegationsOfNode address network else []).map (·.2), 0 < s := by
  intro s hs
  obtain ⟨q, hq, rfl⟩ := mem_map.1 hs
  split at hq
  · exact env.stake_pos address network q hq
  · cases hq

theorem taskIncomeEvents_nonneg
    (h : 0 ≤ amount) (hd : d ∈ taskIncomeEvents env c address amount network) : 0 ≤ d.amount := by
  rw [taskIncomeEvents] at hd
  generalize hdao : amount * env.daoTaskFeeSharePercent / 100 = dao at hd
  have h0 : 0 ≤ dao := hdao ▸ share_nonneg h _
  have h1 : dao ≤ amount := hdao ▸ share_le h env.dao_le
  have hincome : 0 ≤ amount - dao := by omega
  generalize hpool : totalDelegatorFee env address network (amount - dao) = pool at hd
  have h2 : 0 ≤ pool ∧ pool ≤ amount - dao := by
    rw [← hpool, totalDelegatorFee]
    split
    · exact ⟨share_nonneg hincome _, share_le hincome (env.share_le address network)⟩
    · exact ⟨le_refl 0, hincome⟩
  rcases mem_append.1 hd with hd | hd
  · obtain ⟨p, hp, rfl⟩ := mem_map.1 hd
    exact delegatorFees_nonneg h2.1 stakes_pos p.2 (of_mem_zip hp).2
  · simp only [mem_cons, not_mem_nil, or_false] at hd
    rcases hd with rfl | rfl
    · show 0 ≤ amount - dao - pool
      omega
    · exact h0

lemma delegatorFees_get {pool s x : Int} {stakes : List Int} (hs : ∀ s ∈ stakes, 0 < s) {i : Nat}
    (hi : stakes[i]? = some s) (hx : (delegatorFees pool stakes)[i]? = some x) :
    pool * s / stakes.sum ≤ x ∧ x < pool * s / stakes.sum + stakes.length ∧
      (i ≠ 0 → x = pool * s / stakes.sum) := by
  have hne : stakes ≠ [] := by
    rintro rfl
    cases hi
  have hpos := length_pos_of_ne_nil hne
  obtain ⟨hle, hlt⟩ := @sum_floors pool stakes hs hne
  have hfloor : (stakes.map fun s => pool * s / stakes.sum)[i]? = some (pool * s / stakes.sum) := by
    rw [getElem?_map, hi]
    rfl
  rw [delegatorFees] at hx
  cases hm : stakes.map fun s => pool * s / stakes.sum with
  | nil =>
    rw [hm] at hfloor
    cases hfloor
  | cons f fs =>
    rw [hm] at hx hle hlt hfloor
    cases i with
    | zero =>
      have hf : f = _ := Option.some.inj hfloor
      have hx : f + (pool - (f :: fs).sum) = x := Option.some.inj hx
      omega
    | succ i =>
      have hx : x = _ := Option.some.inj (hx.symm.trans hfloor)
      omega

/-- **an income is split without loss.**  The DAO, the delegators and the node get parts that are not
negative and add up; every delegator gets the floor of its share of the pool, and the first one besides
what is left of the pool, which is less than the number of delegators. -/
theorem taskIncome_split (env : Env) (c address network : Text) (amount : Int) (h : 0 ≤ amount) :
    let events := taskIncomeEvents env c address amount network
    let dao := amount * env.daoTaskFeeSharePercent / 100
    let pool := totalDelegatorFee env address network (amount - dao)
    let users := if 0 < env.delegatorShare address network then
      env.delegationsOfNode address network else []
    ∃ fees, events.map (·.amount) = fees ++ [amount - dao - pool, dao] ∧
      events.map (·.address) = users.map (·.1) ++ [address, env.daoTaskFeeShareAddress] ∧
      (∀ e ∈ events, 0 ≤ e.amount) ∧ fees.sum = pool ∧
      ∀ i u x, users[i]? = some u → fees[i]? = some x → pool * u.2 / (users.map (·.2)).sum ≤ x ∧
          x < pool * u.2 / (users.map (·.2)).sum + users.length ∧
          (i ≠ 0 → x = pool * u.2 / (users.map (·.2)).sum) := by
  intro events dao pool users
  have hlen : (delegatorFees pool (users.map (·.2))).length = users.length := by
    rw [length_delegatorFees, length_map]
  have hfees : events.map (·.amount) =
      delegatorFees pool (users.map (·.2)) ++ [amount - dao - pool, dao] := by
    show (map _ _ ++ _).map _ = _
    rw [map_append, map_map]
    exact congrArg (· ++ _) (map_snd_zip hlen.le)
  refine ⟨_, hfees, ?_, fun e he => taskIncomeEvents_nonneg h he, ?_, fun i u x hu hx => ?_⟩
  · show (map _ _ ++ _).map _ = _
    rw [map_append, map_map]
    have hfst := congrArg (map Prod.fst) (map_fst_zip hlen.ge)
    rw [map_map] at hfst
    exact congrArg (· ++ _) hfst
  · have hsum := sum_taskIncomeEvents env c address amount network
    rw [show (taskIncomeEvents env c address amount network).map (·.amount) = _ from hfees, sum_append,
      sum_cons, sum_singleton] at hsum
    omega
  · have hget := delegatorFees_get stakes_pos (by rw [getElem?_map, hu]; rfl) hx
    rwa [length_map] at hget

def twoDelegators : Env where
  daoTaskFeeSharePercent := 10
  delegatorShare := fun _ _ => 50
  delegationsOfNode := fun _ _ => [("0xd1".toList, 1), ("0xd2".toList, 2)]

theorem taskIncome_split_at_two : ∃ fees : List Int,
    (taskIncomeEvents twoDelegators [] [] 12 []).map (·.amount) = fees ++ [6, 1] ∧ fees.sum = 5 := by
  obtain ⟨fees, hfees, -, -, hsum, -⟩ := taskIncome_split twoDelegators [] [] [] 12 (by decide)
  exact ⟨fees, hfees, hsum⟩

end CrynuxRelay
