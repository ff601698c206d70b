import CrynuxRelay.Accounts.Funding
import CrynuxRelay.Tasks.Calls
import CrynuxRelay.Tasks.Groups

/-!
# The operations of the relay and the tasks

One lemma for each operation of the system: what it does to the tasks, whatever its outcome and
whatever the handler has read before.

* `Aside` -- an operation that is not about tasks; `FundsOnly` -- one that is about funds only;
* `TaskStep` -- what every operation leaves: the lifecycle, the books, and rows that go on;
* `RelayInv` -- the lifecycle, the books and the copies; `step_relayInv` -- every admissible operation
  keeps it.
-/

namespace CrynuxRelay

open List Table Tx

variable {w w' : World} {ds : List EventDraft} {d : EventDraft} {op : RelayOp} {env : Env}
  {flight : Flight} {row : InferenceTask}
  {t : NewTask} {task : InferenceTask} {db : Db} {taskID vrfProof publicKey : Text}
    {s : RelayState} {i : Nat}

variable {unit : Text → Set Text}

/-! ## operations that are not about tasks -/

structure Aside (w w' : World) : Prop where
  tasks : w'.db.tasks = w.db.tasks
  current : ∀ a c, currentOf w'.db a = some c → currentOf w.db a = some c
  log : ∃ ds, logOf w'.db = logOf w.db ++ ds ∧ ∀ d ∈ ds, d.type.ofTask = false

lemma aside_of_db_eq (h : w'.db = w.db) : Aside w w' := by
  refine ⟨by rw [h], fun a c hc => ?_, [], ?_, by simp⟩
  · rwa [h] at hc
  · rw [h, append_nil]

instance : Stable Aside where
  refl := fun w => aside_of_db_eq rfl
  trans := fun w w' w'' h h' => by
    obtain ⟨ds, hlog, hds⟩ := h.log
    obtain ⟨ds', hlog', hds'⟩ := h'.log
    refine ⟨h'.tasks.trans h.tasks, fun a c hc => h.current a c (h'.current a c hc), ds ++ ds',
      ?_, ?_⟩
    · rw [hlog', hlog, List.append_assoc]
    · intro d hd
      rcases List.mem_append.1 hd with hd | hd
      · exact hds d hd
      · exact hds' d hd
  rollback := fun w w' h => aside_of_db_eq rfl

lemma aside_of_nodeSide (h : NodeSide w w') : Aside w w' := by
  refine ⟨h.1.tasks, h.1.current, [], ?_, by simp⟩
  rw [logOf, h.1.events, append_nil]
  rfl

/-! ## funds -/

def refundReason (c : Text) : Text := reason2 .taskRefund c

lemma ne_refundReason (t : RelayAccountEventType) (ht : t ≠ .taskRefund) (x j : Text) :
    reason2 t x ≠ refundReason j := fun h => ht (reason2_inj.1 h).1

/-- no node and no task differs, and the new events are of no task. -/
structure FundsOnly (w w' : World) : Prop where
  nodes : w'.db.nodes = w.db.nodes
  tasks : w'.db.tasks = w.db.tasks
  log : ∃ ds, logOf w'.db = logOf w.db ++ ds ∧
    ∀ d ∈ ds, d.type.ofTask = false ∧ ∀ c, d.reason ≠ refundReason c

lemma fundsOnly_of_log (hn : w'.db.nodes = w.db.nodes)
    (ht : w'.db.tasks = w.db.tasks) (hlog : logOf w'.db = logOf w.db) : FundsOnly w w' :=
  ⟨hn, ht, [], by rw [hlog, append_nil], nofun⟩

lemma fundsOnly_of_db (h : w'.db = w.db) : FundsOnly w w' :=
  fundsOnly_of_log (by rw [h]) (by rw [h]) (by rw [h])

instance : Stable FundsOnly where
  refl := fun w => fundsOnly_of_db rfl
  trans := fun w w' w'' h h' => by
    obtain ⟨ds, hlog, hds⟩ := h.log
    obtain ⟨ds', hlog', hds'⟩ := h'.log
    refine ⟨h'.nodes.trans h.nodes, h'.tasks.trans h.tasks, ds ++ ds', ?_, fun d hd => ?_⟩
    · rw [hlog', hlog, List.append_assoc]
    · exact (List.mem_append.1 hd).elim (hds d) (hds' d)
  rollback := fun w w' h => fundsOnly_of_db rfl

lemma FundsOnly.aside (h : FundsOnly w w') : Aside w w' := by
  obtain ⟨ds, hlog, hds⟩ := h.log
  refine ⟨h.tasks, fun a c hc => ?_, ds, hlog, fun d hd => (hds d hd).1⟩
  rwa [currentOf, h.nodes] at hc

lemma FundsEffect.fundsOnly (h : FundsEffect ds w w')
    (hds : ∀ d ∈ ds, ∀ c, d.reason ≠ refundReason c) : FundsOnly w w' :=
  ⟨h.nodes, h.tasks, ds, h.posts.appends.logOf, fun d hd => ⟨h.types d hd, hds d hd⟩⟩

lemma FundsEffect.fundsOnly_single (h : FundsEffect [d] w w') (t : RelayAccountEventType) {x : Text}
    (hd : d.reason = reason2 t x) (ht : t ≠ .taskRefund) : FundsOnly w w' := by
  refine h.fundsOnly fun d' hd' c => ?_
  rw [mem_singleton.1 hd', hd]
  exact ne_refundReason t ht x c

lemma keeps_fundsOnly {α : Type} {x : Relay α} [hf : KeptOnFail Undone x]
    (hok : ∀ w a w', Ok x w a w' → FundsOnly w w') : Tx.Keeps FundsOnly x :=
  keeps_iff.2 ⟨hok, fun w e w' h => fundsOnly_of_db (hf.onFail w e w' h).db⟩

/-- the operations on deposits, withdrawals and vestings, and the projector. -/
def RelayOp.onFunds : RelayOp → Bool
  | .deposit .. | .withdraw .. | .fulfill .. | .reject .. | .releaseVestings .. | .project .. => true
  | _ => false

lemma fundsOnly_relayOp (hop : op.onFunds = true) (flights : List Flight) :
    Tx.Keeps FundsOnly (op.tx flights) := by
  cases op with
  | deposit successful txHash network d =>
    refine keeps_fundsOnly (x := processDeposit successful txHash network d) fun w u w' h => ?_
    rcases processDeposit_ok h with rfl | ⟨heff, -⟩
    · exact fundsOnly_of_db rfl
    · exact heff.fundsOnly_single .deposit rfl nofun
  | withdraw env userAddress input =>
    refine keeps_bind ?_ fun _ => keeps_pure _
    refine keeps_fundsOnly fun w id w' h => ?_
    obtain ⟨amount, fee, eventID, -, -, -, -, -, heff, -⟩ := createWithdrawRequest_ok h
    exact heff.fundsOnly_single .withdraw rfl nofun
  | fulfill env id txHash =>
    refine keeps_fundsOnly (x := fulfillWithdraw env id txHash) fun w u w' h => ?_
    obtain ⟨r, ds, -, ⟨rfl, -⟩ | ⟨-, rfl⟩, heff, -⟩ := fulfillWithdraw_ok h
    · exact heff.fundsOnly nofun
    · exact heff.fundsOnly_single .withdrawFeeIncome rfl nofun
  | reject id =>
    refine keeps_fundsOnly (x := rejectWithdraw id) fun w u w' h => ?_
    obtain ⟨r, ds, -, ⟨rfl, -⟩ | rfl, heff, -⟩ := rejectWithdraw_ok h
    · exact heff.fundsOnly nofun
    · exact heff.fundsOnly_single .withdrawRefund rfl nofun
  | releaseVestings env =>
    refine keeps_bind Kept.keeps fun _ => keeps_when (keeps_each (fun id => ?_) _)
    refine keeps_fundsOnly fun w u w' h => ?_
    obtain ⟨-, ⟨heff, -⟩ | ⟨v, toReleased, -, hrel⟩⟩ := processSingleVestingRelease_ok h
    · exact heff.fundsOnly nofun
    · exact hrel.effect.fundsOnly_single .vestingRelease rfl nofun
  | project chain limit =>
    refine keeps_bind (keeps_bind Kept.keeps fun _ => Kept.keeps) fun events => keeps_when ?_
    refine keeps_iff.2 ⟨fun w u w' h => ?_, fun w e w' h => ?_⟩
    · obtain ⟨valid, invalid, -, -, rfl⟩ := processPending_ok.1 h
      refine fundsOnly_of_log rfl rfl ?_
      exact (logOf_mark _ _ _).trans (logOf_mark _ _ _)
    · rcases processPending_fails_inv h with rfl | ⟨invalid, -, rfl⟩
      · exact fundsOnly_of_db rfl
      · exact fundsOnly_of_log rfl rfl (logOf_mark _ _ _)
  | _ => cases hop

/-! ## steps -/

variable (unit) in
/-- what every operation leaves: the lifecycle, the books, every row further on its course, and a log
that has at most grown. -/
structure TaskStep (w w' : World) : Prop where
  lifecycle : Lifecycle unit w'.db
  books : Books w'.db
  evolution : Evolution w.db w'.db
  log : ∃ ds, logOf w'.db = logOf w.db ++ ds

lemma Proceeds.taskStep (h : Proceeds unit w w') (hb : Books w.db) : TaskStep unit w w' := by
  obtain ⟨hl, ds, heff⟩ := h
  exact ⟨hl, hb.step heff, heff.evolution, ds, heff.posts.appends.logOf⟩

lemma Undone.proceeds (h : Undone w w') (hl : Lifecycle unit w.db) : Proceeds unit w w' := by
  refine ⟨by rw [h.db]; exact hl, [], ⟨h.posts, by simp, by simp, Evolution.of_eq (by rw [h.db]),
    fun c hc => by rw [h.db]; exact hc, by simp, fun c t t' ht ht' => ?_, by rw [h.db],
    fun id => by rw [h.db]⟩⟩
  rw [h.db, ht] at ht'
  cases ht'
  exact ⟨fun hr => .inl hr, fun hto => .inl ⟨hto, by simp⟩⟩

lemma Proceeds.refl (hl : Lifecycle unit w.db) : Proceeds unit w w :=
  Undone.proceeds (Stable.refl w) hl

lemma accounted_of_not_task (h : d.type.ofTask = false) (db : Db) : Accounted db d := by
  unfold Accounted
  split
  all_goals first
    | trivial
    | next hty =>
      rw [hty] at h
      cases h

lemma isIncomeOf_of_not_task (h : d.type.ofTask = false) (c : Text) : d.isIncomeOf c = false := by
  unfold EventDraft.isIncomeOf
  split
  all_goals first
    | rfl
    | next hty =>
      rw [hty] at h
      cases h

/-- the demands of a row on a log that has grown by events of no income of its task. -/
lemma RowBooks.append {log : List EventDraft} {t : InferenceTask} (h : RowBooks log t)
    (hds : ∀ d ∈ ds, d.isIncomeOf t.taskIDCommitment = false) : RowBooks (log ++ ds) t where
  payment := mem_append_left ds h.payment
  refund := fun hr => mem_append_left ds (h.refund hr)
  timeout := fun hto => by
    rw [incomeSum_append, incomeSum_of_none hds, add_zero]
    exact h.timeout hto

lemma Aside.taskStep (h : Aside w w') (hl : Lifecycle unit w.db)
    (hb : Books w.db) : TaskStep unit w w' := by
  obtain ⟨ds, hlog, hds⟩ := h.log
  have hev : Evolution w.db w'.db := Evolution.of_eq h.tasks
  refine ⟨hl.congr h.tasks h.current, ⟨fun d hd => ?_, fun c t ht => ?_⟩, hev, ds, hlog⟩
  · rw [hlog] at hd
    rcases mem_append.1 hd with hd | hd
    · exact (hb.accounted d hd).evolution hev
    · exact accounted_of_not_task (hds d hd) w'.db
  · rw [h.tasks] at ht
    rw [hlog]
    exact (hb.rows c t ht).append fun d hd => isIncomeOf_of_not_task (hds d hd) _

/-! ## creation -/

section
variable (hnew : w.db.tasks.get task.taskIDCommitment = none)
include hnew

lemma get_afterCreate (j : Text) : (afterCreate env task w).db.tasks.get j =
      if j = task.taskIDCommitment then some (createdTask env w.db task) else w.db.tasks.get j :=
  get_insert w.db.tasks (createdTask env w.db task) j hnew

lemma afterCreate_cases {j : Text} {u : InferenceTask}
    (hu : (afterCreate env task w).db.tasks.get j = some u) :
    (j = task.taskIDCommitment ∧ u = createdTask env w.db task) ∨ w.db.tasks.get j = some u := by
  rw [get_afterCreate hnew] at hu
  split at hu
  · next e => exact .inl ⟨e, (Option.some.inj hu).symm⟩
  · exact .inr hu

lemma afterCreate_of_get {j : Text} {u : InferenceTask} (hu : w.db.tasks.get j = some u) :
    (afterCreate env task w).db.tasks.get j = some u := by
  rw [get_afterCreate hnew, if_neg]
  · exact hu
  · rintro rfl
    rw [hnew] at hu
    cases hu

lemma evolution_afterCreate : Evolution w.db (afterCreate env task w).db :=
  fun _ t ht => ⟨t, afterCreate_of_get hnew ht, Evolves.refl t⟩

lemma TaskIds.afterCreate (h : TaskIds w.db) : TaskIds (afterCreate env task w).db := by
  have hid : (createdTask env w.db task).id = w.db.tasks.keys.length + 1 := rfl
  refine ⟨fun j j' u u' hu hu' e => ?_, fun j u hu => ?_⟩
  · -- the new id is above all others
    rcases afterCreate_cases hnew hu with ⟨rfl, rfl⟩ | hu
    · rcases afterCreate_cases hnew hu' with ⟨rfl, -⟩ | hu'
      · rfl
      · have := h.ids_le j' u' hu'
        omega
    · rcases afterCreate_cases hnew hu' with ⟨rfl, rfl⟩ | hu'
      · have := h.ids_le j u hu
        omega
      · exact h.ids j j' u u' hu hu' e
  · rw [show (CrynuxRelay.afterCreate env task w).db.tasks.keys = _ from keys_insert _ _ hnew, length_append]
    rcases afterCreate_cases hnew hu with ⟨-, rfl⟩ | hu
    · exact le_of_eq hid
    · exact (h.ids_le j u hu).trans (Nat.le_add_right _ _)

end

lemma lifecycle_afterCreate (h : Lifecycle unit w.db)
    (hnew : w.db.tasks.get t.task.taskIDCommitment = none) :
    Lifecycle unit (afterCreate env t.task w).db := by
  have hst : (createdTask env w.db t.task).status = .queued := t.queued
  have hunrev : (createdTask env w.db t.task).taskID = [] := t.unrevealed
  refine ⟨⟨h.toTaskIds.afterCreate hnew, fun j u hu => ?_, fun a c hc => ?_⟩, ?_⟩
  · rcases afterCreate_cases hnew hu with ⟨-, rfl⟩ | hu
    · refine ⟨fun _ => t.unselected, fun _ _ => t.unrevealed, fun hid => absurd t.unrevealed hid,
        fun hv => ?_, fun hv => ?_⟩
      all_goals
        rw [hst] at hv
        cases hv
    · exact h.rows j u hu
  · obtain ⟨u, hu, hrest⟩ := h.held a c hc
    exact ⟨u, afterCreate_of_get hnew hu, hrest⟩
  · intro X j u hu hgv hX j' u' hu' hX' hne
    rcases afterCreate_cases hnew hu with ⟨-, rfl⟩ | hu
    · rw [hst] at hgv
      cases hgv
    · rcases afterCreate_cases hnew hu' with ⟨-, rfl⟩ | hu'
      · rw [hunrev] at hX'
        exact absurd (hX.trans hX'.symm) (h.representative_revealed hu hgv)
      · exact h.groups X j u hu hgv hX j' u' hu' hX' hne

lemma books_afterCreate (h : Books w.db) (hnew : w.db.tasks.get t.task.taskIDCommitment = none)
    (hr : w.db.relayAccountEvents.reasonTaken (paymentDraft t.task).reason = false) :
    Books (afterCreate env t.task w).db := by
  have hposts : Posts [paymentDraft t.task] w (afterCreate env t.task w) := posts_afterCreate hr
  have hlog := hposts.appends.logOf
  have hpay : paymentDraft (createdTask env w.db t.task) = paymentDraft t.task := rfl
  refine ⟨fun d hd => ?_, fun c u hu => ?_⟩
  · rw [hlog] at hd
    rcases mem_append.1 hd with hd | hd
    · exact (h.accounted d hd).evolution (evolution_afterCreate hnew)
    · rw [mem_singleton.1 hd]
      exact ⟨_, createdTask env w.db t.task, by rw [get_afterCreate hnew, if_pos rfl], hpay.symm⟩
  · rw [hlog]
    rcases afterCreate_cases hnew hu with ⟨-, rfl⟩ | hu
    · have hst : (createdTask env w.db t.task).status = .queued := t.queued
      refine ⟨?_, fun hrefund => ?_, fun hto => ?_⟩
      · exact mem_append_right _ mem_cons_self
      · have := taskRefundAllowed_terminal hrefund
        rw [hst] at this
        cases this
      · rw [hto.1] at hst
        cases hst
    · refine (h.rows c u hu).append fun d hd => ?_
      rw [mem_singleton.1 hd]
      rfl

/-! ## handlers in flight -/

variable (unit) in
/-- what a handler's copy has in common with the row, and what an upload may rely on. -/
def FlightOk (db : Db) (flight : Flight) : Prop :=
  ∃ row, db.tasks.get flight.task.taskIDCommitment = some row ∧ Copies unit flight.task row ∧
    (flight.readStatus.isValidated = true → row.status.isTerminal = true ∨
      (row.status.isValidated = true ∧ flight.task.taskID = row.taskID))

lemma FlightOk.evolution {db' : Db} (h : FlightOk unit db flight)
    (hev : Evolution db db') : FlightOk unit db' flight := by
  obtain ⟨row, hrow, hcopy, hread⟩ := h
  obtain ⟨row', hrow', he⟩ := hev _ row hrow
  refine ⟨row', hrow', hcopy.evolves he, fun hv => ?_⟩
  rcases hread hv with hterm | ⟨hval, hid⟩
  · refine .inl ?_
    rwa [(he.ended hterm).1]
  · rcases he.revealed hval with hterm | ⟨hval', hid'⟩
    · exact .inl hterm
    · exact .inr ⟨hval', hid.trans hid'.symm⟩

lemma flightOk_sync (h : FlightOk unit db flight)
    (hrow : db.tasks.get flight.task.taskIDCommitment = some row)
    (hq : ¬ (flight.task.status = .queued ∧ row.status ≠ .queued)) :
    FlightOk unit db { flight with task := flight.task.syncStatus row } := by
  obtain ⟨row', hrow', hcopy, hread⟩ := h
  rw [hrow] at hrow'
  cases hrow'
  refine ⟨row, hrow, ⟨hcopy.id, hcopy.taskIDCommitment, hcopy.creator, hcopy.taskFee, ?_, ?_,
    hcopy.member⟩, hread⟩
  · intro hrq
    refine hcopy.waiting ?_
    by_contra hne
    exact (hcopy.left hne).1 hrq
  · intro hrq
    refine hcopy.left fun htq => hq ⟨htq, hrq⟩

section
variable {u : Unit}

lemma abort_proceeds (h : Ok (setTaskStatusEndAborted env task) w u w')
    (hl : Lifecycle unit w.db) (hrow : w.db.tasks.get task.taskIDCommitment = some row)
    (hcopy : Copies unit task row) : Proceeds unit w w' := by
  by_cases hne : task.status = .endAborted
  · rcases setTaskStatusEndAborted_ok h with ⟨-, rfl⟩ | ⟨hterm, -⟩
    · exact Proceeds.refl hl
    · rw [hne] at hterm
      cases hterm
  · exact (abort_closes hl.toCoupled hcopy hrow hne h).proceeds hl

/-- the assumptions on a call: a node has an address, and a task id that is revealed alone is used
for that task alone. -/
def TaskCall.Admissible (unit : Text → Set Text) (flight : Flight) : TaskCall → Prop
  | .start address => address ≠ []
  | .validate taskID _ _ => unit taskID = {flight.task.taskIDCommitment}
  | _ => True

/-- **an attempt of a handler**, whatever it has read before. -/
theorem callStep_proceeds {call : TaskCall} (hl : Lifecycle unit w.db)
    (hf : FlightOk unit w.db flight) (hadm : call.Admissible unit flight)
    (h : CallStep env flight w w' call) : Proceeds unit w w' := by
  obtain ⟨row, hrow, hcopy, hread⟩ := hf
  -- an abort writes a reason and a task id of its own into the copy
  have hcopied : ∀ {reason : TaskAbortReason} {taskID : Text} {validated : Option Time},
      (taskID ≠ [] → flight.task.taskIDCommitment ∈ unit taskID) → Copies unit { flight.task with
          taskID := taskID, abortReason := reason, validatedTime := validated } row :=
    fun hmember => ⟨hcopy.id, hcopy.taskIDCommitment, hcopy.creator, hcopy.taskFee, hcopy.waiting,
      hcopy.left, hmember⟩
  cases h with
  | started address h => exact start_proceeds hl hrow hadm h
  | scored score h => exact reported_proceeds (.inl h) hl hrow
  | errored error h => exact reported_proceeds (.inr h) hl hrow
  | validated taskID vrfProof publicKey hid h =>
    refine validated_proceeds h hl hrow ?_ hadm
    rintro rfl
    rw [env.validTaskID_empty] at hid
    cases hid
  | rejected taskID vrfProof publicKey hid h =>
    refine abort_proceeds h hl hrow (hcopied fun _ => ?_)
    have hunit : unit taskID = {flight.task.taskIDCommitment} := hadm
    rw [hunit]
    rfl
  | aborted call reason h => exact abort_proceeds h hl hrow (hcopied hcopy.member)
  | uploaded hst h =>
    have hval : flight.readStatus.isValidated = true := by
      rcases hst with hx | hx
      all_goals
        rw [hx]
        rfl
    exact success_proceeds hl hrow hcopy (hread hval) h
  | nothing call h =>
    rw [h]
    exact Proceeds.refl hl

end

/-! ## the system -/

variable (unit) in
structure RelayInv (s : RelayState) : Prop where
  lifecycle : Lifecycle unit s.world.db
  books : Books s.world.db
  flights : ∀ flight ∈ s.flights, FlightOk unit s.world.db flight

/-- the assumptions on an operation: those on the calls, the same for a group of three, and nodes
ask for nothing but their own status. -/
def RelayOp.Admissible (unit : Text → Set Text) (s : RelayState) : RelayOp → Prop
  | .attempt _ i call => ∀ flight, s.flights[i]? = some flight → call.Admissible unit flight
  | .validateGroup _ i j k taskID _ _ => ∀ f g h, s.flights[i]? = some f → s.flights[j]? = some g →
      s.flights[k]? = some h →
        unit taskID = {c | c ∈ [f.task, g.task, h.task].map (·.taskIDCommitment)}
  | .request op => op.isRequest = true
  | _ => True

lemma TaskStep.of_db_eq (hl : Lifecycle unit w.db) (hb : Books w.db)
    (h : w'.db = w.db) : TaskStep unit w w' := (aside_of_db_eq h).taskStep hl hb

section
variable (h : RelayInv unit s)
include h

/-- an operation on tasks proceeds, unless it creates one or is a group validation that fails. -/
lemma TaskWork.proceeds
    (hadm : op.Admissible unit s) (hw : TaskWork s w' op) : Proceeds unit s.world w' ∨
      (∃ env t, op = .create env t ∧ Ok (createTask env t.task) s.world () w') ∨
      ((∃ env i j k taskID proof key, op = .validateGroup env i j k taskID proof key) ∧
        (∃ e, Fails (op.tx s.flights) s.world e w') ∧ w'.db = s.world.db) := by
  cases hw with
  | undone op hw => exact .inl (hw.proceeds h.lifecycle)
  | created env t hok => exact .inr (.inl ⟨env, t, rfl, hok⟩)
  | called env i call flight hf hcall =>
    exact .inl (callStep_proceeds h.lifecycle (h.flights flight (mem_of_getElem? hf))
      (hadm flight hf) hcall)
  | group env i j k taskID vrfProof publicKey f1 f2 f3 h1 h2 h3 hok =>
    refine .inl (validateTaskGroup_proceeds h.lifecycle (fun t ht => ?_) (hadm f1 f2 f3 h1 h2 h3) hok)
    obtain ⟨flight, hm, rfl⟩ : ∃ flight ∈ s.flights, t = flight.task := by
      simp only [mem_cons, not_mem_nil, or_false] at ht
      rcases ht with rfl | rfl | rfl
      · exact ⟨f1, mem_of_getElem? h1, rfl⟩
      · exact ⟨f2, mem_of_getElem? h2, rfl⟩
      · exact ⟨f3, mem_of_getElem? h3, rfl⟩
    obtain ⟨row, hrow, hcopy, -⟩ := h.flights flight hm
    exact ⟨row, hrow, hcopy.id⟩
  | groupFailed env i j k taskID vrfProof publicKey e hf hdb =>
    exact .inr (.inr ⟨⟨env, i, j, k, taskID, vrfProof, publicKey, rfl⟩, ⟨e, hf⟩, hdb⟩)
  | slashed env node hok => exact .inl (slash_proceeds h.lifecycle hok)

/-- **every operation** keeps the lifecycle and the books. -/
theorem exec_taskStep (hadm : op.Admissible unit s) : TaskStep unit s.world (op.exec s).world := by
  have hwork : op.onTasks = true → TaskStep unit s.world (op.exec s).world := by
    intro hop
    rcases (taskWork_exec hop s).proceeds h hadm with hp | ⟨env, t, -, hok⟩ | ⟨-, -, hdb⟩
    · exact hp.taskStep h.books
    · obtain ⟨-, hnew, hr, hw⟩ := createTask_ok hok
      have hposts : Posts [paymentDraft t.task] s.world (afterCreate env _ _) := posts_afterCreate hr
      rw [hw]
      exact ⟨lifecycle_afterCreate h.lifecycle hnew, books_afterCreate h.books hnew hr,
        evolution_afterCreate hnew, _, hposts.appends.logOf⟩
    · exact TaskStep.of_db_eq h.lifecycle h.books hdb
  cases hop : op.onFunds with
  | true => exact (fundsOnly_relayOp hop s.flights s.world).aside.taskStep h.lifecycle h.books
  | false =>
    cases op with
    | request op =>
      exact (aside_of_nodeSide (nodeSide_nodeOp hadm s.world)).taskStep h.lifecycle h.books
    | _ => first | exact hwork rfl | cases hop

lemma flights_ok (op : RelayOp) :
    ∀ flight ∈ op.flights s.world.db s.flights, FlightOk unit s.world.db flight := by
  intro flight hm
  cases flightFrom_of_mem hm with
  | old flight hm => exact h.flights flight hm
  | read c t ht =>
    refine ⟨t, ?_, Copies.of_row (h.lifecycle.rows c t ht), fun hv => .inr ⟨hv, rfl⟩⟩
    show s.world.db.tasks.get t.taskIDCommitment = some t
    rwa [key_of_get ht]
  | synced flight row hfl hrow hq => exact flightOk_sync (h.flights flight hfl) hrow hq

lemma step_relayInv (hadm : op.Admissible unit s) : RelayInv unit (op.exec s) := by
  obtain ⟨hl, hb, hev, -⟩ := exec_taskStep h hadm
  exact ⟨hl, hb, fun flight hm => (flights_ok h op flight hm).evolution hev⟩

/-- **whatever the operations**, a run leaves what one of them leaves. -/
theorem run_taskStep {ops : List RelayOp}
    (hops : Along RelayOp.exec (RelayOp.Admissible unit) ops s) :
    TaskStep unit s.world (run RelayOp.exec ops s).world := by
  induction ops generalizing s with
  | nil => exact TaskStep.of_db_eq h.lifecycle h.books rfl
  | cons op ops ih =>
    obtain ⟨-, -, hev, ds, hds⟩ := exec_taskStep h hops.1
    obtain ⟨hl, hb, hev', ds', hds'⟩ := ih (step_relayInv h hops.1) hops.2
    rw [hds, append_assoc] at hds'
    exact ⟨hl, hb, hev.trans hev', ds ++ ds', hds'⟩

lemma RelayInv.aside (ha : Aside s.world w') : RelayInv unit { s with world := w' } := by
  obtain ⟨hl, hb, hev, -⟩ := ha.taskStep h.lifecycle h.books
  exact ⟨hl, hb, fun flight hm => (h.flights flight hm).evolution hev⟩

end

end CrynuxRelay
