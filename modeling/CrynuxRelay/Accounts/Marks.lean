import CrynuxRelay.Accounts.Backing

/-!
# What a batch does to the events

A batch changes nothing of an event but its status, and only of the events it has read.

* `validatePending_valid`, `validatePending_invalid` -- an accepted event follows its rule, and a rejected
  one breaks it or is a debit;
* `Marks` -- the statuses after a batch; `marks_processPending` -- **every batch marks**, accepted,
  rejected or failed;
* `projectPending_marks` -- one round of the projector.
-/

namespace CrynuxRelay

open List EventLog

variable {chain : Chain} {db : Db} {batch : List RelayAccountEvent}
  {l : List RelayAccountEvent} {balances : Text → Option Int} {e : RelayAccountEvent}

/-! ## rejected events -/

lemma validateCandidates_invalid (h : e ∈ (validateCandidates chain db balances l).2) :
    e ∈ l ∧ (eventRule chain db e = true → e.type.isDebit = true) := by
  induction l generalizing balances with
  | nil => exact absurd h not_mem_nil
  | cons x l ih =>
    rw [validateCandidates] at h
    split at h
    · exact ⟨mem_cons_of_mem x (ih h).1, (ih h).2⟩
    · next hno =>
      rcases mem_cons.1 h with rfl | h
      · refine ⟨mem_cons_self, fun hrule => ?_⟩
        rw [hrule, Bool.true_and, debitCovered] at hno
        split at hno
        · by_contra hd
          exact hno (decide_eq_true fun h => absurd h hd)
        · exact absurd rfl hno
      · exact ⟨mem_cons_of_mem x (ih h).1, (ih h).2⟩

lemma validateCandidates_valid
    (h : e ∈ (validateCandidates chain db balances l).1) : eventRule chain db e = true := by
  induction l generalizing balances with
  | nil => exact absurd h not_mem_nil
  | cons x l ih =>
    rw [validateCandidates] at h
    split at h
    · next hyes =>
      rcases mem_cons.1 h with rfl | h
      · exact (Bool.and_eq_true_iff.1 hyes).1
      · exact ih h
    · exact ih h

lemma validateCandidates_mem (h : e ∈ l) :
    e ∈ (validateCandidates chain db balances l).1 ∨ e ∈ (validateCandidates chain db balances l).2 := by
  induction l generalizing balances with
  | nil => exact absurd h not_mem_nil
  | cons x l ih =>
    rw [validateCandidates]
    rcases mem_cons.1 h with rfl | h
    · split
      · exact .inl mem_cons_self
      · exact .inr mem_cons_self
    · split
      · exact (ih h).imp_left (mem_cons_of_mem x)
      · exact (ih h).imp_right (mem_cons_of_mem x)

section validated
variable {valid invalid : List RelayAccountEvent}
  (h : validatePendingRelayAccountEvents chain db batch = .ok (valid, invalid))
include h

/-- **a rejected event** breaks its rule or is a debit. -/
theorem validatePending_invalid (he : e ∈ invalid) :
    e ∈ batch ∧ (eventRule chain db e = true → e.type.isDebit = true) := by
  rw [(validatePending_parts h).2, mem_append] at he
  rcases he with he | he
  · obtain ⟨hmem, hno⟩ := mem_filter.1 he
    refine ⟨hmem, fun hrule => ?_⟩
    rw [isCandidateEvent_of_eventRule hrule] at hno
    cases hno
  · obtain ⟨hmem, hrule⟩ := validateCandidates_invalid he
    exact ⟨(mem_filter.1 hmem).1, hrule⟩

lemma validatePending_valid (he : e ∈ valid) : e ∈ batch ∧ eventRule chain db e = true := by
  refine ⟨(validatePending_sublist h).subset he, ?_⟩
  rw [(validatePending_parts h).1] at he
  exact validateCandidates_valid he

lemma validatePending_mem (he : e ∈ batch) : e ∈ valid ∨ e ∈ invalid := by
  obtain ⟨hvalid, hinvalid⟩ := validatePending_parts h
  rw [hvalid, hinvalid, mem_append]
  cases hc : isCandidateEvent e with
  | true => exact (validateCandidates_mem (mem_filter.2 ⟨he, hc⟩)).imp_right .inr
  | false => exact .inr (.inl (mem_filter.2 ⟨he, by rw [hc]; rfl⟩))

end validated

/-! ## statuses -/

/-- the events after a batch: `f` is the status of each. -/
structure Marks (chain : Chain) (batch : List RelayAccountEvent) (db db' : Db)
    (f : RelayAccountEvent → RelayAccountEventStatus) : Prop where
  rows : db'.relayAccountEvents.rows = db.relayAccountEvents.rows.map fun e => { e with status := f e }
  outside : ∀ e ∈ db.relayAccountEvents.rows, e ∉ batch → f e = e.status
  accepted : ∀ e ∈ batch, e.type.isDebit = false → eventRule chain db e = true →
    f e = .pending ∨ f e = .processed
  vestings : db'.vestingRecords = db.vestingRecords

lemma EventLog.rows_mark (log : EventLog) (p : RelayAccountEvent → Bool)
    (st : RelayAccountEventStatus) :
    (log.mark p st).rows = log.rows.map fun e => { e with status := if p e then st else e.status } := by
  refine map_congr_left fun e _ => ?_
  split
  · rfl
  · rfl

lemma EventLog.eq_of_id (log : EventLog) {e' : RelayAccountEvent} (he : e ∈ log.rows)
    (he' : e' ∈ log.rows) (h : e.id = e'.id) : e = e' := by
  have hnd := log.ids_nodup
  exact inj_on_of_nodup_map hnd he he' h

lemma EventLog.mem_ids {log : EventLog} (hl : ∀ e ∈ l, e ∈ log.rows) (he : e ∈ log.rows) :
    e.id ∈ idsOf l ↔ e ∈ l := by
  refine ⟨fun h => ?_, fun h => mem_map_of_mem h⟩
  obtain ⟨e', he', hid⟩ := mem_map.1 h
  rwa [← log.eq_of_id (hl e' he') he hid]

lemma marks_refl (chain : Chain) {db' : Db}
    (hbatch : ∀ e ∈ batch, e.status = .pending) (he : db'.relayAccountEvents = db.relayAccountEvents)
    (hv : db'.vestingRecords = db.vestingRecords) : Marks chain batch db db' fun e => e.status where
  rows := by rw [he, List.map_id']
  outside := fun e _ _ => rfl
  accepted := fun e h _ _ => .inl (hbatch e h)
  vestings := hv

section marks
variable {valid invalid : List RelayAccountEvent}
  (h : validatePendingRelayAccountEvents chain db batch = .ok (valid, invalid))
  (hbatch : ∀ e ∈ batch, e ∈ db.relayAccountEvents.rows ∧ e.status = .pending)
include h hbatch

lemma marks_invalid : Marks chain batch db (markInvalid invalid db) fun e =>
    if e.id ∈ idsOf invalid then .invalid else e.status := by
  have hinv : ∀ e ∈ invalid, e ∈ db.relayAccountEvents.rows :=
    fun e he => (hbatch e (validatePending_invalid h he).1).1
  refine ⟨?_, ?_, ?_, rfl⟩
  · show (db.relayAccountEvents.mark (fun e => e.id ∈ idsOf invalid) .invalid).rows = _
    rw [rows_mark]
    simp only [decide_eq_true_eq]
  · intro e he hno
    rw [if_neg]
    rw [mem_ids hinv he]
    exact fun hmem => hno (validatePending_invalid h hmem).1
  · intro e he hdebit hrule
    rw [if_neg]
    · exact .inl (hbatch e he).2
    · rw [mem_ids hinv (hbatch e he).1]
      intro hmem
      rw [(validatePending_invalid h hmem).2 hrule] at hdebit
      cases hdebit

lemma marks_valid : Marks chain batch db
    (markProcessed valid (addMergedAccounts valid (markInvalid invalid db))) fun e =>
      if e ∈ batch then (if e.id ∈ idsOf invalid then .invalid else .processed) else e.status := by
  have hmark := marks_invalid h hbatch
  have hinv : ∀ e ∈ invalid, e ∈ db.relayAccountEvents.rows :=
    fun e he => (hbatch e (validatePending_invalid h he).1).1
  have hval : ∀ e ∈ valid, e ∈ db.relayAccountEvents.rows :=
    fun e he => (hbatch e ((validatePending_sublist h).subset he)).1
  refine ⟨?_, ?_, ?_, rfl⟩
  · show ((markInvalid invalid db).relayAccountEvents.mark
      (fun e => e.id ∈ idsOf valid ∧ isPending e) .processed).rows = _
    rw [rows_mark, hmark.rows, map_map]
    refine map_congr_left fun e he => ?_
    simp only [Function.comp_apply, isPending, decide_eq_true_eq, mem_ids hval he, mem_ids hinv he]
    by_cases hb : e ∈ batch
    · rw [if_pos hb]
      by_cases hi : e ∈ invalid
      · simp [hi]
      · have hv : e ∈ valid := (validatePending_mem h hb).resolve_right hi
        simp [hi, hv, (hbatch e hb).2]
    · have hi : e ∉ invalid := fun hi => hb (validatePending_invalid h hi).1
      have hv : e ∉ valid := fun hv => hb ((validatePending_sublist h).subset hv)
      simp [hi, hv, hb]
  · intro e he hno
    rw [if_neg hno]
  · intro e he hdebit hrule
    have hacc := hmark.accepted e he hdebit hrule
    rw [if_pos he]
    split
    · next hi =>
      rw [if_pos hi] at hacc
      rcases hacc with hacc | hacc <;> cases hacc
    · exact .inr rfl

end marks

/-- **every batch marks**; one that goes through leaves none of its events pending. -/
theorem marks_processPending (chain : Chain) {w : World}
    (hbatch : ∀ e ∈ batch, e ∈ w.db.relayAccountEvents.rows ∧ e.status = .pending) :
    ∃ f, Marks chain batch w.db (Tx.after (processPendingRelayAccountEvents chain batch) w).db f ∧
      ((processPendingRelayAccountEvents chain batch w).1.isOk = true →
        ∀ e ∈ batch, f e ≠ .pending) := by
  rcases Tx.ok_or_fails (processPendingRelayAccountEvents chain batch) w with ⟨u, h⟩ | ⟨x, h⟩
  · obtain ⟨valid, invalid, hv, -, hw⟩ := processPending_ok.1 h
    refine ⟨_, by rw [hw]; exact marks_valid hv hbatch, fun _ e he => ?_⟩
    rw [if_pos he]
    split
    all_goals exact fun hc => nomatch hc
  · have hno : ∀ f : RelayAccountEvent → RelayAccountEventStatus,
        (processPendingRelayAccountEvents chain batch w).1.isOk = true → ∀ e ∈ batch, f e ≠ .pending := by
      intro f hok
      rw [h] at hok
      cases hok
    rcases processPending_fails_inv h with hw | ⟨invalid, hv, hw⟩
    · refine ⟨_, by rw [hw]; exact marks_refl chain (fun e he => (hbatch e he).2) rfl rfl, hno _⟩
    · exact ⟨_, by rw [hw]; exact marks_invalid hv hbatch, hno _⟩

def projectorBatch (db : Db) (limit : Nat) : List RelayAccountEvent := (pendingEvents db).take limit

lemma mem_projectorBatch {limit : Nat} (h : e ∈ projectorBatch db limit) :
    e ∈ db.relayAccountEvents.rows ∧ e.status = .pending := by
  obtain ⟨hrow, hp⟩ := mem_filter.1 (mem_of_mem_take h)
  exact ⟨hrow, of_decide_eq_true hp⟩

theorem projectPending_marks (chain : Chain) (limit : Nat) (w : World) :
    ∃ f, Marks chain (projectorBatch w.db limit) w.db
        (Tx.after (projectPending chain limit) w).db f ∧
      ((projectPending chain limit w).1.isOk = true →
        ∀ e ∈ projectorBatch w.db limit, f e ≠ .pending) := by
  show ∃ f, Marks chain _ w.db (Tx.when (projectorBatch w.db limit ≠ [])
      (processPendingRelayAccountEvents chain (projectorBatch w.db limit)) w).2.db f ∧
    ((Tx.when (projectorBatch w.db limit ≠ [])
      (processPendingRelayAccountEvents chain (projectorBatch w.db limit)) w).1.isOk = true →
        ∀ e ∈ projectorBatch w.db limit, f e ≠ .pending)
  by_cases hb : projectorBatch w.db limit = []
  · rw [hb]
    exact ⟨_, marks_refl chain (nofun) rfl rfl, fun _ e he => absurd he not_mem_nil⟩
  · rw [Tx.when, if_pos (decide_eq_true hb)]
    exact marks_processPending chain fun e he => mem_projectorBatch he

end CrynuxRelay
