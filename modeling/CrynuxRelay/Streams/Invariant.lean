import CrynuxRelay.Base.Ranges
import CrynuxRelay.Streams.Polls

/-!
# The rows and the wallet

* `RowStep`, `EventsStep`, `exec_events` -- what a step does to the visible rows;
* `RowsInv` -- a batch that was read is still pending, and accepted events have payloads;
* `StreamInv`, `exec_streamInv` -- the invariant: the ids received count up, and each is that of an
  accepted event.
-/

namespace CrynuxRelay

open List Option Table StreamStep StreamState

variable {macs : Macs} {events t t' : Table StreamRow.id} {s s' : StreamState} {db : Db}
  {e : RelayAccountEvent}
  {r' r : StreamRow} {limit : Nat} {logs : List RelayAccountEventLog} {ids : List Nat}

/-! ## rows -/

inductive RowStep (macs : Macs) (r r' : StreamRow) : Prop
  | same (h : r' = r)
  | processed (hp : r.event.status = .pending)
    (h : r' = { r.withStatus .processed with mac := macs.generate r.event.reason })
  | rejected (hp : r.event.status = .pending ∨ (r.event.status = .processed ∧ macs.valid r = false))
    (h : r' = r.withStatus .invalid)

/-- what a step does to the visible rows: new ones are pending. -/
structure EventsStep (macs : Macs) (t t' : Table StreamRow.id) : Prop where
  forth : ∀ id r, t.get id = some r → ∃ r', t'.get id = some r' ∧ RowStep macs r r'
  fresh : ∀ id r', t.get id = none → t'.get id = some r' → r'.event.status = .pending

lemma EventsStep.refl (macs : Macs) (t : Table StreamRow.id) : EventsStep macs t t :=
  ⟨fun _ r h => ⟨r, h, .same rfl⟩, fun _ r h h' => absurd (h.symm.trans h') (some_ne_none r).symm⟩

lemma EventsStep.of_map {f : StreamRow → StreamRow} (hf : ∀ id, t'.get id = (t.get id).map f)
    (h : ∀ id r, t.get id = some r → RowStep macs r (f r)) : EventsStep macs t t' where
  forth := fun id r hget => ⟨f r, by rw [hf, hget]; rfl, h id r hget⟩
  fresh := fun id r' hnone hget => by
    rw [hf, hnone] at hget
    cases hget

lemma get_setInvalid (ids : List Nat) (t : Table StreamRow.id) (id : Nat) :
    (setInvalid ids t).get id =
      (t.get id).map fun r => if r.id ∈ ids then r.withStatus .invalid else r :=
  get_mapRows _ _ _ _

lemma get_setProcessed (macs : Macs) (ids : List Nat) (t : Table StreamRow.id) (id : Nat) :
    (setProcessed macs ids t).get id = (t.get id).map fun r =>
      if r.id ∈ ids ∧ r.event.status = .pending then
        { r.withStatus .processed with mac := macs.generate r.event.reason } else r :=
  get_mapRows _ _ _ _

lemma EventsStep.back (h : EventsStep macs t t') {id : Nat} (hget : t'.get id = some r')
    (hst : r'.event.status ≠ .pending) : ∃ r, t.get id = some r ∧ RowStep macs r r' := by
  cases hr : t.get id with
  | none => exact absurd (h.fresh id r' hr hget) hst
  | some r =>
    obtain ⟨x, hx, hstep⟩ := h.forth id r hr
    cases hget.symm.trans hx
    exact ⟨r, rfl, hstep⟩

lemma RowStep.accepted (h : RowStep macs r r') (hst : r.event.status = .processed)
    (hvalid : macs.valid r = true) : r' = r := by
  cases h with
  | same h => exact h
  | processed hp _ => rw [hst] at hp; cases hp
  | rejected hp _ =>
    rcases hp with hp | ⟨-, hv⟩
    · rw [hst] at hp; cases hp
    · rw [hvalid] at hv; cases hv

lemma RowStep.not_invalid (h : RowStep macs r r') (hst : r'.event.status ≠ .invalid) :
    r.event.status ≠ .invalid := by
  cases h with
  | same h => exact h ▸ hst
  | processed hp _ => rw [hp]; exact fun hc => nomatch hc
  | rejected _ h => exact absurd (congrArg (·.event.status) h) hst

/-! ## commits -/

lemma get_reveal (t : Table StreamRow.id) (x : StreamRow) (id : Nat) :
    (reveal t x).get id = if t.get id = none ∧ id = x.id then some x else t.get id := by
  rw [reveal]
  split
  · next hfree =>
    rw [get_insert _ _ _ hfree]
    by_cases hid : id = x.id
    · rw [if_pos hid, if_pos ⟨hid ▸ hfree, hid⟩]
    · rw [if_neg hid, if_neg fun h => hid h.2]
  · next htaken =>
    rw [if_neg]
    rintro ⟨hnone, rfl⟩
    exact htaken hnone

lemma get_foldl_reveal (l : List StreamRow) (t : Table StreamRow.id) :
    (∀ id r, t.get id = some r → (l.foldl reveal t).get id = some r) ∧
      ∀ id r, t.get id = none → (l.foldl reveal t).get id = some r → r ∈ l := by
  induction l generalizing t with
  | nil =>
    exact ⟨fun id r h => h, fun id r h h' => absurd (h.symm.trans h') (some_ne_none r).symm⟩
  | cons x l ih =>
    obtain ⟨hkeep, hnew⟩ := ih (reveal t x)
    refine ⟨fun id r h => hkeep id r ?_, fun id r h h' => ?_⟩
    · rw [get_reveal, if_neg, h]
      rw [h]
      exact fun hc => some_ne_none r hc.1
    · by_cases hid : id = x.id
      · have hx : (reveal t x).get id = some x := by rw [get_reveal, if_pos ⟨h, hid⟩]
        have hr := (hkeep id x hx).symm.trans h'
        cases hr
        exact mem_cons_self
      · refine mem_cons_of_mem x (hnew id r ?_ h')
        rwa [get_reveal, if_neg fun hc => hid hc.2]

/-! ## the cursor -/

def StreamState.receivedIDs (s : StreamState) : List Nat := s.delivered.map (·.id)

lemma le_startID {n : Nat} (h : n ∈ s.receivedIDs) : n ≤ s.startID := le_foldr_max h

lemma startID_mono (h : ∀ n ∈ s.receivedIDs, n ∈ s'.receivedIDs) : s.startID ≤ s'.startID := by
  by_contra hlt
  have hlt := not_le.1 hlt
  exact absurd (foldr_max_lt (Nat.zero_lt_of_lt hlt) fun n hn =>
    lt_of_le_of_lt (le_startID (h n hn)) hlt) (lt_irrefl _)

/-! ## the invariant -/

/-- the rows, those in flight and those of the batch: a row that was read is still pending. -/
structure RowsInv (s : StreamState) : Prop where
  inFlight : ∀ p ∈ s.inFlight, p.2.event.status = .pending
  ready : ∀ r, s.events.get r.id = some r → r.event.status = .processed → PayloadReady s.db r.event
  read : ∀ rows, s.batch = some (.read rows) →
    ∀ r ∈ rows, s.events.get r.id = some r ∧ r.event.status = .pending
  validated : ∀ valid, s.batch = some (.validated valid) → ∀ e ∈ valid,
    (∃ r, s.events.get e.id = some r ∧ (r.event.status = .pending → r.event = e)) ∧ PayloadReady s.db e

/-- the ids received count up, and each is that of an accepted event with a right MAC. -/
structure StreamInv (macs : Macs) (s : StreamState) : Prop where
  rows : RowsInv s
  sorted : s.receivedIDs.Pairwise (· < ·)
  sound : ∀ g ∈ s.delivered, ∃ r payload, s.events.get g.id = some r ∧ r.event.status = .processed ∧
    macs.valid r = true ∧ g = r.toLog payload

inductive PollEffect (macs : Macs) (limit : Nat) (s s' : StreamState) : Prop
  | failed (e : EventLogsError)
    (h : getRelayAccountEventLogs macs s.db s.events s.startID limit = .error e) (hs : s' = s)
  | returned (logs : List RelayAccountEventLog) (ids : List Nat)
    (hc : Collected macs (passed s.events s.startID limit) logs ids)
    (hget : ∀ id, s'.events.get id =
      (s.events.get id).map fun r => if r.id ∈ ids then r.withStatus .invalid else r)
    (hdel : s'.delivered = s.delivered ++ logs) (hdb : s'.db = s.db) (hbatch : s'.batch = s.batch)
    (hflight : s'.inFlight = s.inFlight)

lemma poll_effect (macs : Macs) (limit : Nat) (s : StreamState) :
    PollEffect macs limit s ((poll limit).exec macs s) := by
  rw [exec]
  cases h : getRelayAccountEventLogs macs s.db s.events s.startID limit with
  | error e => exact .failed e h rfl
  | ok p =>
    obtain ⟨logs, ids⟩ := p
    refine .returned logs ids (getRelayAccountEventLogs_ok h) (fun id => ?_) rfl rfl rfl rfl
    by_cases hids : ids = []
    · subst hids
      simp
    · simp only [hids, if_false]
      exact get_setInvalid ids s.events id

lemma Collected.of_mem_ids {startID : Nat}
    (hc : Collected macs (passed events startID limit) logs ids) (hget : events.get r.id = some r)
    (hmem : r.id ∈ ids) :
    r ∈ passed events startID limit ∧ r.event.status = .processed ∧ macs.valid r = false := by
  rw [hc.rejected] at hmem
  obtain ⟨x, hx, hid⟩ := mem_map.1 hmem
  obtain ⟨hpassed, hx⟩ := mem_filter.1 hx
  have hget' := (mem_passed hpassed).1
  rw [hid] at hget'
  obtain rfl : x = r := some.inj (hget'.symm.trans hget)
  exact ⟨hpassed, of_decide_eq_true hx⟩

lemma Collected.mem_logs {rows : List StreamRow} (hc : Collected macs rows logs ids) (hr : r ∈ rows)
    (hst : r.event.status = .processed) (hvalid : macs.valid r = true) : r.id ∈ logs.map (·.id) := by
  rw [hc.returned]
  exact mem_map_of_mem (mem_filter.2 ⟨hr, decide_eq_true ⟨hst, hvalid⟩⟩)

theorem exec_events (macs : Macs) (h : RowsInv s) (i : StreamStep) :
    EventsStep macs s.events (i.exec macs s).events := by
  cases i with
  | insert tx d createdAt => exact EventsStep.refl macs _
  | commit tx =>
    obtain ⟨hkeep, hnew⟩ := get_foldl_reveal ((s.inFlight.filter fun p => p.1 = tx).map (·.2)) s.events
    refine ⟨fun id r hget => ⟨r, hkeep id r hget, .same rfl⟩, fun id r' hnone hget => ?_⟩
    obtain ⟨p, hp, rfl⟩ := mem_map.1 (hnew id r' hnone hget)
    exact h.inFlight p (mem_filter.1 hp).1
  | rollback tx => exact EventsStep.refl macs _
  | validate chain =>
    rw [exec]
    split
    · next rows hbatch =>
      split
      · exact EventsStep.refl macs _
      · next valid invalid hv =>
        refine EventsStep.of_map (get_setInvalid _ _) fun id r hget => ?_
        split
        · next hmem =>
          refine .rejected (.inl ?_) rfl
          obtain ⟨e, he, hid⟩ := mem_map.1 hmem
          obtain ⟨x, hx, rfl⟩ := mem_map.1 (validatePending_invalid hv he).1
          obtain ⟨hget', hst⟩ := h.read rows hbatch x hx
          have hid : x.id = r.id := hid
          have hrid : r.id = id := key_of_get hget
          rw [hid, hrid, hget] at hget'
          cases hget'
          exact hst
        · exact .same rfl
    · exact EventsStep.refl macs _
  | process =>
    rw [exec]
    split
    · split
      · exact EventsStep.refl macs _
      · refine EventsStep.of_map (get_setProcessed _ _ _) fun id r hget => ?_
        split
        · next hmem => exact .processed hmem.2 rfl
        · exact .same rfl
    · exact EventsStep.refl macs _
  | failBatch => exact EventsStep.refl macs _
  | poll limit =>
    have heff := poll_effect macs limit s
    cases heff with
    | failed _ _ hs => rw [hs]; exact EventsStep.refl macs _
    | returned logs ids hc hget _ _ _ _ =>
      refine EventsStep.of_map hget fun id r hr => ?_
      split
      · next hmem =>
        have hid : r.id = id := key_of_get hr
        exact .rejected (.inr (hc.of_mem_ids (hid ▸ hr) hmem).2) rfl
      · exact .same rfl
  | _ =>
    rw [exec]
    split
    all_goals exact EventsStep.refl macs _

/-! ## every step keeps the invariant -/

def PendingKept (t t' : Table StreamRow.id) : Prop :=
  ∀ id r, t.get id = some r → r.event.status = .pending → t'.get id = some r

lemma RowStep.pending (h : RowStep macs r r') (hst : r'.event.status = .pending) : r' = r := by
  cases h with
  | same h => exact h
  | processed _ h => rw [h] at hst; cases hst
  | rejected _ h => rw [h] at hst; cases hst

section
variable (h : RowsInv s) (hev : EventsStep macs s.events s'.events)
  (hkept : PendingKept s.events s'.events) (hdb : ∀ e, PayloadReady s.db e → PayloadReady s'.db e)
include h hev hkept hdb

lemma RowsInv.ready_kept (hget : s'.events.get r'.id = some r') (hst : r'.event.status = .processed) :
    PayloadReady s'.db r'.event := by
  obtain ⟨r, hr, hstep⟩ := hev.back hget (by rw [hst]; exact fun hc => nomatch hc)
  cases hstep with
  | same he =>
    subst he
    exact hdb _ (h.ready r' hr hst)
  | processed hp _ =>
    have hsame := (hkept _ r hr hp).symm.trans hget
    cases hsame
    rw [hst] at hp
    cases hp
  | rejected _ he =>
    rw [he] at hst
    cases hst

lemma RowsInv.quiet (hbatch : s'.batch = s.batch ∨ s'.batch = none)
    (hflight : ∀ p ∈ s'.inFlight, p.2.event.status = .pending) : RowsInv s' := by
  have hold : ∀ b, s'.batch = some b → s.batch = some b := by
    intro b hb
    rcases hbatch with he | he
    · exact he ▸ hb
    · rw [he] at hb
      cases hb
  refine ⟨hflight, fun r' hget hst => h.ready_kept hev hkept hdb hget hst, ?_, ?_⟩
  · intro rows hb r hr
    obtain ⟨hget, hst⟩ := h.read rows (hold _ hb) r hr
    exact ⟨hkept _ r hget hst, hst⟩
  · intro valid hb e he
    obtain ⟨⟨r, hget, hsame⟩, hready⟩ := h.validated valid (hold _ hb) e he
    obtain ⟨r', hget', hstep⟩ := hev.forth _ r hget
    refine ⟨⟨r', hget', fun hst => ?_⟩, hdb e hready⟩
    obtain rfl := hstep.pending hst
    exact hsame hst

end

lemma payloadReady_of_keepsVestings {db' : Db} (h : StreamState.KeepsVestings db db') (he : PayloadReady db e) :
    PayloadReady db' e := by
  obtain ⟨payload, he⟩ := he
  by_cases hty : e.type = .vestingCreated
  · simp only [buildEventPayload, hty] at he
    cases hp : parseVestingCreatedReason e.reason with
    | none => rw [hp] at he; cases he
    | some n =>
      rw [hp] at he
      simp only at he
      cases hv : db.vestingRecords.get n with
      | none => rw [hv] at he; cases he
      | some v =>
        have hid : v.id = n := key_of_get hv
        obtain ⟨v', hv'⟩ := isSome_iff_exists.1 (h v (mem_rows.2 (hid ▸ hv)))
        rw [hid] at hv'
        exact ⟨.vestingCreated (buildVestingCreatedPayload v'), by
          simp only [buildEventPayload, hty, hp, hv']⟩
  · exact ⟨payload, (buildEventPayload_congr fun hc => absurd hc hty).trans he⟩

lemma PayloadReady.withStatus {e' : RelayAccountEvent} (h : PayloadReady db e)
    (ht : e'.type = e.type) (hr : e'.reason = e.reason) (hid : e'.id = e.id) : PayloadReady db e' := by
  obtain ⟨payload, h⟩ := h
  refine ⟨payload, ?_⟩
  rw [← h]
  simp only [buildEventPayload, ht, hr, hid]

lemma PendingKept.refl (t : Table StreamRow.id) : PendingKept t t := fun _ _ h _ => h

lemma RowsInv.noBatch (h : RowsInv s) : RowsInv { s with batch := none } :=
  h.quiet (EventsStep.refl ⟨id, fun _ _ => true⟩ _) (PendingKept.refl _) (fun _ he => he) (.inr rfl)
    h.inFlight

lemma validate_rows (h : RowsInv s) (chain : Chain) : RowsInv ((validate chain).exec macs s) := by
  have hev := exec_events macs h (.validate chain)
  cases hbatch : s.batch with
  | none => simpa only [exec, hbatch] using h
  | some b =>
    cases b with
    | validated valid => simpa only [exec, hbatch] using h
    | read rows =>
      cases hv : validatePendingRelayAccountEvents chain s.db (rows.map (·.event)) with
      | error e =>
        simp only [exec, hbatch, hv]
        exact h.noBatch
      | ok p =>
        simp only [exec, hbatch, hv] at hev ⊢
        refine ⟨h.inFlight, ?_, fun rows hb => (by cases hb), ?_⟩
        · intro r' hget hst
          obtain ⟨r, hr, hstep⟩ := hev.back hget (by rw [hst]; exact fun hc => nomatch hc)
          rw [get_setInvalid, hr] at hget
          have hr' := some.inj hget
          beta_reduce at hr'
          split at hr'
          · rw [← hr'] at hst
            cases hst
          · subst hr'
            exact h.ready r hr hst
        · intro valid' hb e he
          cases hb
          obtain ⟨hmem, hrule⟩ := validatePending_valid hv he
          obtain ⟨r, hr, rfl⟩ := mem_map.1 hmem
          obtain ⟨hget, hst⟩ := h.read rows hbatch r hr
          obtain ⟨r', hget', hstep⟩ := hev.forth _ r hget
          have hready : PayloadReady s.db r.event := payloadReady_of_eventRule hrule
          exact ⟨⟨r', hget', fun hp => by rw [hstep.pending hp]⟩, hready⟩

lemma process_rows (h : RowsInv s) : RowsInv (process.exec macs s) := by
  have hev := exec_events macs h .process
  cases hbatch : s.batch with
  | none => simpa only [exec, hbatch] using h
  | some b =>
    cases b with
    | read rows => simpa only [exec, hbatch] using h
    | validated valid =>
      by_cases hnil : valid = []
      · simp only [exec, hbatch, hnil, if_true]
        exact h.noBatch
      · simp only [exec, hbatch, hnil, if_false] at hev ⊢
        refine ⟨h.inFlight, ?_, fun rows hb => (by cases hb), fun valid' hb => (by cases hb)⟩
        intro r' hget hst
        obtain ⟨r, hr, hstep⟩ := hev.back hget (by rw [hst]; exact fun hc => nomatch hc)
        rw [get_setProcessed, hr] at hget
        have hr' := some.inj hget
        beta_reduce at hr'
        split at hr'
        · next hdone =>
          obtain ⟨e, he, hid⟩ := mem_map.1 hdone.1
          obtain ⟨⟨x, hx, hsame⟩, hready⟩ := h.validated valid hbatch e he
          have hrid : r.id = r'.id := key_of_get hr
          rw [hid, hrid, hr] at hx
          cases hx
          rw [← hr']
          rw [← hsame hdone.2] at hready
          exact hready.withStatus rfl rfl rfl
        · subst hr'
          exact h.ready r hr hst

lemma poll_rows (h : RowsInv s) (heff : PollEffect macs limit s s')
    (hev : EventsStep macs s.events s'.events) : RowsInv s' := by
  cases heff with
  | failed _ _ hs => rw [hs]; exact h
  | returned logs ids hc hget hdel hdb hbatch hflight =>
    refine h.quiet hev (fun id r hr hp => ?_) (fun e he => hdb ▸ he) (.inl hbatch) (hflight ▸ h.inFlight)
    rw [hget, hr]
    have hid : r.id = id := key_of_get hr
    have hno : r.id ∉ ids := by
      intro hmem
      rw [(hc.of_mem_ids (hid ▸ hr) hmem).2.1] at hp
      cases hp
    simp only [map_some, hno, if_false]

lemma exec_rowsInv (h : RowsInv s) (i : StreamStep) : RowsInv (i.exec macs s) := by
  have hev := exec_events macs h i
  cases i with
  | insert tx d createdAt =>
    refine h.quiet hev (PendingKept.refl _) (fun _ he => he) (.inl rfl) fun p hp => ?_
    rcases mem_append.1 hp with hp | hp
    · exact h.inFlight p hp
    · rw [mem_singleton.1 hp]
      rfl
  | commit tx =>
    refine h.quiet hev (fun id r hr _ => ?_) (fun _ he => he) (.inl rfl)
      fun p hp => h.inFlight p (mem_filter.1 hp).1
    exact (get_foldl_reveal _ s.events).1 id r hr
  | rollback tx =>
    exact h.quiet hev (PendingKept.refl _) (fun _ he => he) (.inl rfl)
      fun p hp => h.inFlight p (mem_filter.1 hp).1
  | other db =>
    rw [exec] at hev ⊢
    split
    · next hkeeps =>
      rw [if_pos hkeeps] at hev
      exact h.quiet hev (PendingKept.refl _) (fun _ he => payloadReady_of_keepsVestings hkeeps he)
        (.inl rfl) h.inFlight
    · exact h
  | readBatch limit =>
    rw [exec]
    split
    · refine ⟨h.inFlight, h.ready, fun rows hb r hr => ?_, fun valid hb => (by cases hb)⟩
      cases hb
      obtain ⟨hrow, hst⟩ := mem_filter.1 (Keyset.mem_above.1 (Keyset.mem_above_of_page hr)).1
      exact ⟨mem_rows.1 hrow, of_decide_eq_true hst⟩
    · exact h
  | validate chain => exact validate_rows h chain
  | process => exact process_rows h
  | failBatch => exact h.noBatch
  | poll limit => exact poll_rows h (poll_effect macs limit s) hev

lemma exec_delivered (macs : Macs) (s : StreamState) (i : StreamStep) :
    (i.exec macs s).delivered = s.delivered ∨ ∃ limit, i = .poll limit := by
  cases i with
  | poll limit => exact .inr ⟨limit, rfl⟩
  | insert tx d createdAt => exact .inl rfl
  | commit tx => exact .inl rfl
  | rollback tx => exact .inl rfl
  | other db =>
    rw [exec]
    split
    all_goals exact .inl rfl
  | readBatch limit =>
    rw [exec]
    split
    all_goals exact .inl rfl
  | failBatch => exact .inl rfl
  | _ =>
    rw [exec]
    split
    · split
      all_goals exact .inl rfl
    · exact .inl rfl

lemma Collected.sorted (hc : Collected macs (passed s.events s.startID limit) logs ids) :
    (logs.map (·.id)).Pairwise (· < ·) ∧ ∀ n ∈ logs.map (·.id), s.startID < n := by
  rw [hc.returned]
  constructor
  · refine pairwise_map.2 ((pairwise_eventLogsPage s.events s.startID limit).sublist ?_)
    exact filter_sublist.trans (takeWhile_sublist _)
  · intro n hn
    obtain ⟨r, hr, rfl⟩ := mem_map.1 hn
    exact (mem_passed (mem_filter.1 hr).1).2.1

theorem exec_streamInv (h : StreamInv macs s) (i : StreamStep) : StreamInv macs (i.exec macs s) := by
  have hev := exec_events macs h.rows i
  have hold : ∀ g ∈ s.delivered, ∃ r payload, (i.exec macs s).events.get g.id = some r ∧
      r.event.status = .processed ∧ macs.valid r = true ∧ g = r.toLog payload := by
    intro g hg
    obtain ⟨r, payload, hget, hst, hvalid, hlog⟩ := h.sound g hg
    obtain ⟨r', hget', hstep⟩ := hev.forth _ r hget
    obtain rfl := hstep.accepted hst hvalid
    exact ⟨r', payload, hget', hst, hvalid, hlog⟩
  refine ⟨exec_rowsInv h.rows i, ?_, ?_⟩
  · rcases exec_delivered macs s i with hdel | ⟨limit, rfl⟩
    · rw [receivedIDs, hdel]
      exact h.sorted
    · have heff := poll_effect macs limit s
      cases heff with
      | failed _ _ hs => rw [hs]; exact h.sorted
      | returned logs ids hc _ hdel _ _ _ =>
        obtain ⟨hsorted, habove⟩ := hc.sorted
        rw [receivedIDs, hdel, map_append]
        refine pairwise_append.2 ⟨h.sorted, hsorted, fun n hn m hm => ?_⟩
        exact lt_of_le_of_lt (le_startID hn) (habove m hm)
  · rcases exec_delivered macs s i with hdel | ⟨limit, rfl⟩
    · rwa [hdel]
    · have heff := poll_effect macs limit s
      cases heff with
      | failed _ _ hs => rw [hs]; exact h.sound
      | returned logs ids hc _ hdel _ _ _ =>
        intro g hg
        rw [hdel] at hg
        rcases mem_append.1 hg with hg | hg
        · exact hold g hg
        · obtain ⟨r, hr, payload, hst, hvalid, rfl⟩ := hc.content g hg
          obtain ⟨r', hget', hstep⟩ := hev.forth _ r (mem_passed hr).1
          obtain rfl := hstep.accepted hst hvalid
          exact ⟨r', payload, hget', hst, hvalid, rfl⟩

end CrynuxRelay
