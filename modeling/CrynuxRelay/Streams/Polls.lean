import Mathlib.Data.List.TakeWhile
import CrynuxRelay.Accounts.Marks
import CrynuxRelay.Model.EventStream

/-!
# What a poll returns

* `passed` -- the rows of a page before the first pending one;
* `getRelayAccountEventLogs_ok` -- a poll returns the passed rows with a right MAC, and rejects the others;
* `mem_passed_of_le` -- **a poll passes over no visible row** that is not rejected;
* `PayloadReady`, `payloadReady_of_eventRule` -- accepted events have a payload, so that polls succeed.
-/

namespace CrynuxRelay

open List Table Keyset

variable {l : List StreamRow} {logs : List RelayAccountEventLog} {ids : List Nat}
  {e : RelayAccountEvent} {db : Db}

/-! ## the loop -/

def beforePending (l : List StreamRow) : List StreamRow :=
  l.takeWhile fun r => r.event.status ≠ .pending

section loop
variable {macs : Macs} {vestingMap : Nat → Option VestingRecord}

/-- what the loop returns of the rows that it goes through. -/
structure Collected (macs : Macs) (rows : List StreamRow) (logs : List RelayAccountEventLog)
    (ids : List Nat) : Prop where
  rejected : ids = (rows.filter fun r => r.event.status = .processed ∧ macs.valid r = false).map (·.id)
  returned : logs.map (·.id) =
    (rows.filter fun r => r.event.status = .processed ∧ macs.valid r = true).map (·.id)
  content : ∀ g ∈ logs, ∃ r ∈ rows, ∃ payload, r.event.status = .processed ∧ macs.valid r = true ∧
    g = r.toLog payload

lemma collected_nil : Collected macs [] [] [] := ⟨rfl, rfl, nofun⟩

section collected
variable {rows : List StreamRow} {r : StreamRow} (h : Collected macs rows logs ids)
include h

lemma Collected.content_cons : ∀ g ∈ logs, ∃ x ∈ r :: rows, ∃ payload,
    x.event.status = .processed ∧ macs.valid x = true ∧ g = x.toLog payload := by
  intro g hg
  obtain ⟨x, hx, hc⟩ := h.content g hg
  exact ⟨x, mem_cons_of_mem r hx, hc⟩

lemma Collected.skip (hst : r.event.status ≠ .processed) : Collected macs (r :: rows) logs ids := by
  refine ⟨?_, ?_, h.content_cons⟩
  · rw [filter_cons_of_neg (by simp [hst])]
    exact h.rejected
  · rw [filter_cons_of_neg (by simp [hst])]
    exact h.returned

lemma Collected.deliver (hst : r.event.status = .processed) (hvalid : macs.valid r = true)
    (payload : EventPayload) : Collected macs (r :: rows) (r.toLog payload :: logs) ids := by
  refine ⟨?_, ?_, fun g hg => ?_⟩
  · rw [filter_cons_of_neg (by simp [hvalid])]
    exact h.rejected
  · rw [filter_cons_of_pos (by simp [hst, hvalid])]
    exact congrArg (r.id :: ·) h.returned
  · rcases mem_cons.1 hg with rfl | hg
    · exact ⟨r, mem_cons_self, payload, hst, hvalid, rfl⟩
    · exact h.content_cons g hg

lemma Collected.reject (hst : r.event.status = .processed) (hvalid : macs.valid r = false) :
    Collected macs (r :: rows) logs (r.id :: ids) := by
  refine ⟨?_, ?_, h.content_cons⟩
  · rw [filter_cons_of_pos (by simp [hst, hvalid])]
    exact congrArg (r.id :: ·) h.rejected
  · rw [filter_cons_of_neg (by simp [hvalid])]
    exact h.returned

end collected

lemma collectEventLogs_ok (h : collectEventLogs macs vestingMap l = .ok (logs, ids)) :
    Collected macs (beforePending l) logs ids := by
  induction l generalizing logs ids with
  | nil =>
    cases h
    exact collected_nil
  | cons r l ih =>
    rw [collectEventLogs] at h
    cases hst : r.event.status with
    | pending =>
      rw [hst] at h
      cases h
      rw [beforePending, takeWhile_cons_of_neg (by simp [hst])]
      exact collected_nil
    | invalid =>
      rw [hst] at h
      rw [beforePending, takeWhile_cons_of_pos (by simp [hst])]
      exact (ih h).skip (by rw [hst]; exact fun hc => nomatch hc)
    | processed =>
      rw [hst] at h
      simp only at h
      rw [beforePending, takeWhile_cons_of_pos (by simp [hst])]
      cases hc : collectEventLogs macs vestingMap l with
      | error e =>
        rw [hc] at h
        split at h
        · split at h <;> cases h
        · cases h
      | ok p =>
        rw [hc] at h
        have hl := ih hc
        split at h
        · next hvalid =>
          split at h
          · cases h
          · cases h
            exact hl.deliver hst hvalid _
        · next hvalid =>
          cases h
          exact hl.reject hst (Bool.eq_false_iff.2 hvalid)

variable (macs) in
lemma collectEventLogs_total
    (h : ∀ r ∈ l, r.event.status = .processed → ∃ p, buildEventPayload vestingMap r.event = .ok p) :
    ∃ p, collectEventLogs macs vestingMap l = .ok p := by
  induction l with
  | nil => exact ⟨_, rfl⟩
  | cons r l ih =>
    obtain ⟨p, hp⟩ := ih fun x hx => h x (mem_cons_of_mem r hx)
    rw [collectEventLogs]
    cases hst : r.event.status with
    | pending => exact ⟨_, rfl⟩
    | invalid => exact ⟨p, hp⟩
    | processed =>
      simp only
      obtain ⟨payload, hpayload⟩ := h r mem_cons_self hst
      rw [hp, hpayload]
      split
      all_goals exact ⟨_, rfl⟩

end loop

/-! ## the page -/

def passed (events : Table StreamRow.id) (startID limit : Nat) : List StreamRow :=
  beforePending (eventLogsPage events startID limit)

section page
variable {events : Table StreamRow.id} {startID limit : Nat} {r : StreamRow}

lemma mem_eventLogsPage (h : r ∈ eventLogsPage events startID limit) :
    events.get r.id = some r ∧ startID < r.id ∧ r.event.status ≠ .invalid := by
  obtain ⟨hmem, hlt⟩ := mem_above.1 (mem_above_of_page h)
  obtain ⟨hrow, hst⟩ := mem_filter.1 hmem
  exact ⟨mem_rows.1 hrow, hlt startID rfl, of_decide_eq_true hst⟩

lemma mem_passed (h : r ∈ passed events startID limit) :
    events.get r.id = some r ∧ startID < r.id ∧ r.event.status = .processed := by
  obtain ⟨hget, hlt, hne⟩ := mem_eventLogsPage (takeWhile_subset _ h)
  refine ⟨hget, hlt, ?_⟩
  have hp : decide (r.event.status ≠ .pending) = true :=
    mem_takeWhile_imp (p := fun r : StreamRow => decide (r.event.status ≠ .pending)) h
  cases hst : r.event.status with
  | pending => exact absurd hst (of_decide_eq_true hp)
  | invalid => exact absurd hst hne
  | processed => rfl

lemma above_of_visible (hget : events.get r.id = some r) (hlt : startID < r.id)
    (hst : r.event.status ≠ .invalid) : r ∈ above StreamRow.id (some startID)
      (events.rows.filter fun r => decide (r.event.status ≠ .invalid)) := by
  refine mem_above.2 ⟨mem_filter.2 ⟨mem_rows.2 hget, decide_eq_true hst⟩, ?_⟩
  intro k hk
  cases hk
  exact hlt

lemma pairwise_eventLogsPage (events : Table StreamRow.id) (startID limit : Nat) :
    (eventLogsPage events startID limit).Pairwise fun a b => a.id < b.id := by
  refine pairwise_map.1 (pairwise_page ?_)
  exact (nodup_map_key_rows events).sublist (filter_sublist.map _)

/-- **a poll passes over no visible row** that is not rejected. -/
theorem mem_passed_of_le {x : StreamRow} (hget : events.get r.id = some r) (hlt : startID < r.id)
    (hst : r.event.status ≠ .invalid) (hx : x ∈ passed events startID limit) (hle : r.id ≤ x.id) :
    r ∈ passed events startID limit := by
  have hpage : r ∈ eventLogsPage events startID limit := by
    refine mem_page_of_le ?_ (above_of_visible hget hlt hst) (takeWhile_subset _ hx) hle
    exact fun a ha b hb hab => inj_on_of_nodup_map (nodup_map_key_rows events)
      (mem_filter.1 ha).1 (mem_filter.1 hb).1 hab
  exact mem_takeWhile_of_le (pairwise_eventLogsPage events startID limit) hx hpage hle

lemma exists_first (hlimit : 1 ≤ limit) (hget : events.get r.id = some r) (hlt : startID < r.id)
    (hst : r.event.status ≠ .invalid) : ∃ x ∈ eventLogsPage events startID limit, x.id ≤ r.id ∧
      (x.event.status ≠ .pending → x ∈ passed events startID limit) := by
  obtain ⟨x, t, hpage, hle⟩ := exists_page_eq_cons hlimit (above_of_visible hget hlt hst)
  have hpage : eventLogsPage events startID limit = x :: t := hpage
  refine ⟨x, by rw [hpage]; exact mem_cons_self, hle, fun hx => ?_⟩
  rw [passed, hpage, beforePending, takeWhile_cons_of_pos (by simpa using hx)]
  exact mem_cons_self

end page

/-! ## payloads -/

def PayloadReady (db : Db) (e : RelayAccountEvent) : Prop :=
  ∃ payload, buildEventPayload db.vestingRecords.get e = .ok payload

lemma buildEventPayload_congr {m m' : Nat → Option VestingRecord}
    (h : e.type = .vestingCreated → ∀ n, parseVestingCreatedReason e.reason = some n → m n = m' n) :
    buildEventPayload m e = buildEventPayload m' e := by
  cases hty : e.type with
  | vestingCreated =>
    simp only [buildEventPayload, hty]
    cases hp : parseVestingCreatedReason e.reason with
    | none => rfl
    | some n => simp only [h hty n hp]
  | _ => simp only [buildEventPayload, hty]

lemma vestingIDsForEvents_total (h : ∀ r ∈ l, r.event.status = .processed → PayloadReady db r.event) :
    ∃ ids, vestingIDsForEvents l = .ok ids ∧ ∀ r ∈ l, r.event.type = .vestingCreated →
      r.event.status = .processed → ∀ n, parseVestingCreatedReason r.event.reason = some n → n ∈ ids := by
  induction l with
  | nil => exact ⟨[], rfl, nofun⟩
  | cons r l ih =>
    obtain ⟨ids, hids, hmem⟩ := ih fun x hx => h x (mem_cons_of_mem r hx)
    rw [vestingIDsForEvents]
    split
    · next hskip =>
      refine ⟨ids, hids, fun x hx hty hst => ?_⟩
      rcases mem_cons.1 hx with rfl | hx
      · exact absurd hskip (not_or.2 ⟨not_not.2 hty, not_not.2 hst⟩)
      · exact hmem x hx hty hst
    · next hdo =>
      obtain ⟨hty, hst⟩ := not_or.1 hdo
      obtain ⟨payload, hp⟩ := h r mem_cons_self (not_not.1 hst)
      simp only [buildEventPayload, not_not.1 hty] at hp
      obtain ⟨n, hn⟩ : ∃ n, parseVestingCreatedReason r.event.reason = some n := by
        cases hn : parseVestingCreatedReason r.event.reason with
        | none => rw [hn] at hp; cases hp
        | some n => exact ⟨n, rfl⟩
      rw [hn, hids]
      refine ⟨n :: ids, rfl, fun x hx hty hst k hk => ?_⟩
      rcases mem_cons.1 hx with rfl | hx
      · rw [hn] at hk
        cases hk
        exact mem_cons_self
      · exact mem_cons_of_mem n (hmem x hx hty hst k hk)

section polls
variable {macs : Macs} {events : Table StreamRow.id} {startID limit : Nat}

variable (macs startID limit) in
lemma getRelayAccountEventLogs_total
    (h : ∀ r, events.get r.id = some r → r.event.status = .processed → PayloadReady db r.event) :
    ∃ logs ids, getRelayAccountEventLogs macs db events startID limit = .ok (logs, ids) := by
  have hpage : ∀ r ∈ eventLogsPage events startID limit, r.event.status = .processed →
      PayloadReady db r.event := fun r hr => h r (mem_eventLogsPage hr).1
  obtain ⟨ids, hids, hmem⟩ := vestingIDsForEvents_total hpage
  have hload : loadVestingRecordsForEvents db (eventLogsPage events startID limit) =
      .ok fun n => if n ∈ ids then db.vestingRecords.get n else none := by
    rw [loadVestingRecordsForEvents, hids]
    rfl
  have hbuild : ∀ r ∈ eventLogsPage events startID limit, r.event.status = .processed →
      ∃ p, buildEventPayload (fun n => if n ∈ ids then db.vestingRecords.get n else none) r.event =
        .ok p := by
    intro r hr hst
    obtain ⟨p, hp⟩ := hpage r hr hst
    refine ⟨p, (buildEventPayload_congr fun hty n hn => ?_).trans hp⟩
    exact if_pos (hmem r hr hty hst n hn)
  obtain ⟨⟨logs, rejected⟩, hc⟩ := collectEventLogs_total macs hbuild
  refine ⟨logs, rejected, ?_⟩
  show (loadVestingRecordsForEvents db _).bind _ = _
  rwa [hload]

/-- **what a poll returns.** -/
theorem getRelayAccountEventLogs_ok (h : getRelayAccountEventLogs macs db events startID limit =
    .ok (logs, ids)) : Collected macs (passed events startID limit) logs ids := by
  have h : (loadVestingRecordsForEvents db (eventLogsPage events startID limit)).bind
      (fun m => collectEventLogs macs m (eventLogsPage events startID limit)) = .ok (logs, ids) := h
  cases hl : loadVestingRecordsForEvents db (eventLogsPage events startID limit) with
  | error e => rw [hl] at h; cases h
  | ok m =>
    rw [hl] at h
    exact collectEventLogs_ok h

end polls

/-- **an event that the validator accepts has a payload.** -/
theorem payloadReady_of_eventRule {chain : Chain}
    (h : eventRule chain db e = true) : PayloadReady db e := by
  unfold eventRule at h
  split at h
  case h_1 txHash network hty hs =>
    rw [hty] at hs
    exact ⟨.deposit txHash network, by simp only [buildEventPayload, hty, hs]⟩
  case h_10 hty hs =>
    split at h
    · next n hn =>
      split at h
      · next v hv =>
        exact ⟨.vestingCreated (buildVestingCreatedPayload v), by
          simp only [buildEventPayload, hty, hn, hv]⟩
      · cases h
    · cases h
  case h_11 x y z hty hs =>
    split at h
    · next n a b hx hy hz =>
      rw [hty] at hs
      have hparse : parseVestingReleaseReason e.reason = some (n, a, b) := by
        simp only [parseVestingReleaseReason, hs, hx, hy, hz]
        rfl
      exact ⟨.vestingRelease n, by simp only [buildEventPayload, hty, hparse]⟩
    · cases h
  case h_12 => cases h
  all_goals
    next hty hs => exact ⟨.empty, by simp only [buildEventPayload, hty]⟩

end CrynuxRelay
