import CrynuxRelay.Accounts.Posting

/-!
# Reasons

The reason of an event is its only key: the type and the parts it is made of can be read back.

* `reason2_inj` -- two reasons with the same text have the same type and the same rest;
* `splitReason_reason2`, `splitReason_reason3`, `splitReason_reason4` -- the parts that the validator
  sees, when no part but the last holds a separator;
* `Recorded` -- an event with a given reason is in the log, and how the writers change that;
* `logOf` -- the contents of all events, whatever has become of them: only writers change it.
-/

namespace CrynuxRelay

open List Text

variable {t t' : RelayAccountEventType} {x reason : Text} {db : Db} {ds : List EventDraft}

/-! ## reading a reason back -/

lemma RelayAccountEventType.code_injective (h : t.code = t'.code) : t = t' := by
  cases t <;> cases t' <;> first | rfl | exact absurd h (by decide)

lemma reason2_inj {x' : Text} : reason2 t x = reason2 t' x' ↔ t = t' ∧ x = x' := by
  constructor
  · intro h
    have hc := congrArg (cut '-') h
    rw [reason2, reason2, cut_append (dash_not_mem_decimal _),
      cut_append (dash_not_mem_decimal _), Option.some.injEq, Prod.mk.injEq] at hc
    exact ⟨RelayAccountEventType.code_injective (decimal_injective hc.1), hc.2⟩
  · rintro ⟨rfl, rfl⟩
    rfl

lemma reason2_decimal_inj {n m : Nat} :
    reason2 t (decimal n) = reason2 t' (decimal m) ↔ t = t' ∧ n = m := by
  rw [reason2_inj]
  exact and_congr_right fun _ => ⟨decimal_injective, fun h => h ▸ rfl⟩

/-! ## the parts of a reason -/

lemma splitN_reason2 (t : RelayAccountEventType) (x : Text) (n : Nat) :
    splitN '-' (n + 2) (reason2 t x) = decimal t.code :: splitN '-' (n + 1) x :=
  splitN_append (dash_not_mem_decimal _) x n

lemma splitReason_of_parts {parts : List Text}
    (h : splitN '-' t.reasonParts reason = decimal t.code :: parts)
    (hn : parts.length + 1 = t.reasonParts) :
    splitRelayAccountEventReason t reason = some (decimal t.code :: parts) := by
  rw [splitRelayAccountEventReason]
  simp only [h, length_cons, hn, head?_cons, and_self, if_true]

lemma splitReason_reason2 (ht : t.reasonParts = 2) (x : Text) :
    splitRelayAccountEventReason t (reason2 t x) = some [decimal t.code, x] := by
  refine splitReason_of_parts ?_ ht.symm
  rw [ht, splitN_reason2, splitN_one]

lemma splitReason_reason3 (ht : t.reasonParts = 3) (hx : '-' ∉ x) (y : Text) :
    splitRelayAccountEventReason t (reason3 t x y) = some [decimal t.code, x, y] := by
  refine splitReason_of_parts ?_ ht.symm
  rw [ht, reason3, splitN_reason2, splitN_append hx, splitN_one]

lemma splitReason_reason4 (ht : t.reasonParts = 4) {y : Text} (hx : '-' ∉ x) (hy : '-' ∉ y)
    (z : Text) :
    splitRelayAccountEventReason t (reason4 t x y z) = some [decimal t.code, x, y, z] := by
  refine splitReason_of_parts ?_ ht.symm
  rw [ht, reason4, reason3, splitN_reason2, splitN_append hx, splitN_append hy, splitN_one]

def RelayAccountEventType.ofTask : RelayAccountEventType → Bool
  | .taskPayment | .taskRefund | .taskIncome | .daoTaskShare | .userDelegation => true
  | _ => false

/-! ## events on record -/

def Recorded (db : Db) (reason : Text) : Prop :=
  db.relayAccountEvents.reasonTaken reason = true

instance (db : Db) (reason : Text) : Decidable (Recorded db reason) :=
  inferInstanceAs (Decidable (_ = true))

lemma recorded_iff : Recorded db reason ↔ ∃ e ∈ db.relayAccountEvents.rows, e.reason = reason := by
  rw [Recorded, EventLog.reasonTaken, any_eq_true]
  simp only [decide_eq_true_eq]

lemma not_recorded_iff : db.relayAccountEvents.reasonTaken reason = false ↔ ¬ Recorded db reason := by
  rw [Recorded, Bool.not_eq_true]

lemma Appends.recorded_iff {db' : Db} (h : Appends ds db db')
    (reason : Text) : Recorded db' reason ↔ Recorded db reason ∨ ∃ d ∈ ds, d.reason = reason := by
  obtain ⟨es, hr, hd, -⟩ := h
  rw [CrynuxRelay.recorded_iff, CrynuxRelay.recorded_iff, hr, ← hd]
  constructor
  · rintro ⟨e, he, hre⟩
    rcases mem_append.1 he with he | he
    · exact .inl ⟨e, he, hre⟩
    · exact .inr ⟨e.draft, mem_map_of_mem he, hre⟩
  · rintro (⟨e, he, hre⟩ | ⟨d, hd, hre⟩)
    · exact ⟨e, mem_append_left _ he, hre⟩
    · obtain ⟨e, he, rfl⟩ := mem_map.1 hd
      exact ⟨e, mem_append_right _ he, hre⟩

/-! ## the log -/

def logOf (db : Db) : List EventDraft := db.relayAccountEvents.rows.map (·.draft)

lemma Appends.logOf {db' : Db} (h : Appends ds db db') :
    CrynuxRelay.logOf db' = CrynuxRelay.logOf db ++ ds := by
  obtain ⟨es, hr, hd, -⟩ := h
  rw [CrynuxRelay.logOf, hr, map_append, hd]
  rfl

lemma recorded_iff_log : Recorded db reason ↔ ∃ d ∈ logOf db, d.reason = reason := by
  rw [recorded_iff]
  constructor
  · rintro ⟨e, he, hr⟩
    exact ⟨e.draft, mem_map_of_mem he, hr⟩
  · rintro ⟨d, hd, hr⟩
    obtain ⟨e, he, rfl⟩ := mem_map.1 hd
    exact ⟨e, he, hr⟩

lemma logOf_mark (log : EventLog) (p : RelayAccountEvent → Bool) (st : RelayAccountEventStatus) :
    (log.mark p st).rows.map (·.draft) = log.rows.map (·.draft) := by
  show (log.rows.map fun e => if p e then { e with status := st } else e).map (·.draft) = _
  rw [map_map]
  apply map_congr_left
  intro e he
  show (if p e then { e with status := st } else e).draft = e.draft
  split
  · rfl
  · rfl

end CrynuxRelay
