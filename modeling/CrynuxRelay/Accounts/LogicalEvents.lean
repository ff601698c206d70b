import CrynuxRelay.Vestings.Releases

/-!
# Reasons identify events

* `RelayAccountEventType.Args` -- what an event of a type is about; `LogicalEvent`;
* `LogicalEvent.reason` -- the reason that its builder writes;
* `LogicalEvent.ReadsBack` -- the splitter and the parsers return its type and its arguments;
* `reason_identifies` -- **no two events share a reason, and a reason reads back unless it is that of a
  delegator's share in a task whose commitment holds the separator**.
-/

namespace CrynuxRelay

open List Text

/-- the hexadecimal text of a hash or of an address: it has no separator. -/
abbrev HexText := { s : Text // '-' ∉ s }

abbrev RowID := { n : Nat // 0 < n ∧ n < 2 ^ 64 }

/-- the task, the task and the delegator, the transaction and the network, the record, or the record and
the released range. -/
def RelayAccountEventType.Args : RelayAccountEventType → Type
  | .taskIncome | .daoTaskShare | .taskPayment | .taskRefund => Text
  | .userDelegation => Text × HexText
  | .deposit => HexText × Text
  | .withdraw | .withdrawFeeIncome | .withdrawRefund | .vestingCreated => RowID
  | .vestingRelease => RowID × Nat × Nat

abbrev LogicalEvent := Σ t : RelayAccountEventType, t.Args

namespace LogicalEvent

def reason (e : LogicalEvent) : Text :=
  match e with
  | ⟨.taskIncome, c⟩ | ⟨.daoTaskShare, c⟩ | ⟨.taskPayment, c⟩ | ⟨.taskRefund, c⟩ => reason2 e.1 c
  | ⟨.userDelegation, c, user⟩ => reason3 .userDelegation c user.1
  | ⟨.deposit, txHash, network⟩ => depositReason txHash.1 network
  | ⟨.withdraw, id⟩ | ⟨.withdrawFeeIncome, id⟩ | ⟨.withdrawRefund, id⟩ | ⟨.vestingCreated, id⟩ =>
    reason2 e.1 (Text.decimal id.1)
  | ⟨.vestingRelease, id, x, y⟩ => vestingReleaseReason id.1 x y

def parts : LogicalEvent → List Text
  | ⟨.taskIncome, c⟩ | ⟨.daoTaskShare, c⟩ | ⟨.taskPayment, c⟩ | ⟨.taskRefund, c⟩ => [c]
  | ⟨.userDelegation, c, user⟩ => [c, user.1]
  | ⟨.deposit, txHash, network⟩ => [txHash.1, network]
  | ⟨.withdraw, id⟩ | ⟨.withdrawFeeIncome, id⟩ | ⟨.withdrawRefund, id⟩ | ⟨.vestingCreated, id⟩ =>
    [Text.decimal id.1]
  | ⟨.vestingRelease, id, x, y⟩ => [Text.decimal id.1, Text.ofInt x, Text.ofInt y]

/-- the numbers of an event, as the validator and the parsers of vestings read them. -/
def Parses : LogicalEvent → Prop
  | ⟨.withdraw, id⟩ | ⟨.withdrawFeeIncome, id⟩ | ⟨.withdrawRefund, id⟩ =>
    Text.parseUint 64 (Text.decimal id.1) = some id.1
  | ⟨.vestingCreated, id⟩ => parseVestingCreatedReason (reason ⟨.vestingCreated, id⟩) = some id.1
  | ⟨.vestingRelease, id, x, y⟩ =>
    parseVestingReleaseReason (reason ⟨.vestingRelease, id, x, y⟩) = some (id.1, (x : Int), (y : Int))
  | _ => True

def ReadsBack (e : LogicalEvent) : Prop :=
  splitRelayAccountEventReason e.1 e.reason = some (Text.decimal e.1.code :: e.parts) ∧ e.Parses

/-- the commitment of the task of a delegator's share holds no separator. -/
def PlainCommitment : LogicalEvent → Prop
  | ⟨.userDelegation, c, _⟩ => '-' ∉ c
  | _ => True

variable {e e' : LogicalEvent} {t : RelayAccountEventType}

lemma split_reason (h : e.PlainCommitment) :
    splitRelayAccountEventReason e.1 e.reason = some (decimal e.1.code :: e.parts) := by
  obtain ⟨t, a⟩ := e
  cases t with
  | userDelegation => exact splitReason_reason3 rfl h _
  | deposit => exact splitReason_reason3 rfl a.1.2 _
  | vestingRelease =>
    exact splitReason_reason4 rfl (dash_not_mem_decimal _) (dash_not_mem_ofInt (by omega)) _
  | _ => exact splitReason_reason2 rfl _

lemma parses (e : LogicalEvent) : e.Parses := by
  obtain ⟨t, a⟩ := e
  cases t with
  | withdraw | withdrawFeeIncome | withdrawRefund => exact parseUint_decimal a.2.2
  | vestingCreated =>
    have hs := split_reason (e := ⟨.vestingCreated, a⟩) trivial
    have hid : a.1 ≠ 0 := a.2.1.ne'
    simp only [Parses, parseVestingCreatedReason, hs, parts, parseUint_decimal a.2.2, hid, if_false]
  | vestingRelease =>
    have hr := releaseOf_releaseDraft [] (a.2.2 : Int) a.1.2.2 (Int.natCast_nonneg a.2.1)
    rwa [releaseOf, releaseDraft, if_pos rfl] at hr
  | _ => trivial

lemma parts_inj {a a' : t.Args} (h : parts ⟨t, a⟩ = parts ⟨t, a'⟩) : a = a' := by
  cases t with
  | userDelegation => exact Prod.ext (cons.inj h).1 (Subtype.ext (cons.inj (cons.inj h).2).1)
  | deposit => exact Prod.ext (Subtype.ext (cons.inj h).1) (cons.inj (cons.inj h).2).1
  | withdraw | withdrawFeeIncome | withdrawRefund | vestingCreated =>
    exact Subtype.ext (decimal_injective (cons.inj h).1)
  | vestingRelease =>
    obtain ⟨hid, hr⟩ := cons.inj h
    obtain ⟨hx, hr⟩ := cons.inj hr
    have hy := (cons.inj hr).1
    exact Prod.ext (Subtype.ext (decimal_injective hid))
      (Prod.ext (Int.ofNat.inj (ofInt_inj hx)) (Int.ofNat.inj (ofInt_inj hy)))
  | _ => exact (cons.inj h).1

/-- the parts around the last separator. -/
lemma share_inj {c c' u u' : Text} (hu : '-' ∉ u) (hu' : '-' ∉ u') (h : c ++ '-' :: u = c' ++ '-' :: u') :
    c = c' ∧ u = u' := by
  have hr := congrArg (fun s : Text => cut '-' s.reverse) h
  simp only [reverse_append, reverse_cons, append_assoc, singleton_append,
    cut_append (mem_reverse.not.2 hu), cut_append (mem_reverse.not.2 hu'), Option.some.injEq,
    Prod.mk.injEq, reverse_inj] at hr
  exact ⟨hr.2, hr.1⟩

lemma exists_reason2 (e : LogicalEvent) : ∃ x, e.reason = reason2 e.1 x := by
  obtain ⟨t, a⟩ := e
  cases t <;> exact ⟨_, rfl⟩

lemma reason_inj (h : e'.reason = e.reason) : e' = e := by
  obtain ⟨x', hx'⟩ := exists_reason2 e'
  obtain ⟨x, hx⟩ := exists_reason2 e
  obtain ⟨t, a⟩ := e
  obtain ⟨t', a'⟩ := e'
  obtain ⟨rfl, -⟩ : t' = t ∧ x' = x := reason2_inj.1 (hx'.symm.trans (h.trans hx))
  by_cases ht : t' = .userDelegation
  · subst ht
    obtain ⟨hc, hu⟩ := share_inj a'.2.2 a.2.2 (reason2_inj.1 h).2
    exact congrArg (Sigma.mk _) (Prod.ext hc (Subtype.ext hu))
  · have hplain (b : t'.Args) : PlainCommitment ⟨t', b⟩ := by cases t' <;> trivial
    have hs := split_reason (hplain a')
    rw [h, split_reason (hplain a)] at hs
    exact congrArg (Sigma.mk t') (parts_inj (cons.inj (Option.some.inj hs)).2.symm)

/-- the splitter stops at the first separator, which is one of the commitment. -/
lemma not_readsBack {c : Text} {user : HexText} (hc : '-' ∈ c) : ¬ ReadsBack ⟨.userDelegation, c, user⟩ := by
  rintro ⟨hs, -⟩
  obtain ⟨a, b, rfl, ha⟩ := eq_append_cons_of_mem hc
  have hr : reason ⟨.userDelegation, a ++ '-' :: b, user⟩ = reason3 .userDelegation a (b ++ '-' :: user.1) := by
    rw [reason, reason3, reason3, append_assoc, cons_append]
  rw [hr, splitReason_reason3 rfl ha] at hs
  have heq : a = a ++ '-' :: b := (cons.inj (cons.inj (Option.some.inj hs)).2).1
  exact ha (heq ▸ hc)

end LogicalEvent

/-- **reasons identify events**: no two events have one reason, the unique index rejects only an event that
is already there, and a reason reads back exactly when it is not that of a delegator's share in a task whose
commitment holds the separator. -/
theorem reason_identifies (e : LogicalEvent) :
    (∀ e' : LogicalEvent, e'.reason = e.reason → e' = e) ∧
    (∀ (log : EventLog) (es : List LogicalEvent), log.rows.map (·.reason) = es.map (·.reason) →
      (log.reasonTaken e.reason = true ↔ e ∈ es)) ∧
    (e.ReadsBack ↔ e.PlainCommitment) := by
  refine ⟨fun e' h => LogicalEvent.reason_inj h, fun log es hlog => ?_, fun h => ?_,
    fun h => ⟨LogicalEvent.split_reason h, e.parses⟩⟩
  · have hmem : log.reasonTaken e.reason = true ↔ e.reason ∈ log.rows.map (·.reason) := by
      simp [EventLog.reasonTaken]
    rw [hmem, hlog, mem_map]
    constructor
    · rintro ⟨e', he', hr⟩
      exact LogicalEvent.reason_inj hr ▸ he'
    · exact fun he => ⟨e, he, rfl⟩
  · obtain ⟨t, a⟩ := e
    cases t with
    | userDelegation => exact fun hc => LogicalEvent.not_readsBack hc h
    | _ => trivial

/-- the share of delegator `0xd` in the task `a-b` is read as one of delegator `b-0xd` in the task `a`. -/
theorem reason_of_dashed_commitment :
    ¬ LogicalEvent.ReadsBack ⟨.userDelegation, "a-b".toList, "0xd".toList, by decide⟩ ∧
    splitRelayAccountEventReason .userDelegation
      (LogicalEvent.reason ⟨.userDelegation, "a-b".toList, "0xd".toList, by decide⟩) =
      some ["8".toList, "a".toList, "b-0xd".toList] :=
  ⟨LogicalEvent.not_readsBack (by decide), by decide⟩

end CrynuxRelay
