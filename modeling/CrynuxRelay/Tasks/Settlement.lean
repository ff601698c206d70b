import Mathlib.Tactic.Ring
import Mathlib.Tactic.Linarith
import CrynuxRelay.Model.Validate

/-!
# The payments of a group settlement

* `ValidatedGroup` -- a group of three at the time its representative uploads the result;
* `sum_groupPayments` -- what the loop over the paid members pays in total;
* `settlement_conserves_iff` -- **the payments add up to the fee of the representative exactly when
  the shares are exact, or when lower fees hide the remainders**: the code adds the remainders of the
  weighted fees to a payment without dividing them by the total score.
-/

namespace CrynuxRelay

open List

variable {t : InferenceTask} {l : List InferenceTask} {order : Nat}

/-! ## the group -/

/-- the members of a group before the validation, in the order of their speed, with the fee of each
and the status that the validation gives it. -/
structure ValidatedGroup where
  before : List InferenceTask
  size : before.length = 3
  fee_nonneg : ∀ t ∈ before, 0 ≤ t.taskFee
  outcome : InferenceTask → TaskStatus
  outcome_mem : ∀ t ∈ assignValidationGroupQosScores before, outcome t = .groupValidated ∨
    outcome t = .endGroupRefund ∨ outcome t = .endInvalidated ∨ outcome t = .endAborted
  outcome_aborted : ∀ t ∈ assignValidationGroupQosScores before,
    t.status = .endAborted → outcome t = .endAborted
  representative : InferenceTask
  unique_representative : (assignValidationGroupQosScores before).filter
    (fun t => outcome t = .groupValidated) = [representative]

def ValidatedGroup.members (g : ValidatedGroup) : List InferenceTask :=
  (assignValidationGroupQosScores g.before).map fun t => { t with status := g.outcome t }

/-! ## assigned scores -/

lemma assignScoresFrom_fee (ht : t ∈ assignScoresFrom order l) : ∃ u ∈ l, u.taskFee = t.taskFee := by
  induction l generalizing order with
  | nil => simp [assignScoresFrom] at ht
  | cons u l ih =>
    rw [assignScoresFrom] at ht
    split at ht
    all_goals
      rcases mem_cons.1 ht with rfl | ht
      · exact ⟨u, mem_cons_self, rfl⟩
      · obtain ⟨v, hv, e⟩ := ih ht
        exact ⟨v, mem_cons_of_mem u hv, e⟩

lemma two_le_getTaskQosScore {n : Nat} (h : n < 3) : 2 ≤ getTaskQosScore n := by
  match n, h with
  | 0, _ | 1, _ | 2, _ => decide

lemma assignScoresFrom_score (hl : order + l.length ≤ 3)
    (ht : t ∈ assignScoresFrom order l) (hs : t.status ≠ .endAborted) : 2 ≤ t.qosScore.getD 0 := by
  induction l generalizing order with
  | nil => simp [assignScoresFrom] at ht
  | cons u l ih =>
    rw [length_cons] at hl
    rw [assignScoresFrom] at ht
    split at ht
    · rcases mem_cons.1 ht with rfl | ht
      · exact two_le_getTaskQosScore (by omega)
      · exact ih (by omega) ht
    · next hu =>
      rcases mem_cons.1 ht with rfl | ht
      · exact absurd hs hu
      · exact ih (by omega) ht

lemma length_assignScoresFrom (order : Nat) (l : List InferenceTask) :
    (assignScoresFrom order l).length = l.length := by
  induction l generalizing order with
  | nil => rfl
  | cons u l ih =>
    rw [assignScoresFrom]
    split
    all_goals rw [length_cons, ih, length_cons]

lemma ValidatedGroup.length_members (g : ValidatedGroup) : g.members.length = 3 := by
  rw [members, length_map, assignValidationGroupQosScores]
  split
  · rw [length_map, g.size]
  · rw [length_assignScoresFrom, g.size]

lemma ValidatedGroup.member_fee (g : ValidatedGroup) (ht : t ∈ g.members) : 0 ≤ t.taskFee := by
  obtain ⟨u, hu, rfl⟩ := mem_map.1 ht
  show 0 ≤ u.taskFee
  rw [assignValidationGroupQosScores] at hu
  split at hu
  · obtain ⟨v, hv, rfl⟩ := mem_map.1 hu
    exact g.fee_nonneg v hv
  obtain ⟨v, hv, e⟩ := assignScoresFrom_fee hu
  rw [← e]
  exact g.fee_nonneg v hv

lemma ValidatedGroup.paid_score (g : ValidatedGroup) (ht : t ∈ g.members)
    (hp : isPaidInGroup t = true) : 2 ≤ t.qosScore.getD 0 := by
  obtain ⟨u, hu, rfl⟩ := mem_map.1 ht
  have hs : u.status ≠ .endAborted := by
    intro hs
    simp [isPaidInGroup, g.outcome_aborted u hu hs] at hp
  show 2 ≤ u.qosScore.getD 0
  rw [assignValidationGroupQosScores] at hu
  split at hu
  · next hall =>
    obtain ⟨v, hv, rfl⟩ := mem_map.1 hu
    exact absurd (decide_eq_true hs) (filter_eq_nil_iff.1 hall v hv)
  · exact assignScoresFrom_score (by rw [g.size]) hu hs

lemma ValidatedGroup.representative_paid (g : ValidatedGroup) :
    { g.representative with status := .groupValidated } ∈ g.members.filter isPaidInGroup := by
  have hr : g.representative ∈ (assignValidationGroupQosScores g.before).filter
      (fun t => g.outcome t = .groupValidated) := by
    rw [g.unique_representative]
    exact mem_singleton_self _
  obtain ⟨hm, ho⟩ := mem_filter.1 hr
  have ho : g.outcome g.representative = .groupValidated := of_decide_eq_true ho
  refine mem_filter.2 ⟨mem_map.2 ⟨g.representative, hm, by rw [ho]⟩, ?_⟩
  simp [isPaidInGroup]

/-! ## the loop over the paid members -/

def weightedFee (t : InferenceTask) : Int := t.taskFee * (t.qosScore.getD 0 : Nat)

lemma groupPayments_nonneg (network : Text → Text) (score : Nat) (l : List InferenceTask)
    (hl : ∀ t ∈ l, 0 ≤ t.taskFee) (rem : Int) (hrem : 0 ≤ rem) :
    ∀ p ∈ groupPayments network score rem l, 0 ≤ p.payment := by
  induction l generalizing rem with
  | nil => simp [groupPayments]
  | cons t l ih =>
    have hw : 0 ≤ t.taskFee * (t.qosScore.getD 0 : Nat) :=
      mul_nonneg (hl t mem_cons_self) (Int.natCast_nonneg _)
    have hq : 0 ≤ (t.taskFee * (t.qosScore.getD 0 : Nat)).tdiv score :=
      Int.tdiv_nonneg hw (Int.natCast_nonneg _)
    have hr : 0 ≤ (t.taskFee * (t.qosScore.getD 0 : Nat)).tmod score :=
      Int.tmod_nonneg _ hw
    intro p hp
    rcases mem_cons.1 hp with rfl | hp
    · show 0 ≤ if l = [] then _ else _
      split
      · omega
      · exact hq
    · exact ih (fun u hu => hl u (mem_cons_of_mem t hu)) _ (by omega) p hp

/-- **what the loop pays**: the quotients of the weighted fees and, once, all the remainders. -/
theorem sum_groupPayments (network : Text → Text) (score : Nat) (l : List InferenceTask)
    (hne : l ≠ []) (rem : Int) : ((groupPayments network score rem l).map (·.payment)).sum =
      (l.map fun t => (weightedFee t).tdiv score).sum + rem +
        (l.map fun t => (weightedFee t).tmod score).sum := by
  induction l generalizing rem with
  | nil => exact absurd rfl hne
  | cons t l ih =>
    rw [groupPayments, map_cons, sum_cons, map_cons, map_cons, sum_cons, sum_cons]
    simp only [weightedFee] at ih ⊢
    by_cases hl : l = []
    · subst hl
      simp only [if_true, groupPayments, map_nil, sum_nil]
      omega
    · rw [ih hl, if_neg hl]
      omega

/-- the weighted fees are their quotients times the total score, plus the remainders. -/
lemma sum_weightedFee (score : Nat) (l : List InferenceTask) :
    (l.map weightedFee).sum = score * (l.map fun t => (weightedFee t).tdiv score).sum +
      (l.map fun t => (weightedFee t).tmod score).sum := by
  induction l with
  | nil => simp
  | cons t l ih =>
    simp only [map_cons, sum_cons]
    rw [ih, mul_add]
    have := Int.mul_tdiv_add_tmod (weightedFee t) score
    omega

lemma sum_weight_mul (f : Int) (l : List InferenceTask) :
    (l.map fun t => (t.qosScore.getD 0 : Nat) * (f - t.taskFee)).sum =
      totalScore l * f - (l.map weightedFee).sum := by
  induction l with
  | nil => simp [totalScore]
  | cons t l ih =>
    simp only [map_cons, sum_cons, totalScore, weightedFee] at ih ⊢
    rw [ih]
    push_cast
    ring

/-! ## conservation -/

def paidMembers (rows : List InferenceTask) : List InferenceTask := rows.filter isPaidInGroup

def settlementTotal (db : Db) (task : InferenceTask) (node : Node) (rows : List InferenceTask) :
    Int := ((settlementPayments db task node rows).1.map (·.payment)).sum

/-- by how much the fees of the members are below `f`, weighted by their scores. -/
def weightedShortfall (f : Int) (l : List InferenceTask) : Int :=
  (l.map fun t => (t.qosScore.getD 0 : Nat) * (f - t.taskFee)).sum

/-- the remainders of the weighted fees modulo the total score. -/
def weightedRemainder (l : List InferenceTask) : Int :=
  (l.map fun t => (weightedFee t).tmod (totalScore l)).sum

/-- no share is rounded, and the fees of the members balance around `f`. -/
def ExactShares (f : Int) (l : List InferenceTask) : Prop :=
  (∀ t ∈ l, (totalScore l : Int) ∣ weightedFee t) ∧ weightedShortfall f l = 0

/-- undivided remainders are paid, and members with lower fees make up for exactly that. -/
def HiddenRemainder (f : Int) (l : List InferenceTask) : Prop :=
  (∃ t ∈ l, ¬ (totalScore l : Int) ∣ weightedFee t) ∧
    weightedShortfall f l = (totalScore l - 1) * weightedRemainder l

lemma totalScore_pos (hne : l ≠ []) (hl : ∀ t ∈ l, 2 ≤ t.qosScore.getD 0) : 2 ≤ totalScore l := by
  cases l with
  | nil => exact absurd rfl hne
  | cons t l =>
    have := hl t mem_cons_self
    simp only [totalScore, map_cons, sum_cons]
    omega

lemma weightedRemainder_eq_zero (hl : ∀ t ∈ l, 0 ≤ t.taskFee) :
    weightedRemainder l = 0 ↔ ∀ t ∈ l, (totalScore l : Int) ∣ weightedFee t := by
  have hnn : ∀ x ∈ l.map (fun t => (weightedFee t).tmod (totalScore l)), 0 ≤ x := by
    intro x hx
    obtain ⟨t, ht, rfl⟩ := mem_map.1 hx
    exact Int.tmod_nonneg _ (mul_nonneg (hl t ht) (Int.natCast_nonneg _))
  constructor
  · intro h t ht
    have hz := (all_zero_of_le_zero_le_of_sum_eq_zero hnn h)
      (mem_map_of_mem (f := fun t => (weightedFee t).tmod (totalScore l)) ht)
    exact Int.dvd_of_tmod_eq_zero hz
  · intro h
    rw [weightedRemainder, map_congr_left fun t ht => Int.tmod_eq_zero_of_dvd (h t ht)]
    simp

lemma settlementTotal_eq_iff (db : Db) (task : InferenceTask) (node : Node)
    {rows : List InferenceTask} (hlen : 1 < rows.length) (hne : paidMembers rows ≠ [])
    (hpos : 0 < totalScore (paidMembers rows)) (f : Int) : settlementTotal db task node rows = f ↔
      weightedShortfall f (paidMembers rows) =
        (totalScore (paidMembers rows) - 1) * weightedRemainder (paidMembers rows) := by
  have hpay : settlementTotal db task node rows =
      ((paidMembers rows).map fun t => (weightedFee t).tdiv (totalScore (paidMembers rows))).sum +
        weightedRemainder (paidMembers rows) := by
    rw [settlementTotal, settlementPayments, if_pos hlen]
    have := sum_groupPayments (nodeNetwork db) (totalScore (paidMembers rows)) _ hne 0
    rwa [add_zero] at this
  have hw := sum_weightedFee (totalScore (paidMembers rows)) (paidMembers rows)
  have hs := sum_weight_mul f (paidMembers rows)
  rw [hpay, weightedShortfall, hs, hw]
  generalize ((paidMembers rows).map fun t =>
    (weightedFee t).tdiv (totalScore (paidMembers rows))).sum = q
  show _ ↔ _ - (_ + weightedRemainder (paidMembers rows)) = _
  generalize weightedRemainder (paidMembers rows) = r
  have hpos' : (0 : Int) < (totalScore (paidMembers rows) : Int) := by exact_mod_cast hpos
  generalize (totalScore (paidMembers rows) : Int) = S at hpos'
  constructor
  · rintro rfl
    ring
  · intro h
    have : S * (q + r) = S * f := by linarith
    exact mul_left_cancel₀ (ne_of_gt hpos') this

lemma exact_or_hidden (hl : ∀ t ∈ l, 0 ≤ t.taskFee) (f : Int) :
    weightedShortfall f l = (totalScore l - 1) * weightedRemainder l ↔ ExactShares f l ∨ HiddenRemainder f l := by
  rw [ExactShares, HiddenRemainder]
  by_cases hdvd : ∀ t ∈ l, (totalScore l : Int) ∣ weightedFee t
  · have hnone : ¬ ∃ t ∈ l, ¬ (totalScore l : Int) ∣ weightedFee t := fun ⟨t, ht, hno⟩ => hno (hdvd t ht)
    rw [(weightedRemainder_eq_zero hl).2 hdvd, mul_zero, and_iff_right hdvd, or_iff_left fun h => hnone h.1]
  · have hsome : ∃ t ∈ l, ¬ (totalScore l : Int) ∣ weightedFee t := by push Not at hdvd; exact hdvd
    rw [and_iff_right hsome, or_iff_right fun h => hdvd h.1]

/-- **Group settlement.**  Whatever the order in which the rows are read: no payment is negative
and the total score is not zero; the payments add up to the fee of the representative if the total
score divides every weighted fee and the weighted fees balance, and else only if lower fees hide the
remainders that are paid; with equal fees, exactly when the total score divides every weighted fee. -/
theorem settlement_conserves_iff (g : ValidatedGroup) (rows : List InferenceTask)
    (hrows : rows.Perm g.members) (db : Db) (task : InferenceTask) (node : Node) :
    (∀ p ∈ (settlementPayments db task node rows).1, 0 ≤ p.payment) ∧
      totalScore (paidMembers rows) ≠ 0 ∧
      (settlementTotal db task node rows = g.representative.taskFee ↔
        ExactShares g.representative.taskFee (paidMembers rows) ∨
          HiddenRemainder g.representative.taskFee (paidMembers rows)) ∧
      ((∀ t ∈ paidMembers rows, t.taskFee = g.representative.taskFee) →
        (settlementTotal db task node rows = g.representative.taskFee ↔
          ∀ t ∈ paidMembers rows, (totalScore (paidMembers rows) : Int) ∣ weightedFee t)) := by
  have hmem : ∀ t ∈ paidMembers rows, t ∈ g.members ∧ isPaidInGroup t = true := by
    intro t ht
    obtain ⟨h1, h2⟩ := mem_filter.1 ht
    exact ⟨hrows.mem_iff.1 h1, h2⟩
  have hfee : ∀ t ∈ paidMembers rows, 0 ≤ t.taskFee := fun t ht => g.member_fee (hmem t ht).1
  have hlen : 1 < rows.length := by
    rw [hrows.length_eq, g.length_members]
    decide
  have hne : paidMembers rows ≠ [] := by
    refine ne_nil_of_mem ((hrows.filter isPaidInGroup).mem_iff.2 g.representative_paid)
  have hscore : 2 ≤ totalScore (paidMembers rows) :=
    totalScore_pos hne fun t ht => g.paid_score (hmem t ht).1 (hmem t ht).2
  have hiff := settlementTotal_eq_iff db task node hlen hne (by omega) g.representative.taskFee
  refine ⟨?_, by omega, hiff.trans (exact_or_hidden hfee _), fun heq => hiff.trans ?_⟩
  · rw [settlementPayments, if_pos hlen]
    exact groupPayments_nonneg _ _ _ hfee 0 le_rfl
  · have hz : weightedShortfall g.representative.taskFee (paidMembers rows) = 0 := by
      rw [weightedShortfall, map_congr_left fun t ht => by rw [heq t ht, sub_self, mul_zero]]
      simp
    rw [hz, ← weightedRemainder_eq_zero hfee, eq_comm, mul_eq_zero]
    omega

/-! ## two members that agree, with one fee -/

def groupMember (c : String) (fee : Nat) (status : TaskStatus) : InferenceTask :=
  { taskIDCommitment := c.toList, creator := "0xa1".toList, taskFee := fee, status := status }

def equalFeeGroup (fee : Nat) : ValidatedGroup where
  before := [groupMember "0xc1" fee .scoreReady, groupMember "0xc2" fee .scoreReady,
    { groupMember "0xc3" fee .endAborted with abortReason := .timeout }]
  size := rfl
  fee_nonneg := by simp [groupMember]
  outcome := fun t =>
    if t.taskIDCommitment = "0xc1".toList then .groupValidated
    else if t.taskIDCommitment = "0xc2".toList then .endGroupRefund else .endAborted
  outcome_mem := of_decide_eq_true rfl
  outcome_aborted := of_decide_eq_true rfl
  representative := { groupMember "0xc1" fee .scoreReady with qosScore := some 10 }
  unique_representative := rfl

/-- fees of nine are split 6 to 3. -/
theorem settlement_conserves_iff_at_equalFeeGroup :
    settlementTotal {} (equalFeeGroup 9).representative { address := "0xd1".toList }
      (equalFeeGroup 9).members = 9 :=
  (settlement_conserves_iff (equalFeeGroup 9) (equalFeeGroup 9).members (List.Perm.refl _) {}
    (equalFeeGroup 9).representative { address := "0xd1".toList }).2.2.1.2 (.inl ⟨by decide, by decide⟩)

/-- **fees of ten are paid as 6 and 18.** -/
theorem settlement_creates_money :
    settlementTotal {} (equalFeeGroup 10).representative { address := "0xd1".toList }
        (equalFeeGroup 10).members = 24 ∧
      settlementTotal {} (equalFeeGroup 10).representative { address := "0xd1".toList }
        (equalFeeGroup 10).members ≠ (equalFeeGroup 10).representative.taskFee := by
  decide

end CrynuxRelay
