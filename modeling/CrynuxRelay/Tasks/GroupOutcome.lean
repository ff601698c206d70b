import CrynuxRelay.Tasks.GroupDecision
import Mathlib.Data.List.Zip

/-!
# The outcome of a group

* `Matches` -- two members that have executed and agree; `compareTaskScore` is symmetric, and not transitive;
* `SplitScores`, `agreeing_kept_iff` -- when an agreeing member is invalidated;
* `Documented` -- the outcome that the relay documents;
* `GroupAdmitted`, `decision_documented_iff` -- an admitted group gets its documented outcome, unless its
  three members agree on an error.
-/

namespace CrynuxRelay

open Function List Option Tx TaskStatus Tally

variable {g₀ g₁ x y : InferenceTask} {ms rows tasks : List InferenceTask}

/-! ## matching members -/

lemma hammingDistance_comm (a b : List Nat) : hammingDistance a b = hammingDistance b a := by
  rw [hammingDistance, hammingDistance, ← zip_swap, foldl_map]
  simp only [Prod.fst_swap, Prod.snd_swap, Nat.xor_comm]

lemma blocksClose_comm (threshold n : Nat) (a b : List Nat) :
    blocksClose threshold n a b = blocksClose threshold n b a := by
  induction n generalizing a b with
  | zero => rfl
  | succ n ih => rw [blocksClose, blocksClose, hammingDistance_comm, ih]

lemma compareTaskScore_comm (t1 t2 : InferenceTask) (threshold : Nat) :
    compareTaskScore t1 t2 threshold = compareTaskScore t2 t1 threshold := by
  unfold compareTaskScore
  by_cases hty : t1.taskType = t2.taskType
  · by_cases hst : t1.status = t2.status
    · rw [hty, hst]
      simp only [ne_eq, not_true_eq_false, if_false]
      have hcheck : ∀ a b, checkHammingDistance a b threshold = checkHammingDistance b a threshold := by
        intro a b
        unfold checkHammingDistance
        by_cases hl : a.length = b.length
        · rw [hl, blocksClose_comm]
        · rw [if_pos (.inl hl), if_pos (.inl (Ne.symm hl))]
      cases hexDecode t1.score <;> cases hexDecode t2.score <;> simp [hcheck, eq_comm]
    · simp [hty, hst, Ne.symm hst]
  · simp [hty, Ne.symm hty]

variable {threshold : Nat} {f₀ f₁ f₂ : InferenceTask} {next : Text → TaskStatus}

def Matches (threshold : Nat) (x y : InferenceTask) : Prop :=
  x.taskIDCommitment ≠ y.taskIDCommitment ∧ x.status ≠ .endAborted ∧ y.status ≠ .endAborted ∧
    compareTaskScore x y threshold = some true

instance (threshold : Nat) (x y : InferenceTask) : Decidable (Matches threshold x y) :=
  inferInstanceAs (Decidable (_ ∧ _ ∧ _ ∧ _))

lemma Matches.symm (h : Matches threshold x y) : Matches threshold y x :=
  ⟨h.1.symm, h.2.2.1, h.2.1, compareTaskScore_comm y x threshold ▸ h.2.2.2⟩

/-- the two slower members match, and the fastest one matches just one of them. -/
def SplitScores (threshold : Nat) : List InferenceTask → Prop
  | [f₀, f₁, f₂] => f₁.status = .scoreReady ∧ Matches threshold f₁ f₂ ∧
    (Matches threshold f₀ f₁ ∧ ¬ Matches threshold f₀ f₂ ∨
      ¬ Matches threshold f₀ f₁ ∧ Matches threshold f₀ f₂)
  | _ => False

instance (threshold : Nat) : (rows : List InferenceTask) → Decidable (SplitScores threshold rows)
  | [_, _, _] => inferInstanceAs (Decidable (_ ∧ _ ∧ _))
  | [] | [_] | [_, _] | _ :: _ :: _ :: _ :: _ => .isFalse id

lemma groupNextStatus_pair (h : groupNextStatus threshold tasks = some next)
    (hlen : (executedMembers tasks).length ≠ 3) (c : Text) : (next c).decided ≠ .endInvalidated := by
  rcases groupNextStatus_cases h with rfl | ⟨f, g, -, -, -, rfl⟩ | ⟨f, g, r, st, hperm, -⟩
  · exact nofun
  · unfold pairStatus
    split
    · rw [update_apply, update_apply]
      split
      · exact nofun
      · split
        · exact nofun
        · exact nofun
    · exact nofun
  · exact absurd hperm.length_eq.symm hlen

/-- the comparison of two members tells whether they match. -/
structure Compared (threshold : Nat) (x y : InferenceTask) (b : Bool) : Prop where
  forth : Matches threshold x y ↔ b = true
  back : Matches threshold y x ↔ b = true
  agree : b = true → x.taskType = y.taskType ∧ x.status = y.status

lemma compared {b : Bool} (hne : x.taskIDCommitment ≠ y.taskIDCommitment)
    (hx : x.status ≠ .endAborted) (hy : y.status ≠ .endAborted)
    (h : compareTaskScore x y threshold = some b) : Compared threshold x y b := by
  have hxy : Matches threshold x y ↔ b = true := by
    rw [Matches, h, some.injEq]
    exact ⟨fun hm => hm.2.2.2, fun hb => ⟨hne, hx, hy, hb⟩⟩
  exact ⟨hxy, ⟨fun hm => hxy.1 hm.symm, fun hb => (hxy.2 hb).symm⟩,
    fun hb => compareTaskScore_agree (hb ▸ h)⟩

lemma groupNextStatus_three (h01 : f₀.taskIDCommitment ≠ f₁.taskIDCommitment)
    (h02 : f₀.taskIDCommitment ≠ f₂.taskIDCommitment)
    (h12 : f₁.taskIDCommitment ≠ f₂.taskIDCommitment) (hex : f₀.status ≠ .endAborted ∧
      f₁.status ≠ .endAborted ∧ f₂.status ≠ .endAborted)
    (h : groupNextStatus threshold [f₀, f₁, f₂] = some next) :
    ∃ s1 s2 s3 : Bool, Compared threshold f₀ f₁ s1 ∧ Compared threshold f₀ f₂ s2 ∧
      Compared threshold f₁ f₂ s3 ∧ next f₀.taskIDCommitment = (if s1 ∨ s2 then
          if f₀.status = .scoreReady then .groupValidated else .endAborted
        else if s3 then .endInvalidated else .endAborted) ∧ next f₁.taskIDCommitment = (if s1 then
          if f₀.status = .scoreReady then .endGroupRefund else .endAborted
        else if s2 then .endInvalidated
        else if s3 ∧ f₁.status = .scoreReady then .groupValidated else .endAborted) ∧
      next f₂.taskIDCommitment = (if s1 then if s2 then .endGroupRefund else .endInvalidated
        else if s2 then if f₀.status = .scoreReady then .endGroupRefund else .endAborted
        else if s3 ∧ f₁.status = .scoreReady then .endGroupRefund else .endAborted) := by
  obtain ⟨h0, h1, h2⟩ := hex
  have hall : [f₀, f₁, f₂].filter (fun t => t.status ≠ .endAborted) = [f₀, f₁, f₂] := by
    simp [h0, h1, h2]
  unfold groupNextStatus at h
  rw [hall] at h
  obtain ⟨s1, e1, h⟩ := bind_eq_some_iff.1 h
  obtain ⟨s2, e2, h⟩ := bind_eq_some_iff.1 h
  obtain ⟨s3, e3, h⟩ := bind_eq_some_iff.1 h
  refine ⟨s1, s2, s3, compared h01 h0 h1 e1, compared h02 h0 h2 e2, compared h12 h1 h2 e3, ?_⟩
  by_cases hs0 : f₀.status = .scoreReady
  all_goals by_cases hs1 : f₁.status = .scoreReady
  all_goals
    cases s1 <;> cases s2 <;> cases s3 <;>
      (cases h; simp [hs0, hs1, h01, h02, h12, Ne.symm h01, Ne.symm h02, Ne.symm h12])

lemma commitments_ne (hc : ([f₀, f₁, f₂].map (·.taskIDCommitment)).Nodup) :
    f₀.taskIDCommitment ≠ f₁.taskIDCommitment ∧ f₀.taskIDCommitment ≠ f₂.taskIDCommitment ∧
      f₁.taskIDCommitment ≠ f₂.taskIDCommitment := by
  simpa [and_assoc] using hc

lemma not_matches_self (x : InferenceTask) : ¬ Matches threshold x x := fun h => h.1 rfl

/-- **an agreeing member is invalidated** exactly when the scores are split. -/
theorem agreeing_kept_of_decision (hc : ([f₀, f₁, f₂].map (·.taskIDCommitment)).Nodup)
    (h : groupNextStatus threshold [f₀, f₁, f₂] = some next) :
    (∀ r ∈ [f₀, f₁, f₂], r.status = .scoreReady → (∃ x ∈ [f₀, f₁, f₂], Matches threshold r x) →
      (next r.taskIDCommitment).decided ≠ .endInvalidated) ↔
        ¬ SplitScores threshold [f₀, f₁, f₂] := by
  by_cases hex : f₀.status ≠ .endAborted ∧ f₁.status ≠ .endAborted ∧ f₂.status ≠ .endAborted
  · obtain ⟨h01, h02, h12⟩ := commitments_ne hc
    obtain ⟨s1, s2, s3, ⟨m01, m10, -⟩, ⟨m02, m20, -⟩, ⟨m12, m21, a3⟩, hn0, hn1, hn2⟩ :=
      groupNextStatus_three h01 h02 h12 hex h
    -- members that match are in one status
    have i0 : (next f₀.taskIDCommitment).decided = .endInvalidated ↔
        s1 = false ∧ s2 = false ∧ s3 = true := by
      grind [decided]
    have i1 : (next f₁.taskIDCommitment).decided = .endInvalidated ↔ s1 = false ∧ s2 = true := by
      grind [decided]
    have i2 : (next f₂.taskIDCommitment).decided = .endInvalidated ↔ s1 = true ∧ s2 = false := by
      grind [decided]
    simp only [SplitScores, mem_cons, not_mem_nil, or_false, forall_eq_or_imp, forall_eq,
      exists_eq_or_imp, exists_eq_left, ne_eq, i0, i1, i2, m01, m10, m02, m20, m12, m21,
      not_matches_self, false_or]
    cases s1 <;> cases s2 <;> cases s3 <;> simp_all
  · refine iff_of_true (fun r _ _ _ => groupNextStatus_pair h ?_ _) ?_
    · intro hlen
      have hall : executedMembers [f₀, f₁, f₂] = [f₀, f₁, f₂] :=
        filter_sublist.eq_of_length hlen
      have hst : ∀ t ∈ [f₀, f₁, f₂], t.status ≠ .endAborted := fun t ht =>
        of_decide_eq_true (filter_eq_self.1 hall t ht)
      exact hex ⟨hst f₀ (by simp), hst f₁ (by simp), hst f₂ (by simp)⟩
    · rintro ⟨-, hm, ⟨hm', -⟩ | ⟨-, hm'⟩⟩
      · exact hex ⟨hm'.2.1, hm.2.1, hm.2.2.1⟩
      · exact hex ⟨hm'.2.1, hm.2.1, hm.2.2.1⟩

/-! ## the documented outcome -/

/-- **the documented outcome** of a group with the given rows. -/
structure Documented (threshold : Nat) (rows : List InferenceTask)
    (final : Text → Option TaskStatus) : Prop where
  fastest : ∀ r ∈ rows, r.status = .scoreReady → (∃ x ∈ rows, Matches threshold r x) →
    (∀ x ∈ rows, Matches threshold r x → fasterThan r x = true) →
    final r.taskIDCommitment = some .groupValidated
  refunded : ∀ r ∈ rows, r.status = .scoreReady →
    (∃ x ∈ rows, Matches threshold r x ∧ fasterThan x r = true) →
    final r.taskIDCommitment = some .endGroupRefund
  errors : ∀ r ∈ rows, r.status = .errorReported → (∃ x ∈ rows, Matches threshold r x) →
    final r.taskIDCommitment = some .endAborted
  dissenting : ∀ r ∈ rows, r.status ≠ .endAborted → (∀ x ∈ rows, ¬ Matches threshold r x) →
    (∃ x ∈ rows, ∃ y ∈ rows, Matches threshold x y) →
    final r.taskIDCommitment = some .endInvalidated
  undecided : (∀ x ∈ rows, ∀ y ∈ rows, ¬ Matches threshold x y) →
    ∀ r ∈ rows, final r.taskIDCommitment = some .endAborted
  aborted : ∀ r ∈ rows, r.status = .endAborted → final r.taskIDCommitment = some .endAborted

lemma asymm_fasterThan (h : fasterThan x y = true) : fasterThan y x = false := by
  by_contra hyx
  rw [Bool.not_eq_false, fasterThan_iff] at hyx
  rw [fasterThan_iff] at h
  omega

lemma groupNextStatus_two
    (hex : executedMembers tasks = [g₀, g₁]) (h : groupNextStatus threshold tasks = some next) :
    ∃ s : Bool, compareTaskScore g₀ g₁ threshold = some s ∧ ∀ c, next c =
      if s ∧ g₀.status = .scoreReady then if c = g₁.taskIDCommitment then .endGroupRefund
        else if c = g₀.taskIDCommitment then .groupValidated else .endAborted else .endAborted := by
  unfold executedMembers at hex
  unfold groupNextStatus at h
  rw [hex] at h
  obtain ⟨s, e, h⟩ := bind_eq_some_iff.1 h
  refine ⟨s, e, fun c => ?_⟩
  by_cases hs : s = true ∧ g₀.status = .scoreReady
  · simp only [hs.1, hs.2, decide_true, Bool.and_true, if_true, Option.pure_def, some.injEq] at h
    rw [← h, if_pos hs, update_apply, update_apply]
  · rw [if_neg (by simpa using hs)] at h
    rw [if_neg hs, ← some.inj h]

lemma documented_two {a : InferenceTask} (hex : executedMembers rows = [g₀, g₁])
    (hmem : ∀ x, x ∈ rows ↔ x = g₀ ∨ x = g₁ ∨ x = a) (h01 : g₀.taskIDCommitment ≠ g₁.taskIDCommitment)
    (ha0 : a.taskIDCommitment ≠ g₀.taskIDCommitment) (ha1 : a.taskIDCommitment ≠ g₁.taskIDCommitment)
    (hab : a.status = .endAborted) (q01 : fasterThan g₀ g₁ = true)
    (h : groupNextStatus threshold rows = some next) :
    Documented threshold rows fun c => some (next c).decided := by
  have hrun : ∀ t ∈ [g₀, g₁], t.status ≠ .endAborted := by
    intro t ht
    rw [← hex] at ht
    exact of_decide_eq_true (mem_filter.1 ht).2
  obtain ⟨s, e, hn⟩ := groupNextStatus_two hex h
  obtain ⟨m01, m10, hagree⟩ := compared h01 (hrun g₀ (by simp)) (hrun g₁ (by simp)) e
  have hna : ∀ x, ¬ Matches threshold a x ∧ ¬ Matches threshold x a := fun x =>
    ⟨fun hm => hm.2.1 hab, fun hm => hm.2.2.1 hab⟩
  have q10 := asymm_fasterThan q01
  constructor
  all_goals
    simp only [hmem, forall_eq_or_imp, forall_eq, exists_eq_or_imp, exists_eq_left, hna, m01, m10,
      not_matches_self, false_or, or_false, hn, false_imp_iff, true_and, and_true, q01, q10]
    grind [decided]

lemma documented_none (hex : (executedMembers rows).length < 2)
    (h : groupNextStatus threshold rows = some next) :
    Documented threshold rows fun c => some (next c).decided := by
  have hnone : ∀ x ∈ rows, ∀ y ∈ rows, ¬ Matches threshold x y := by
    rintro x hx y hy ⟨hne, hxf, hyf, -⟩
    have hx : x ∈ executedMembers rows := mem_filter.2 ⟨hx, decide_eq_true hxf⟩
    have hy : y ∈ executedMembers rows := mem_filter.2 ⟨hy, decide_eq_true hyf⟩
    match hl : executedMembers rows, hx, hy with
    | [g], hx, hy =>
      rw [mem_singleton.1 hx, mem_singleton.1 hy] at hne
      exact hne rfl
    | _ :: _ :: _, _, _ =>
      rw [hl, length_cons, length_cons] at hex
      omega
  have hnext : ∀ c, some (next c).decided = some endAborted := by
    unfold executedMembers at hex
    unfold groupNextStatus at h
    split at h
    · next hl =>
      rw [hl] at hex
      exact absurd hex (Nat.lt_irrefl 2)
    · next hl =>
      rw [hl] at hex
      exact absurd hex (Nat.not_lt.2 (Nat.le_succ 2))
    · rw [← some.inj h]
      exact fun c => rfl
  exact ⟨fun r hr _ ⟨x, hx, hm⟩ => absurd hm (hnone r hr x hx),
    fun r hr _ ⟨x, hx, hm, _⟩ => absurd hm (hnone r hr x hx), fun r hr _ _ => hnext _,
    fun r hr _ _ ⟨x, hx, y, hy, hm⟩ => absurd hm (hnone x hx y hy), fun _ r _ => hnext _,
    fun r _ _ => hnext _⟩

lemma sorted_three (hsorted : [f₀, f₁, f₂].Pairwise fun x y => fasterThan x y = true) :
    fasterThan f₀ f₁ = true ∧ fasterThan f₀ f₂ = true ∧ fasterThan f₁ f₂ = true := by
  simpa [and_assoc] using hsorted

section
variable (hc : ([f₀, f₁, f₂].map (·.taskIDCommitment)).Nodup)
  (hsorted : [f₀, f₁, f₂].Pairwise fun x y => fasterThan x y = true)
  (htrans : ∀ x ∈ [f₀, f₁, f₂], ∀ y ∈ [f₀, f₁, f₂], ∀ z ∈ [f₀, f₁, f₂],
    Matches threshold x y → Matches threshold y z → x = z ∨ Matches threshold x z)
  (hno : ¬ AgreeOnError [f₀, f₁, f₂]) (h : groupNextStatus threshold [f₀, f₁, f₂] = some next)
include hc hsorted htrans hno h

lemma documented_three
    (hex : f₀.status ≠ .endAborted ∧ f₁.status ≠ .endAborted ∧ f₂.status ≠ .endAborted) :
    Documented threshold [f₀, f₁, f₂] fun c => some (next c).decided := by
  obtain ⟨h01, h02, h12⟩ := commitments_ne hc
  obtain ⟨s1, s2, s3, ⟨m01, m10, a1⟩, ⟨m02, m20, a2⟩, ⟨m12, m21, a3⟩, hn0, hn1, hn2⟩ :=
    groupNextStatus_three h01 h02 h12 hex h
  obtain ⟨q01, q02, q12⟩ := sorted_three hsorted
  have q10 := asymm_fasterThan q01
  have q20 := asymm_fasterThan q02
  have q21 := asymm_fasterThan q12
  have hno' : ¬ (s1 = true ∧ s2 = true ∧ f₀.status = .errorReported) := by
    rintro ⟨hs1, hs2, he⟩
    refine hno ⟨f₀.taskType, ?_⟩
    simp [← (a1 hs1).1, ← (a1 hs1).2, ← (a2 hs2).1, ← (a2 hs2).2, he]
  constructor
  all_goals
    simp only [mem_cons, not_mem_nil, or_false, forall_eq_or_imp, forall_eq,
      exists_eq_or_imp, exists_eq_left, m01, m10, m02, m20, m12, m21, not_matches_self, false_or,
      hn0, hn1, hn2, false_imp_iff, true_and, and_true, q01, q02, q12, q10, q20, q21]
    grind [decided]

/-- **the decision is the documented one** when matching is transitive, unless three members agree on an
error. -/
theorem documented_decision : Documented threshold [f₀, f₁, f₂] fun c => some (next c).decided := by
  by_cases hex : f₀.status ≠ .endAborted ∧ f₁.status ≠ .endAborted ∧ f₂.status ≠ .endAborted
  · exact documented_three hc hsorted htrans hno h hex
  obtain ⟨h01, h02, h12⟩ := commitments_ne hc
  obtain ⟨q01, q02, q12⟩ := sorted_three hsorted
  by_cases a0 : f₀.status = .endAborted
  · by_cases a1 : f₁.status = .endAborted
    · refine documented_none ?_ h
      by_cases a2 : f₂.status = .endAborted <;> simp [executedMembers, a0, a1, a2]
    by_cases a2 : f₂.status = .endAborted
    · exact documented_none (by simp [executedMembers, a0, a1, a2]) h
    · exact documented_two (by simp [executedMembers, a0, a1, a2]) (by simp; tauto) h12 h01 h02 a0 q12 h
  · by_cases a1 : f₁.status = .endAborted
    · by_cases a2 : f₂.status = .endAborted
      · exact documented_none (by simp [executedMembers, a0, a1, a2]) h
      · exact documented_two (by simp [executedMembers, a0, a1, a2]) (by simp; tauto) h02 (Ne.symm h01) h12 a1 q02 h
    · have a2 : f₂.status = .endAborted := by
        by_contra a2
        exact hex ⟨a0, a1, a2⟩
      exact documented_two (by simp [executedMembers, a0, a1, a2]) (by simp) h01 (Ne.symm h02) (Ne.symm h12) a2 q01 h

end

/-! ## validations that succeed -/

section
variable {env : Env} {rows' : List InferenceTask} {taskID vrfProof publicKey : Text} {w w' : World}
  {u : Unit} {final final' : Text → Option TaskStatus}

lemma nodup_settledRows (db : Db) (tasks : List InferenceTask) :
    ((settledRows db tasks).map (·.taskIDCommitment)).Nodup :=
  ((sortBy_perm _ _).map _).nodup_iff.2 (nodup_lockedRows db tasks)

/-- **an agreeing member is kept**: a validation that succeeds invalidates no member with a score that matches
the score of another one exactly when the scores are not split. -/
theorem agreeing_kept_iff (hids : UniqueIds w.db)
    (h : Ok (validateTaskGroup env tasks taskID vrfProof publicKey) w u w') :
    (∀ r ∈ lockedRows w.db tasks, r.status = .scoreReady →
        (∃ x ∈ lockedRows w.db tasks, x.taskIDCommitment ≠ r.taskIDCommitment ∧
          x.status = .scoreReady ∧ compareTaskScore r x env.distanceThreshold = some true) →
        taskStatusOf w'.db r.taskIDCommitment ≠ some .endInvalidated) ↔
      ¬ SplitScores env.distanceThreshold (settledRows w.db tasks) := by
  obtain ⟨next, hnext, hthree, hfinal⟩ := validated_rows hids h
  have hnd := nodup_settledRows w.db tasks
  simp only [← @mem_settledRows w.db tasks]
  obtain ⟨f₀, f₁, f₂, hrows⟩ := length_eq_three.1 hthree
  rw [hrows] at hnext hfinal hnd ⊢
  rw [← agreeing_kept_of_decision hnd hnext]
  refine forall_congr' fun r => forall_congr' fun hr => forall_congr' fun hst => ?_
  rw [hfinal r hr, ne_eq, some.injEq]
  refine imp_congr_left (exists_congr fun x => and_congr_right fun _ => ?_)
  constructor
  · rintro ⟨hne, hx, hc⟩
    exact ⟨hne.symm, by simp [hst], by simp [hx], hc⟩
  · rintro ⟨hne, -, -, hc⟩
    exact ⟨hne.symm, (compareTaskScore_agree hc).2 ▸ hst, hc⟩

/-- the fastest member matches the second one and not the third one, which matches the second one. -/
def splitState : RelayState :=
  scoredState (1, imageHash "00") (2, imageHash "07") (3, imageHash "3f")

theorem agreeing_kept_at_agreed : ∃ w', Ok (validateScored agreedState) agreedState.world () w' ∧
      ∀ r ∈ lockedRows agreedState.world.db (groupCopies agreedState), r.status = .scoreReady →
        (∃ x ∈ lockedRows agreedState.world.db (groupCopies agreedState),
          x.taskIDCommitment ≠ r.taskIDCommitment ∧ x.status = .scoreReady ∧
            compareTaskScore r x 5 = some true) →
        taskStatusOf w'.db r.taskIDCommitment ≠ some .endInvalidated := by
  have hok : Ok (validateScored agreedState) agreedState.world () _ :=
    ok_of_toOption (by decide +kernel)
  exact ⟨_, hok, (agreeing_kept_iff (registered_scored _ _ _).ids hok).2 (by decide +kernel)⟩

/-- **an agreeing member is invalidated**: the third score matches the second one, and its node is slashed. -/
theorem agreeing_member_invalidated : ∃ w', Ok (validateScored splitState) splitState.world () w' ∧
      ∃ r ∈ lockedRows splitState.world.db (groupCopies splitState),
        ∃ x ∈ lockedRows splitState.world.db (groupCopies splitState),
          x.taskIDCommitment ≠ r.taskIDCommitment ∧ r.status = .scoreReady ∧
            x.status = .scoreReady ∧ compareTaskScore r x 5 = some true ∧
            taskStatusOf w'.db r.taskIDCommitment = some .endInvalidated :=
  ⟨_, ok_of_toOption (by decide +kernel), by decide +kernel⟩

/-! ## admitted groups -/

def groupSeed (tasks : List InferenceTask) : Text :=
  ((sortBy (fun t₁ t₂ => t₁.id < t₂.id) tasks).head?.map (·.samplingSeed)).getD []

/-- **an admitted group**: three persisted tasks, coupled to their nodes, that pass the checks of a validation;
the scores are well formed and the evidence can be built. -/
structure GroupAdmitted (env : Env) (db : Db) (tasks : List InferenceTask)
    (taskID vrfProof publicKey : Text) : Prop where
  ready : GroupReady env db
  three : tasks.length = 3
  different : (tasks.map (·.id)).Nodup
  persisted : ∀ t ∈ tasks, ∃ r ∈ lockedRows db tasks, r.id = t.id
  proofs : ∀ t ∈ tasks, env.validTaskID taskID t.nonce t.taskIDCommitment = true ∧
    env.validVRFProof (groupSeed tasks) vrfProof publicKey t.creator true = true ∧
      (t.taskID = [] ∨ t.taskID = taskID)
  unapplied : (∃ t ∈ tasks, t.taskID ≠ taskID) ∧ ∃ r ∈ lockedRows db tasks, r.taskID ≠ taskID
  timely : groupHasCreatorValidationTimeout (tasks ++ lockedRows db tasks) = false
  grouped : ∀ r ∈ lockedRows db tasks, r.status.isGrouped
  files : ∀ r ∈ lockedRows db tasks, ∀ r' ∈ lockedRows db tasks, r.status ≠ .endAborted →
    r'.status ≠ .endAborted → r.executionModelFileHashes = r'.executionModelFileHashes
  scores : ∀ r ∈ lockedRows db tasks, r.status = .scoreReady → r.taskType ≠ .llm →
    (hexDecode r.score).isSome = true
  evidence : ∀ t n, ∃ complete, env.slashEvidence t n = .ok complete

lemma timeout_of_subset {l l' : List InferenceTask} (hsub : l ⊆ l')
    (h : groupHasCreatorValidationTimeout l' = false) :
    groupHasCreatorValidationTimeout l = false := by
  rw [groupHasCreatorValidationTimeout, List.any_eq_false] at h ⊢
  exact fun t ht => h t (hsub ht)

lemma GroupAdmitted.refreshed (h : GroupAdmitted env w.db tasks taskID vrfProof publicKey) :
    ∃ refreshed, refreshedRows w.db tasks = some refreshed ∧ (lockedRows w.db tasks).length = 3 := by
  have hrows : ((lockedRows w.db tasks).map (·.id)).Nodup := by
    refine (nodup_lockedRows w.db tasks).of_map.map_on fun r hr r' hr' e => ?_
    have hrow := (mem_lockedRows.1 hr).1
    have hrow' := (mem_lockedRows.1 hr').1
    rw [h.ready.register.ids _ _ _ _ hrow hrow' e, hrow'] at hrow
    exact (some.inj hrow).symm
  have hperm : ((lockedRows w.db tasks).map (·.id)).Perm (tasks.map (·.id)) := by
    refine (perm_ext_iff_of_nodup hrows h.different).2 fun i => ?_
    rw [List.mem_map, List.mem_map]
    constructor
    · rintro ⟨r, hr, rfl⟩
      exact (mem_lockedRows.1 hr).2
    · rintro ⟨t, ht, rfl⟩
      exact h.persisted t ht
  obtain ⟨refreshed, hmap⟩ : ∃ l, refreshedRows w.db tasks = some l := by
    refine exists_mapM fun t ht => ?_
    obtain ⟨r, hr, hid⟩ := h.persisted t ((sortBy_perm _ _).mem_iff.1 ht)
    exact isSome_iff_exists.1 (find?_isSome.2 ⟨r, hr, decide_eq_true hid⟩)
  refine ⟨refreshed, hmap, ?_⟩
  rw [← h.three]
  simpa using hperm.length_eq

lemma GroupAdmitted.compared (h : GroupAdmitted env w.db tasks taskID vrfProof publicKey)
    (hms : ∀ m ∈ ms, ∃ r ∈ lockedRows w.db tasks, SameMember taskID r m) :
    ∃ next, groupNextStatus env.distanceThreshold ms = some next := by
  have hdecoded : ∀ m ∈ ms, m.status = .scoreReady → m.taskType ≠ .llm →
      ∃ a, hexDecode m.score = some a := by
    intro m hm hst hty
    obtain ⟨r, hr, e⟩ := hms m hm
    rw [e] at hst hty ⊢
    exact isSome_iff_exists.1 (h.scores r hr hst hty)
  have hcompare : ∀ x ∈ ms, ∀ y ∈ ms, ∃ s, compareTaskScore x y env.distanceThreshold = some s := by
    intro x hx y hy
    have hdx := hdecoded x hx
    have hdy := hdecoded y hy
    have hpair : x.status = .scoreReady → x.status = y.status → x.taskType = y.taskType →
        x.taskType ≠ .llm → ∃ s, ((hexDecode x.score).bind fun a => (hexDecode y.score).bind fun b =>
          some (checkHammingDistance a b env.distanceThreshold)) = some s := by
      intro hst hxy hty hllm
      obtain ⟨a, ha⟩ := hdx hst hllm
      obtain ⟨b, hb⟩ := hdy (hxy ▸ hst) (hty ▸ hllm)
      exact ⟨_, by rw [ha, hb]; rfl⟩
    unfold compareTaskScore
    split
    · exact ⟨_, rfl⟩
    next hty =>
    split
    · exact ⟨_, rfl⟩
    next hxy =>
    split
    · next hst =>
      have hpair := hpair hst (not_not.1 hxy) (not_not.1 hty)
      split
      · next e => exact hpair (by rw [e]; exact nofun)
      · next e => exact hpair (by rw [e]; exact nofun)
      · exact ⟨_, rfl⟩
    · exact ⟨_, rfl⟩
  have hsub : ∀ x ∈ ms.filter (fun t => t.status ≠ .endAborted), x ∈ ms :=
    fun x hx => (mem_filter.1 hx).1
  unfold groupNextStatus
  split
  · next f₀ f₁ hl =>
    rw [hl] at hsub
    obtain ⟨s, hs⟩ := hcompare f₀ (hsub f₀ (by simp)) f₁ (hsub f₁ (by simp))
    simp only [hs, bind_eq_bind, bind_some, Option.pure_def, ← apply_ite some]
    exact ⟨_, rfl⟩
  · next f₀ f₁ f₂ hl =>
    rw [hl] at hsub
    have h0 := hsub f₀ (by simp)
    have h1 := hsub f₁ (by simp)
    have h2 := hsub f₂ (by simp)
    obtain ⟨s1, hs1⟩ := hcompare f₀ h0 f₁ h1
    obtain ⟨s2, hs2⟩ := hcompare f₀ h0 f₂ h2
    obtain ⟨s3, hs3⟩ := hcompare f₁ h1 f₂ h2
    simp only [hs1, hs2, hs3, bind_eq_bind, bind_some, Option.pure_def, ← apply_ite some]
    exact ⟨_, rfl⟩
  · exact ⟨_, rfl⟩

lemma total_buildEvidence
    (hready : GroupReady env w.db) (hev : ∀ t n, ∃ complete, env.slashEvidence t n = .ok complete)
    (hms : ∀ m ∈ ms, Member w.db m ∧ m.status.isGrouped ∧ Allows m (next m.taskIDCommitment)) :
    Total (buildInvalidatedTaskSlashEvidence env next ms) w fun _ _ => True := by
  induction ms with
  | nil => exact total_pure trivial
  | cons m ms ih =>
    have hrest := ih fun x hx => hms x (mem_cons_of_mem m hx)
    unfold buildInvalidatedTaskSlashEvidence
    split
    · exact hrest
    · next hnext =>
      obtain ⟨hm, hst, hfit⟩ := hms m mem_cons_self
      obtain ⟨node, hhold, -⟩ := hready.holder hm (hst.occupying (hfit.2 (not_not.1 hnext)))
      obtain ⟨complete, hc⟩ := hev m node
      refine (ok_checkTaskSelectedNode.2 ⟨hhold, rfl⟩).total_bind ?_
      rw [hc]
      exact total_bind (hrest.mono fun _ _ _ _ => total_pure trivial)

/-- **an admitted group is validated**, unless its members agree on an error. -/
theorem GroupAdmitted.total (h : GroupAdmitted env w.db tasks taskID vrfProof publicKey)
    (hno : ¬ AgreeOnError (lockedRows w.db tasks)) :
    Total (validateTaskGroup env tasks taskID vrfProof publicKey) w fun _ _ => True := by
  have hp := sortBy_perm (fun t1 t2 : InferenceTask => decide (t1.id < t2.id)) tasks
  obtain ⟨refreshed, hmap, hlen⟩ := h.refreshed
  have hperm := refreshedRows_perm h.ready.register.ids h.three hlen hmap
  have hrow : ∀ m ∈ settledMembers taskID refreshed,
      ∃ r ∈ lockedRows w.db tasks, SameMember taskID r m := by
    intro m hm
    obtain ⟨r, hr, hs⟩ := mem_settledMembers hm
    exact ⟨r, hperm.mem_iff.1 hr, hs⟩
  obtain ⟨next, hnext⟩ := h.compared hrow
  -- up to the loop nothing is written
  have hat : ∀ evidence, (∀ m ∈ settledMembers taskID refreshed,
      next m.taskIDCommitment = .endInvalidated → ∃ b, evidence.lookup m.taskIDCommitment = some b) →
      AtLoop env w.db tasks taskID next evidence (settledMembers taskID refreshed) := fun evidence hev =>
    ⟨⟨refreshed, hperm.length_eq.trans hlen, hperm, rfl⟩, h.grouped, hnext, hev⟩
  have hmembers : ∀ m ∈ settledMembers taskID refreshed,
      Member w.db m ∧ m.status.isGrouped ∧ Allows m (next m.taskIDCommitment) := by
    have hloop := (hat (((settledMembers taskID refreshed).map (·.taskIDCommitment)).map
      fun c => (c, true)) fun m hm _ =>
        ⟨true, lookup_graph (f := fun _ => true) (List.mem_map_of_mem hm)⟩).loopReady h.ready hno
    exact fun m hm => ⟨hloop.members m hm, hloop.grouped m hm, hloop.allows m hm⟩
  refine total_require_bind h.three (total_require_bind (timeout_of_subset (fun t ht =>
    mem_append_left _ (hp.mem_iff.1 ht)) h.timely) (total_bind ?_))
  refine (total_each (fun l s => s = w ∧ ∀ t ∈ l, t ∈ tasks) (fun t l s hs => ?_) _ w
    ⟨rfl, fun t ht => hp.mem_iff.1 ht⟩).mono fun _ w1 _ hw => ?_
  · obtain ⟨rfl, hl⟩ := hs
    obtain ⟨h1, h2, h3⟩ := h.proofs t (hl t mem_cons_self)
    exact ⟨(), s, ok_require_bind.2 ⟨h1, ok_require_bind.2 ⟨h2, ok_require.2 ⟨h3, rfl⟩⟩⟩,
      rfl, fun x hx => hl x (mem_cons_of_mem t hx)⟩
  obtain ⟨rfl, -⟩ := hw
  refine total_require_bind (fun hall => ?_) (total_transaction ?_)
  · obtain ⟨t, ht, hne⟩ := h.unapplied.1
    exact hne (hall t (hp.mem_iff.2 ht))
  have hrefresh : Ok (refreshValidationGroupTasksForFinalUpdate
      ((sortBy (fun t1 t2 => t1.id < t2.id) tasks).map fun t => { t with taskID := taskID }) taskID)
      w1 refreshed w1 := by
    rw [refreshValidationGroupTasksForFinalUpdate, ok_bind]
    refine ⟨refreshed, w1, ok_lockValidationGroupTasks.2 ⟨h.three, hlen, hmap, rfl⟩, ?_⟩
    rw [ok_require_bind, ok_require_bind, ok_require_bind, ok_pure]
    refine ⟨fun hall => ?_, timeout_of_subset (fun t ht =>
      mem_append_right _ (hperm.mem_iff.1 ht)) h.timely,
      fun t ht => h.grouped t (hperm.mem_iff.1 ht), rfl, rfl⟩
    obtain ⟨r, hr, hne⟩ := h.unapplied.2
    exact hne (hall r (hperm.mem_iff.2 hr))
  refine hrefresh.total_bind (total_require_bind ?_ (total_orFail_bind hnext ?_))
  · have hfiles : ∀ x ∈ (refreshed.map fun t => { t with taskID := taskID }).filter
        (fun t => t.status ≠ .endAborted), ∀ y ∈ (refreshed.map fun t =>
          { t with taskID := taskID }).filter (fun t => t.status ≠ .endAborted),
        x.executionModelFileHashes = y.executionModelFileHashes := by
      intro x hx y hy
      obtain ⟨hx, hxs⟩ := mem_filter.1 hx
      obtain ⟨hy, hys⟩ := mem_filter.1 hy
      obtain ⟨r, hr, rfl⟩ := List.mem_map.1 hx
      obtain ⟨r', hr', rfl⟩ := List.mem_map.1 hy
      exact h.files r (hperm.mem_iff.1 hr) r' (hperm.mem_iff.1 hr') (of_decide_eq_true hxs)
        (of_decide_eq_true hys)
    unfold checkGroupExecutionModelFiles
    split
    · rfl
    · next r l hl =>
      rw [hl] at hfiles
      refine all_eq_true.2 fun t ht => decide_eq_true ?_
      exact hfiles t (mem_cons_of_mem r ht) r mem_cons_self
  · refine total_bind ((total_buildEvidence h.ready h.evidence hmembers).mono
      fun evidence w2 hev _ => ?_)
    obtain rfl : w2 = w1 := Tx.Kept.ok (r := Same) hev
    exact total_members ((hat evidence (buildEvidence_lookup hev)).loopReady h.ready hno)

lemma errors_not_validated (hids : UniqueIds w.db) (hag : AgreeOnError (lockedRows w.db tasks)) :
    ¬ Ok (validateTaskGroup env tasks taskID vrfProof publicKey) w u w' := by
  intro h
  obtain ⟨refreshed, next, evidence, hv⟩ := validateTaskGroup_inv h
  have hat := hv.atLoop hids
  have hag := hat.agree_iff.2 hag
  have hnext := hat.compared
  have hloop := hv.loop
  have hthree := hat.three
  generalize settledMembers taskID refreshed = ms at hag hnext hthree hloop
  obtain ⟨m0, m1, m2, rfl⟩ := length_eq_three.1 hthree
  rw [groupNextStatus_errors hag] at hnext
  obtain ⟨w1, -, hloop⟩ := ok_each_cons.1 hloop
  obtain ⟨w2, -, hloop⟩ := ok_each_cons.1 hloop
  obtain ⟨w3, hlast, -⟩ := ok_each_cons.1 hloop
  obtain ⟨ty, hty⟩ := hag
  refine hlast.not_fails (refund_refused ?_ (hty m2 (by simp)).2)
  rw [← some.inj hnext, update_self]

lemma Documented.congr (h : Documented threshold rows final) (hrows : ∀ r, r ∈ rows' ↔ r ∈ rows)
    (hfinal : ∀ r ∈ rows, final' r.taskIDCommitment = final r.taskIDCommitment) :
    Documented threshold rows' final' := by
  constructor
  all_goals simp only [hrows]
  · exact fun r hr hst hm hfast => (hfinal r hr).trans (h.fastest r hr hst hm hfast)
  · exact fun r hr hst hm => (hfinal r hr).trans (h.refunded r hr hst hm)
  · exact fun r hr hst hm => (hfinal r hr).trans (h.errors r hr hst hm)
  · exact fun r hr hst hm hp => (hfinal r hr).trans (h.dissenting r hr hst hm hp)
  · exact fun hno r hr => (hfinal r hr).trans (h.undecided hno r hr)
  · exact fun r hr hst => (hfinal r hr).trans (h.aborted r hr hst)

/-- **an admitted group** whose matching is transitive is validated and gets its documented outcome exactly
when its members do not agree on an error. -/
theorem decision_documented_iff (h : GroupAdmitted env w.db tasks taskID vrfProof publicKey)
    (htrans : ∀ x ∈ lockedRows w.db tasks, ∀ y ∈ lockedRows w.db tasks,
      ∀ z ∈ lockedRows w.db tasks, Matches env.distanceThreshold x y →
        Matches env.distanceThreshold y z → x = z ∨ Matches env.distanceThreshold x z) :
    (∃ w', Ok (validateTaskGroup env tasks taskID vrfProof publicKey) w () w' ∧
        Documented env.distanceThreshold (lockedRows w.db tasks) (taskStatusOf w'.db)) ↔
      ¬ AgreeOnError (lockedRows w.db tasks) := by
  have hids : UniqueIds w.db := h.ready.register.ids
  refine ⟨fun ⟨w', hok, _⟩ hag => errors_not_validated hids hag hok, fun hno => ?_⟩
  obtain ⟨_, w', hok, -⟩ := h.total hno
  refine ⟨w', hok, ?_⟩
  obtain ⟨next, hnext, hthree, hfinal⟩ := validated_rows hids hok
  have hnd := nodup_settledRows w.db tasks
  have hsorted := pairwise_settledRows hids (List.Perm.refl (lockedRows w.db tasks))
  have hdoc : Documented env.distanceThreshold (settledRows w.db tasks)
      fun c => some (next c).decided := by
    change (settledRows w.db tasks).Pairwise _ at hsorted
    simp only [← @mem_settledRows w.db tasks] at htrans
    have hno : ¬ AgreeOnError (settledRows w.db tasks) := fun ⟨ty, hty⟩ =>
      hno ⟨ty, fun r hr => hty r (mem_settledRows.2 hr)⟩
    obtain ⟨f₀, f₁, f₂, hrows⟩ := length_eq_three.1 hthree
    rw [hrows] at hnext hnd hsorted htrans hno ⊢
    exact documented_decision hnd hsorted htrans hno hnext
  exact hdoc.congr (fun r => mem_settledRows.symm) fun r hr => hfinal r hr

end

/-! ## groups that are admitted -/

def groupNames : NodeName := ⟨"gpu".toList, 24, (0, 0, 0)⟩

lemma countsExact_three {db : Db} (name : NodeName)
    (hcounts : db.nodeNameCounts = inc (inc (inc (fun _ => none) name) name) name)
    (hnodes : db.nodes.keys.map (fun k => (db.nodes.get k).bind countedName) =
      [some name, some name, some name]) : CountsExact db := by
  intro c
  have hcount : db.nodes.count (fun n => countedName n = some c) =
      (db.nodes.keys.map fun k => (db.nodes.get k).bind countedName).count (some c) := by
    rw [Table.count, List.count, countP_map]
    refine countP_congr fun k _ => ?_
    show (db.nodes.get k).any _ = true ↔ ((db.nodes.get k).bind countedName == some c) = true
    cases db.nodes.get k with
    | none => simp
    | some n => simp
  rw [hcount, hnodes, hcounts, value_inc, value_inc, value_inc]
  by_cases h : c = name
  · simp [h, value]
  · simp [h, Ne.symm h, value]

instance (st : TaskStatus) : Decidable st.isGrouped :=
  inferInstanceAs (Decidable (_ ∨ _ ∨ _))

lemma atomic_erredGroup : Along RelayOp.exec RelayOp.Atomic erredGroup freshRelay :=
  ⟨trivial, trivial, trivial, trivial, trivial, trivial, cons_ne_nil _ _, cons_ne_nil _ _,
    cons_ne_nil _ _, trivial, trivial, trivial, trivial, trivial, trivial, trivial, trivial,
    trivial, trivial⟩

lemma groupReady_run {ops : List RelayOp} (h : Along RelayOp.exec RelayOp.Atomic ops freshRelay)
    (hcounts : CountsExact (run RelayOp.exec ops freshRelay).world.db) :
    GroupReady checkingEnv (run RelayOp.exec ops freshRelay).world.db :=
  ⟨run_occupancy _ freshRelay ⟨fun _ => rfl, fun _ => rfl, rfl⟩ h,
    run_registered _ freshRelay ⟨fun _ => rfl, fun _ => rfl, rfl⟩ (fun _ hc => nomatch hc) h, hcounts,
    fun _ _ _ => rfl⟩

lemma admitted_agreed : GroupAdmitted checkingEnv agreedState.world.db (groupCopies agreedState)
    "0xc".toList "0x50xa1".toList "0xa1".toList := by
  refine ⟨groupReady_run (atomic_scoredGroup _ _ _) (countsExact_three groupNames rfl
    (by decide +kernel)), ?_, ?_, ?_, ?_, ?_, ?_, ?_, ?_, ?_, fun t n => ⟨true, rfl⟩⟩
  all_goals decide +kernel

theorem decision_documented_at_agreed :
    ∃ w', Ok (validateScored agreedState) agreedState.world () w' ∧
      Documented 5 (lockedRows agreedState.world.db (groupCopies agreedState))
        (taskStatusOf w'.db) := by
  have hscore : ∃ r ∈ lockedRows agreedState.world.db (groupCopies agreedState),
      r.status ≠ .errorReported := by decide +kernel
  refine (decision_documented_iff admitted_agreed (by decide +kernel)).2 fun ⟨ty, hty⟩ => ?_
  obtain ⟨r, hr, hne⟩ := hscore
  exact hne (hty r hr).2

lemma admitted_erred : GroupAdmitted checkingEnv erredState.world.db (groupCopies erredState)
    "0xc".toList "0x50xa1".toList "0xa1".toList := by
  refine ⟨groupReady_run atomic_erredGroup (countsExact_three groupNames rfl (by decide +kernel)),
    ?_, ?_, ?_, ?_, ?_, ?_, ?_, ?_, ?_, fun t n => ⟨true, rfl⟩⟩
  all_goals decide +kernel

/-- **errors are not validated**: an admitted group of three errors, for which the validation fails. -/
theorem admitted_errors_refused :
    GroupAdmitted checkingEnv erredState.world.db (groupCopies erredState) "0xc".toList "0x50xa1".toList
        "0xa1".toList ∧
      (∀ r ∈ lockedRows erredState.world.db (groupCopies erredState), r.status = .errorReported) ∧
      ∃ e w', Fails (validateScored erredState) erredState.world e w' := by
  obtain ⟨e, h⟩ : ∃ e, Fails (validateScored erredState) erredState.world e _ :=
    fails_of_toOption (by decide +kernel)
  exact ⟨admitted_erred, by decide +kernel, e, _, h⟩

end CrynuxRelay
