import CrynuxRelay.Matching.Fit
import CrynuxRelay.Model.MatchingLoop

/-!
# Phase one of a matching round

* `RoundInv` -- what phase one has done for the tasks it has read: each one that can be matched has a
  node, or all its candidates are taken;
* `matchChunks` -- the loop over the chunks of a list of tasks; `RoundInv.matchChunks` -- at its end all
  tasks are read or no node is left; `RoundInv.matchChunks_iff` -- it ends before the chunk of a task
  that always fails, or not at all.
-/

namespace CrynuxRelay

open List Option Tx RequirementSignature

variable {e : NodeIndexEntry} {tasks : List InferenceTask} {fuel : Nat}
  {t : InferenceTask} {round' : MatchingRound} {w w' : World}

/-! ## candidates -/

namespace RoundInput

variable (r : RoundInput)

/-! ## tasks -/

/-- a task that a round can match: it has not timed out and none of its checks fails. -/
def Dispatchable (t : InferenceTask) : Prop :=
  isQueuedTaskTimedOut r.env t = false ∧ r.modelCheckError t = none ∧
    r.env.taskModelsAllowed t = true ∧ r.candidateError t.requirementSignature = none

/-- the processing of the task returns an error in every round: the whitelist check does, or the abort
of a task that is not allowed, or the candidate set. -/
def AlwaysFails (t : InferenceTask) : Prop :=
  isQueuedTaskTimedOut r.env t = false ∧ (r.modelCheckError t ≠ none ∨
      (r.env.taskModelsAllowed t = false ∧ r.abortError t ≠ none) ∨
      (r.env.taskModelsAllowed t = true ∧ r.candidateError t.requirementSignature ≠ none))

def candidatesOf (entries : List NodeIndexEntry) (t : InferenceTask) : List NodeIndexEntry :=
  buildMatchingCandidateSet r.env r.policy t entries

/-! ## one task -/

theorem processTask_ok {round : MatchingRound} (h : Ok (r.processTask round t) w round' w') :
    (¬ r.Dispatchable t ∧ round' = round ∧ (w' = w ∨
      Ok (setTaskStatusEndAborted r.env { t with abortReason := .modelNotAllowed }) w () w')) ∨
    (r.Dispatchable t ∧ round' = r.matchTask round t ∧ w' = w) ∨
    (round.candidateSets.lookup t.requirementSignature ≠ none ∧
      r.candidateError t.requirementSignature ≠ none ∧ round' = r.matchTask round t ∧ w' = w) := by
  rw [processTask] at h
  split at h
  · next hto =>
    obtain ⟨rfl, rfl⟩ := ok_pure.1 h
    exact .inl ⟨fun hd => Bool.false_ne_true (hd.1.symm.trans hto), rfl, .inl rfl⟩
  next hto =>
  split at h
  · exact absurd h ok_fail
  next hcheck =>
  split at h
  · next hno =>
    split at h
    · exact absurd h ok_fail
    obtain ⟨u, w1, habort, h⟩ := ok_bind.1 h
    obtain ⟨rfl, rfl⟩ := ok_pure.1 h
    exact .inl ⟨fun hd => Bool.false_ne_true (hno.symm.trans hd.2.2.1), rfl, .inr habort⟩
  next hyes =>
  have hallowed : r.env.taskModelsAllowed t = true := by simpa using hyes
  have hdue : isQueuedTaskTimedOut r.env t = false := by simpa using hto
  split at h
  · next hlookup =>
    split at h
    · exact absurd h ok_fail
    · next hcand =>
      obtain ⟨rfl, rfl⟩ := ok_pure.1 h
      exact .inr (.inl ⟨⟨hdue, hcheck, hallowed, hcand⟩, rfl, rfl⟩)
  · next hlookup =>
    obtain ⟨rfl, rfl⟩ := ok_pure.1 h
    by_cases hcand : r.candidateError t.requirementSignature = none
    · exact .inr (.inl ⟨⟨hdue, hcheck, hallowed, hcand⟩, rfl, rfl⟩)
    · exact .inr (.inr ⟨hlookup, hcand, rfl, rfl⟩)

/-! ## the tasks that were read -/

/-- phase one after the tasks `done`. -/
structure RoundInv (entries : List NodeIndexEntry) (done : List InferenceTask)
    (round : MatchingRound) : Prop where
  entries_eq : round.entries = entries
  sets : ∀ (t : InferenceTask) (set : List NodeIndexEntry),
    round.candidateSets.lookup t.requirementSignature = some set →
      set = r.candidatesOf entries t ∧ r.candidateError t.requirementSignature = none
  served : ∀ t ∈ done, r.Dispatchable t → (∃ pair ∈ round.pairs, pair.task = t) ∨
    ∀ e ∈ r.candidatesOf entries t, e.address ∈ round.pairs.map (·.nodeAddress)
  pairs : ∀ pair ∈ round.pairs, pair.task ∈ done ∧ r.candidatesOf entries pair.task ≠ []

variable {r} {entries : List NodeIndexEntry} {done : List InferenceTask} {round : MatchingRound}

lemma roundInv_start (entries : List NodeIndexEntry) :
    r.RoundInv entries [] { entries := entries } where
  entries_eq := rfl
  sets := fun _ _ h => absurd h (some_ne_none _).symm
  served := fun _ h => absurd h not_mem_nil
  pairs := fun _ h => absurd h not_mem_nil

section
variable (h : r.RoundInv entries done round)
include h

lemma RoundInv.candidates_eq (t : InferenceTask) :
    round.candidates r.env r.policy t = r.candidatesOf entries t := by
  rw [MatchingRound.candidates]
  split
  · next set hset => exact (h.sets t set hset).1
  · rw [h.entries_eq]
    rfl

lemma RoundInv.matchTask_eq (hd : r.Dispatchable t) :
    ∃ more : List MatchedPair, r.matchTask round t = { round with
        candidateSets := (t.requirementSignature, r.candidatesOf entries t) :: round.candidateSets
        pairs := round.pairs ++ more } ∧
      (∀ pair ∈ more, pair.task = t ∧ r.candidatesOf entries t ≠ []) ∧
      (more = [] → ∀ e ∈ r.candidatesOf entries t, e.address ∈ round.pairs.map (·.nodeAddress)) := by
  have hno : ¬ (isQueuedTaskTimedOut r.env t = true ∨ r.env.taskModelsAllowed t = false) := by
    rw [hd.1, hd.2.2.1]
    simp
  rw [matchTask, h.candidates_eq, MatchingRound.matchTask, if_neg hno, h.candidates_eq]
  simp only
  cases hav : round.available (r.candidatesOf entries t) with
  | nil =>
    refine ⟨[], by simp, by simp, fun _ e he => ?_⟩
    by_contra hfree
    have hmem : e ∈ round.available (r.candidatesOf entries t) :=
      mem_filter.2 ⟨he, decide_eq_true hfree⟩
    rw [hav] at hmem
    exact absurd hmem not_mem_nil
  | cons x l =>
    have hlt : r.draw t % (x :: l).length < (x :: l).length := Nat.mod_lt _ (Nat.succ_pos _)
    rw [getElem?_eq_getElem hlt]
    refine ⟨[⟨t, _⟩], rfl, ?_, fun h => absurd h (cons_ne_nil _ _)⟩
    intro pair hpair
    rw [mem_singleton.1 hpair]
    refine ⟨rfl, fun hnil => ?_⟩
    have hmem : x ∈ round.available (r.candidatesOf entries t) := hav ▸ mem_cons_self
    have hx := (mem_filter.1 hmem).1
    rw [hnil] at hx
    exact absurd hx not_mem_nil

lemma RoundInv.skip (hd : ¬ r.Dispatchable t) : r.RoundInv entries (done ++ [t]) round where
  entries_eq := h.entries_eq
  sets := h.sets
  served := fun u hu hdu => by
    rcases mem_append.1 hu with hu | hu
    · exact h.served u hu hdu
    · exact absurd (mem_singleton.1 hu ▸ hdu) hd
  pairs := fun pair hp => ⟨mem_append_left _ (h.pairs pair hp).1, (h.pairs pair hp).2⟩

lemma RoundInv.matched (hd : r.Dispatchable t) :
    r.RoundInv entries (done ++ [t]) (r.matchTask round t) := by
  obtain ⟨more, heq, hmore, hnone⟩ := h.matchTask_eq hd
  rw [heq]
  refine ⟨h.entries_eq, fun u set hset => ?_, fun u hu hdu => ?_, fun pair hp => ?_⟩
  · simp only [lookup_cons] at hset
    split at hset
    · next hsig =>
      have hsig : u.requirementSignature = t.requirementSignature := by simpa using hsig
      rw [hsig]
      refine ⟨?_, hd.2.2.2⟩
      have hversion := congrArg versionNumbers hsig
      have hfiles := congrArg requiredModelFileHashes hsig
      have hsources := congrArg requiredModelFileSourceHashes hsig
      simp only [InferenceTask.requirementSignature] at hversion hfiles hsources
      simp only [← some.inj hset, candidatesOf, buildMatchingCandidateSet, filterIndexEntriesForTaskAt,
        NodeIndexEntry.holdsRequiredModelFiles, matchesHardware_congr hsig, hversion, hfiles, hsources]
    · exact h.sets u set hset
  · show (∃ pair ∈ round.pairs ++ more, pair.task = u) ∨
      ∀ e ∈ r.candidatesOf entries u, e.address ∈ (round.pairs ++ more).map (·.nodeAddress)
    rw [map_append]
    rcases mem_append.1 hu with hu | hu
    · rcases h.served u hu hdu with ⟨pair, hp, he⟩ | hall
      · exact .inl ⟨pair, mem_append_left _ hp, he⟩
      · exact .inr fun e he => mem_append_left _ (hall e he)
    · obtain rfl := mem_singleton.1 hu
      cases more with
      | nil => exact .inr fun e he => mem_append_left _ (hnone rfl e he)
      | cons pair l =>
        exact .inl ⟨pair, mem_append_right _ mem_cons_self, (hmore pair mem_cons_self).1⟩
  · rcases mem_append.1 hp with hp | hp
    · exact ⟨mem_append_left _ (h.pairs pair hp).1, (h.pairs pair hp).2⟩
    · obtain ⟨rfl, hne⟩ := hmore pair hp
      exact ⟨mem_append_right _ (mem_singleton_self _), hne⟩

lemma RoundInv.processTask (hok : Ok (r.processTask round t) w round' w') :
    r.RoundInv entries (done ++ [t]) round' := by
  rcases r.processTask_ok hok with ⟨hd, rfl, -⟩ | ⟨hd, rfl, -⟩ | ⟨hlookup, hcand, -⟩
  · exact h.skip hd
  · exact h.matched hd
  · obtain ⟨set, hset⟩ := ne_none_iff_exists'.1 hlookup
    exact absurd (h.sets t set hset).2 hcand

lemma RoundInv.matchTasks (hok : Ok (r.matchTasks tasks round) w round' w') :
    r.RoundInv entries (done ++ tasks) round' := by
  induction tasks generalizing done round w with
  | nil =>
    obtain ⟨rfl, -⟩ := ok_pure.1 hok
    rwa [append_nil]
  | cons t l ih =>
    obtain ⟨round1, w1, ht, hl⟩ := ok_bind.1 hok
    have := ih (h.processTask ht) hl
    rwa [append_assoc] at this

lemma RoundInv.not_ok_of_alwaysFails (hfail : r.AlwaysFails t) :
    ¬ Ok (r.processTask round t) w round' w' := by
  obtain ⟨hdue, hcause⟩ := hfail
  intro hok
  rw [RoundInput.processTask, hdue, if_neg Bool.false_ne_true] at hok
  cases hcheck : r.modelCheckError t with
  | some e => rw [hcheck] at hok; exact absurd hok ok_fail
  | none =>
    simp only [hcheck] at hok
    rcases hcause with hne | ⟨hno, habort⟩ | ⟨hyes, hcand⟩
    · exact hne hcheck
    · obtain ⟨e, he⟩ := ne_none_iff_exists'.1 habort
      rw [if_pos hno, he] at hok
      exact absurd hok ok_fail
    · have hnone : round.candidateSets.lookup t.requirementSignature = none := by
        by_contra hne
        obtain ⟨set, hset⟩ := ne_none_iff_exists'.1 hne
        exact hcand (h.sets t set hset).2
      obtain ⟨e, he⟩ := ne_none_iff_exists'.1 hcand
      rw [hyes, if_neg (by simp), if_pos hnone, he] at hok
      exact absurd hok ok_fail

lemma RoundInv.not_ok_of_mem (hmem : t ∈ tasks) (hfail : r.AlwaysFails t) :
    ¬ Ok (r.matchTasks tasks round) w round' w' := by
  intro hok
  induction tasks generalizing done round w with
  | nil => exact absurd hmem not_mem_nil
  | cons u l ih =>
    obtain ⟨round1, w1, hu, hl⟩ := ok_bind.1 hok
    rcases mem_cons.1 hmem with rfl | hmem
    · exact h.not_ok_of_alwaysFails hfail hu
    · exact ih (h.processTask hu) hmem hl

end

/-! ## chunks -/

variable (r) in
def matchChunks : Nat → List InferenceTask → MatchingRound → Relay MatchingRound
  | 0, _, round => pure round
  | fuel + 1, rest, round =>
    if rest = [] then pure round
    else do
      let round' ← r.matchTasks (rest.take r.batchSize) round
      if (rest.take r.batchSize).length < r.batchSize ∨ round'.hasUnreservedEligibleNode = false then
        pure round'
      else matchChunks fuel (rest.drop r.batchSize) round'

/-- a round that no node is left for: every candidate of every task is taken. -/
lemma RoundInv.taken (h : r.RoundInv entries done round)
    (hfull : round.hasUnreservedEligibleNode = false)
    (he : e ∈ r.candidatesOf entries t) : e.address ∈ round.pairs.map (·.nodeAddress) := by
  have hhard := mem_filter.1 (mem_filter.1 (mem_filter.1 he).1).1
  simp only [Bool.and_eq_true, decide_eq_true_eq, Bool.not_eq_true'] at hhard
  rw [MatchingRound.hasUnreservedEligibleNode, List.any_eq_false] at hfull
  have hno := hfull e (h.entries_eq ▸ hhard.1)
  rw [hhard.2.1.1.1.1, hhard.2.1.1.1.2] at hno
  by_contra hfree
  simp [hfree] at hno

/-- **the end of phase one**: all tasks are read, or no node is left. -/
theorem RoundInv.matchChunks (h : r.RoundInv entries done round) {rest : List InferenceTask}
    (hfuel : rest.length < fuel) (hok : Ok (r.matchChunks fuel rest round) w round' w') :
    ∃ read unread, rest = read ++ unread ∧ r.RoundInv entries (done ++ read) round' ∧
      (unread = [] ∨ round'.hasUnreservedEligibleNode = false) := by
  induction fuel generalizing done round rest w with
  | zero => omega
  | succ fuel ih =>
    rw [RoundInput.matchChunks] at hok
    split at hok
    · next hnil =>
      obtain ⟨rfl, -⟩ := ok_pure.1 hok
      exact ⟨[], [], hnil, by rwa [append_nil], .inl rfl⟩
    · next hne =>
      obtain ⟨round1, w1, htasks, hok⟩ := ok_bind.1 hok
      have hinv := h.matchTasks htasks
      have hsplit := (take_append_drop r.batchSize rest).symm
      split at hok
      · next hend =>
        obtain ⟨rfl, -⟩ := ok_pure.1 hok
        refine ⟨_, _, hsplit, hinv, hend.imp_left fun hshort => ?_⟩
        rw [length_take] at hshort
        exact drop_eq_nil_of_le (by omega)
      · have hpos := r.batchSize_pos
        have hlen := length_pos_iff.2 hne
        have hrest : (rest.drop r.batchSize).length < fuel := by
          rw [length_drop]
          omega
        obtain ⟨read, unread, hsplit', hinv', hend⟩ := ih hinv hrest hok
        refine ⟨rest.take r.batchSize ++ read, unread, ?_, ?_, hend⟩
        · rwa [append_assoc, ← hsplit']
        · rwa [← append_assoc]

/-- **the loop stops before the page of a task that always fails**, or it fails. -/
theorem RoundInv.matchChunks_iff (h : r.RoundInv entries done round)
    (hfree : round.hasUnreservedEligibleNode = true) {k : Nat} {l1 l2 : List InferenceTask}
    (hlen : l1.length = k * r.batchSize) (hfuel : l1.length < fuel) (ht : t ∈ l2.take r.batchSize)
    (hfail : r.AlwaysFails t) {fuel' : Nat} (hfuel' : l1.length < fuel') :
    Ok (r.matchChunks fuel (l1 ++ l2) round) w round' w' ↔
      Ok (r.matchChunks fuel' l1 round) w round' w' ∧ round'.hasUnreservedEligibleNode = false := by
  have hpos := r.batchSize_pos
  induction k generalizing fuel fuel' l1 done round w with
  | zero =>
    have hnil : l1 = [] := length_eq_zero_iff.1 (by omega)
    obtain ⟨fuel, rfl⟩ := Nat.exists_eq_add_of_lt hfuel
    obtain ⟨fuel', rfl⟩ := Nat.exists_eq_add_of_lt hfuel'
    subst hnil
    have hne : l2 ≠ [] := by
      rintro rfl
      rw [take_nil] at ht
      exact absurd ht not_mem_nil
    simp only [length_nil, Nat.zero_add, nil_append, RoundInput.matchChunks, if_neg hne, if_true]
    constructor
    · intro hok
      obtain ⟨round1, w1, htasks, -⟩ := ok_bind.1 hok
      exact absurd htasks (h.not_ok_of_mem ht hfail)
    · rintro ⟨hok, hfull⟩
      obtain ⟨rfl, -⟩ := ok_pure.1 hok
      rw [hfree] at hfull
      cases hfull
  | succ k ih =>
    have hmul : (k + 1) * r.batchSize = k * r.batchSize + r.batchSize := Nat.succ_mul _ _
    have hle : r.batchSize ≤ l1.length := by omega
    have hne1 : l1 ≠ [] := ne_nil_of_length_pos (by omega)
    have hne : l1 ++ l2 ≠ [] := append_ne_nil_of_left_ne_nil hne1 l2
    obtain ⟨n, rfl⟩ : ∃ n, fuel = n + 1 := ⟨fuel - 1, by omega⟩
    obtain ⟨n', rfl⟩ : ∃ n, fuel' = n + 1 := ⟨fuel' - 1, by omega⟩
    have htake : (l1 ++ l2).take r.batchSize = l1.take r.batchSize :=
      take_append_of_le_length hle
    have hdrop : (l1 ++ l2).drop r.batchSize = l1.drop r.batchSize ++ l2 :=
      drop_append_of_le_length hle
    have hfulltake : ¬ (l1.take r.batchSize).length < r.batchSize := by
      rw [length_take]
      omega
    have hlen' : (l1.drop r.batchSize).length = k * r.batchSize := by
      rw [length_drop]
      omega
    have hshorter : (l1.drop r.batchSize).length < n ∧ (l1.drop r.batchSize).length < n' := by
      omega
    rw [RoundInput.matchChunks, RoundInput.matchChunks, if_neg hne, if_neg hne1, htake, hdrop,
      ok_bind, ok_bind]
    constructor
    · rintro ⟨round1, w1, htasks, hok⟩
      split at hok
      · next hend =>
        obtain ⟨rfl, rfl⟩ := ok_pure.1 hok
        exact ⟨⟨_, _, htasks, by rw [if_pos hend]; exact hok⟩, hend.resolve_left hfulltake⟩
      · next hgo =>
        have hfree1 : round1.hasUnreservedEligibleNode = true := by
          simpa using fun hf => hgo (.inr hf)
        have hrec := (ih (h.matchTasks htasks) hfree1 hlen' hshorter.1 hshorter.2).1 hok
        exact ⟨⟨_, _, htasks, by rw [if_neg hgo]; exact hrec.1⟩, hrec.2⟩
    · rintro ⟨⟨round1, w1, htasks, hok⟩, hfull⟩
      refine ⟨_, _, htasks, ?_⟩
      split at hok
      · next hend => rwa [if_pos hend]
      · next hgo =>
        have hfree1 : round1.hasUnreservedEligibleNode = true := by
          simpa using fun hf => hgo (.inr hf)
        rw [if_neg hgo]
        exact (ih (h.matchTasks htasks) hfree1 hlen' hshorter.1 hshorter.2).2 ⟨hok, hfull⟩

end RoundInput

end CrynuxRelay
