import CrynuxRelay.Tasks.Completion

/-!
# The members of a group

A validation settles the members of a group one after the other; which of them can be settled follows from their
statuses.

* `GroupReady` -- the invariants, exact node-name counts and a chain that answers;
* `total_applyGroupStatus` -- a member whose next status fits its status is settled;
* `AgreeOnError` -- three errors of one task type, the group whose last member cannot be refunded;
* `AtLoop` -- what holds of the members when the loop over them starts.
-/

namespace CrynuxRelay

open Function List Option Tx

variable {st : TaskStatus} {next : Text → TaskStatus} {evidence : List (Text × Bool)}
  {finished threshold : Nat} {m m₀ m₁ m₂ : InferenceTask} {w : World}
  {u : Unit} {l : List InferenceTask} {db : Db}

/-! ## members -/

structure GroupReady (env : Env) (db : Db) : Prop where
  occupancy : Occupancy db
  register : Registered db
  counts : CountsExact db
  staking : ∀ a n, db.nodes.get a = some n → (env.stakingStatus n.address n.network).isSome = true

def Member (db : Db) (m : InferenceTask) : Prop :=
  ∃ row, db.tasks.get m.taskIDCommitment = some row ∧
    m = { row with taskID := m.taskID, qosScore := m.qosScore }

section
variable {env : Env} {w' : World}

lemma Member.row (h : Member w.db m) : ∃ row, w.db.tasks.get m.taskIDCommitment = some row ∧
    row.status = m.status ∧ row.selectedNode = m.selectedNode ∧ row.startTime = m.startTime := by
  obtain ⟨row, hrow, e⟩ := h
  refine ⟨row, hrow, ?_⟩
  rw [e]
  exact ⟨rfl, rfl, rfl⟩

lemma Member.current (h : Member w.db m) : TaskCurrent m w.db := by
  obtain ⟨row, hrow, hst, -⟩ := h.row
  exact ⟨row, hrow, hst⟩

lemma Member.copyFits (h : Member w.db m) (ho : Occupancy w.db) : CopyFits w.db m := by
  obtain ⟨row, hrow, e⟩ := h
  rw [e] at hrow ⊢
  exact (ho.copyFits hrow).write rfl rfl rfl

section
variable (h : GroupReady env w.db) (hm : Member w.db m) (hocc : m.status.isOccupying = true)
include h hm hocc

lemma GroupReady.holder : ∃ node, HoldsTask w.db m node ∧ FinishReady env w.db node := by
  obtain ⟨row, hrow, hst, hsel, -⟩ := hm.row
  rw [← hst] at hocc
  obtain ⟨node, hn, hcur⟩ := bind_eq_some_iff.1 (h.occupancy.holds _ row hrow hocc)
  have hna : node.address = row.selectedNode := Table.key_of_get hn
  refine ⟨node, ⟨hsel ▸ hn, hcur⟩, (h.occupancy.nodes _ node hn).2 (by rw [hcur]; rfl),
    ⟨_, row, hcur, hrow⟩, ⟨node, hna.symm ▸ hn, rfl⟩, h.staking _ node hn, h.counts⟩

lemma GroupReady.selected : m.selectedNode ≠ [] := by
  obtain ⟨node, hhold, -⟩ := h.holder hm hocc
  intro e
  have hnode := hhold.1
  rw [e, h.occupancy.named] at hnode
  cases hnode

lemma GroupReady.refund_open : ¬ Recorded w.db (refundReason m.taskIDCommitment) := by
  obtain ⟨row, hrow, hst, -⟩ := hm.row
  refine h.register.refund_open hrow ?_
  rw [hst]
  exact TaskStatus.not_terminal_of_occupying hocc

end

/-! ## the transition of a member -/

def Allows (m : InferenceTask) (st : TaskStatus) : Prop :=
  (st = .groupValidated ∨ st = .endGroupRefund → m.status = .scoreReady) ∧
    (st = .endInvalidated → m.status ≠ .endAborted)

lemma TaskStatus.isGrouped.occupying (h : st.isGrouped)
    (hne : st ≠ .endAborted) : st.isOccupying = true := by
  rcases h with rfl | rfl | rfl
  · rfl
  · rfl
  · exact absurd rfl hne

theorem total_applyGroupStatus (h : GroupReady env w.db) (hm : Member w.db m) (hst : m.status.isGrouped)
    (hfit : Allows m (next m.taskIDCommitment)) (hev : next m.taskIDCommitment = .endInvalidated →
      ∃ b, evidence.lookup m.taskIDCommitment = some b) :
    Total (applyGroupStatus env next evidence finished m) w fun _ w' => CountsExact w'.db := by
  obtain ⟨row, hrow, -, hsel, hstart⟩ := hm.row
  unfold applyGroupStatus
  split
  · next hnext =>
    have hne := hfit.2 hnext
    obtain ⟨b, hb⟩ := hev hnext
    obtain ⟨node, hhold, hready⟩ := h.holder hm (hst.occupying hne)
    refine total_orFail_bind hb (total_invalidated hready hhold hm.current b ?_ fun r hr => ?_)
    · rcases hst with hst | hst | hst
      · exact .inl hst
      · exact .inr (.inr hst)
      · exact absurd hst hne
    · rw [hrow] at hr
      cases hr
      exact hsel
  · next hnext =>
    have hsr := hfit.1 (.inl hnext)
    have hocc : m.status.isOccupying = true := by rw [hsr]; rfl
    obtain ⟨node, hhold, -⟩ := h.holder hm hocc
    refine total_groupValidated h.counts hhold hm.current hsr ?_
    rw [← hstart]
    refine h.register.begun _ row hrow ?_
    obtain ⟨r, hr, hrs⟩ := hm.current
    rw [hrow] at hr
    cases hr
    rwa [hrs]
  · next hnext =>
    have hsr := hfit.1 (.inr hnext)
    have hocc : m.status.isOccupying = true := by rw [hsr]; rfl
    obtain ⟨node, hhold, hready⟩ := h.holder hm hocc
    exact total_groupRefund hready hhold hm.current hsr (h.refund_open hm hocc)
  · by_cases hab : m.status = .endAborted
    · rw [if_neg (not_not.2 hab)]
      refine total_persistAborted h.counts fun hne => ?_
      rw [← hsel] at hne ⊢
      exact h.register.selected _ row hrow hne
    · rw [if_pos hab]
      have hocc := hst.occupying hab
      have hselected := h.selected hm hocc
      have hopen := h.refund_open hm hocc
      obtain ⟨node, hhold, hready⟩ := h.holder hm hocc
      refine total_aborted hready hhold hm.current hselected
        (TaskStatus.not_terminal_of_occupying hocc) ?_ hopen
      show (if finished < 2 then TaskAbortReason.groupTimeout else .incorrectResult) ≠ _
      split
      all_goals exact nofun

lemma GroupReady.apply (h : GroupReady env w.db) (hm : Member w.db m)
    (hok : Ok (applyGroupStatus env next evidence finished m) w u w') (hc : CountsExact w'.db) :
    GroupReady env w'.db := by
  have hr : MoveFrame _ False w w' := (moves_applyGroupStatus env next evidence finished m).ok hok
  obtain ⟨row, hrow, -⟩ := hm.row
  have ht := transition_applyGroupStatus hrow hok
  refine ⟨h.occupancy.transition (hm.copyFits h.occupancy) ht, h.register.transition ht, hc,
    fun a n hn => ?_⟩
  refine hr.nodes.keep (fun n n' hmove hs => ?_) (h.staking a) n hn
  cases hmove.move with
  | _ => exact hs

/-! ## the loop -/

structure LoopReady (env : Env) (next : Text → TaskStatus) (evidence : List (Text × Bool))
    (l : List InferenceTask) (w : World) : Prop where
  ready : GroupReady env w.db
  nodup : (l.map (·.taskIDCommitment)).Nodup
  members : ∀ m ∈ l, Member w.db m
  grouped : ∀ m ∈ l, m.status.isGrouped
  allows : ∀ m ∈ l, Allows m (next m.taskIDCommitment)
  evident : ∀ m ∈ l, next m.taskIDCommitment = .endInvalidated →
    ∃ b, evidence.lookup m.taskIDCommitment = some b

lemma LoopReady.tail (h : LoopReady env next evidence (m :: l) w)
    (hok : Ok (applyGroupStatus env next evidence finished m) w u w') (hc : CountsExact w'.db) :
    LoopReady env next evidence l w' := by
  obtain ⟨hnot, hnodup⟩ := nodup_cons.1 h.nodup
  have htail : ∀ m' ∈ l, m' ∈ m :: l := fun m' hm' => mem_cons_of_mem m hm'
  obtain ⟨row, hrow, -⟩ := (h.members m mem_cons_self).row
  have ht := transition_applyGroupStatus hrow hok
  refine ⟨h.ready.apply (h.members m mem_cons_self) hok hc, hnodup, fun m' hm' => ?_,
    fun m' hm' => h.grouped m' (htail m' hm'), fun m' hm' => h.allows m' (htail m' hm'),
    fun m' hm' => h.evident m' (htail m' hm')⟩
  obtain ⟨row, hrow, e⟩ := h.members m' (htail m' hm')
  refine ⟨row, ?_, e⟩
  rwa [ht.others fun e => hnot (List.mem_map.2 ⟨m', hm', e⟩)]

lemma LoopReady.total (h : LoopReady env next evidence (m :: l) w) (finished : Nat) :
    Total (applyGroupStatus env next evidence finished m) w fun _ w' =>
      LoopReady env next evidence l w' :=
  (total_applyGroupStatus h.ready (h.members m mem_cons_self)
    (h.grouped m mem_cons_self) (h.allows m mem_cons_self)
    (h.evident m mem_cons_self)).mono fun _ _ hok hc => h.tail hok hc

theorem total_members (h : LoopReady env next evidence l w) :
    Total (Tx.each (applyGroupStatus env next evidence finished) l) w fun _ _ => True := by
  exact (total_each (LoopReady env next evidence) (fun m l w h => h.total finished) l w h).mono
    fun _ _ _ _ => trivial

end

/-! ## the statuses that the comparison gives -/

def AgreeOnError (rows : List InferenceTask) : Prop :=
  ∃ ty, ∀ r ∈ rows, r.taskType = ty ∧ r.status = .errorReported

section
variable {ms : List InferenceTask}

lemma allows_aborted (m : InferenceTask) : Allows m .endAborted := by
  refine ⟨fun h => ?_, nofun⟩
  rcases h with h | h
  · cases h
  · cases h

lemma allows_update {x : InferenceTask} (hnd : (ms.map (·.taskIDCommitment)).Nodup) (hx : x ∈ ms)
    (hst : Allows x st) (h : ∀ m ∈ ms, Allows m (next m.taskIDCommitment)) :
    ∀ m ∈ ms, Allows m (Function.update next x.taskIDCommitment st m.taskIDCommitment) := by
  intro m hm
  by_cases hc : m.taskIDCommitment = x.taskIDCommitment
  · obtain rfl := inj_on_of_nodup_map hnd hm hx hc
    rwa [update_self]
  · rw [update_of_ne hc]
    exact h m hm

lemma allows_pairStatus {f g : InferenceTask} (hnd : (ms.map (·.taskIDCommitment)).Nodup)
    (hf : f ∈ ms) (hg : g ∈ ms) (hagree : Agree f g) :
    ∀ m ∈ ms, Allows m (pairStatus f g m.taskIDCommitment) := by
  unfold pairStatus
  split
  · next hst =>
    refine allows_update hnd hg ⟨fun _ => hagree.2 ▸ hst, nofun⟩ ?_
    exact allows_update hnd hf ⟨fun _ => hst, nofun⟩ fun m _ => allows_aborted m
  · exact fun m _ => allows_aborted m

/-- **the next statuses fit**, unless three members agree on an error. -/
theorem groupNextStatus_allows
    (h : groupNextStatus threshold ms = some next) (hnd : (ms.map (·.taskIDCommitment)).Nodup)
    (hthree : ms.length = 3) (hst : ∀ m ∈ ms, m.status.isGrouped) (hno : ¬ AgreeOnError ms) :
    ∀ m ∈ ms, Allows m (next m.taskIDCommitment) := by
  have hsub : ∀ {t : InferenceTask}, t ∈ executedMembers ms → t ∈ ms ∧ t.status ≠ .endAborted :=
    fun ht => ⟨(mem_filter.1 ht).1, of_decide_eq_true (mem_filter.1 ht).2⟩
  rcases groupNextStatus_cases h with
    rfl | ⟨f, g, hex, hfg, -, rfl⟩ | ⟨f, g, r, st, hperm, hfg, rfl, hr⟩
  · exact fun m _ => allows_aborted m
  · exact allows_pairStatus hnd (hsub (by rw [hex]; simp)).1 (hsub (by rw [hex]; simp)).1 hfg
  · have hmem : ∀ t ∈ [f, g, r], t ∈ ms ∧ t.status ≠ .endAborted :=
      fun t ht => hsub (hperm.mem_iff.1 ht)
    refine allows_update hnd (hmem r (by simp)).1 ⟨?_, fun _ => (hmem r (by simp)).2⟩
      (allows_pairStatus hnd (hmem f (by simp)).1 (hmem g (by simp)).1 hfg)
    intro hrefund
    rcases hr with rfl | ⟨rfl, hfr⟩
    · rcases hrefund with h | h
      · cases h
      · cases h
    rw [← hfr.2]
    rcases hst f (hmem f (by simp)).1 with hs | hs | hs
    · exact hs
    · -- all three have executed, and all three have reported an error
      have hall : executedMembers ms = ms := by
        refine filter_sublist.eq_of_length ?_
        rw [hthree]
        exact hperm.length_eq.symm
      refine absurd ⟨f.taskType, fun t ht => ?_⟩ hno
      rw [← hall, ← hperm.mem_iff] at ht
      simp only [mem_cons, not_mem_nil, or_false] at ht
      rcases ht with rfl | rfl | rfl
      · exact ⟨rfl, hs⟩
      · exact ⟨hfg.1.symm, hfg.2 ▸ hs⟩
      · exact ⟨hfr.1.symm, hfr.2 ▸ hs⟩
    · exact absurd hs (hmem f (by simp)).2

end

/-! ## up to the loop -/

section
variable {env : Env} {tasks : List InferenceTask} {taskID : Text} {w' : World} {e : Err}

lemma buildEvidence_lookup {ms : List InferenceTask}
    (h : Ok (buildInvalidatedTaskSlashEvidence env next ms) w evidence w') :
    ∀ m ∈ ms, next m.taskIDCommitment = .endInvalidated →
      ∃ b, evidence.lookup m.taskIDCommitment = some b := by
  induction ms generalizing evidence w' with
  | nil => exact fun m hm => absurd hm not_mem_nil
  | cons m ms ih =>
    unfold buildInvalidatedTaskSlashEvidence at h
    intro m' hm' hnext
    split at h
    · next hother =>
      rcases mem_cons.1 hm' with rfl | hm'
      · exact absurd hnext hother
      · exact ih h m' hm' hnext
    · obtain ⟨node, w1, hnode, hrest⟩ := ok_bind.1 h
      obtain ⟨-, rfl⟩ := ok_checkTaskSelectedNode.1 hnode
      split at hrest
      · exact absurd hrest ok_fail
      · next complete _ =>
        obtain ⟨r, w2, hr, hpure⟩ := ok_bind.1 hrest
        obtain ⟨rfl, -⟩ := ok_pure.1 hpure
        rw [lookup_cons]
        by_cases hc : m'.taskIDCommitment = m.taskIDCommitment
        · rw [hc, beq_self_eq_true]
          exact ⟨complete, rfl⟩
        · rw [beq_eq_false_iff_ne.2 hc]
          rcases mem_cons.1 hm' with rfl | hm'
          · exact absurd rfl hc
          · exact ih hr m' hm' hnext

structure AtLoop (env : Env) (db : Db) (tasks : List InferenceTask) (taskID : Text)
    (next : Text → TaskStatus) (evidence : List (Text × Bool)) (ms : List InferenceTask) : Prop where
  members : ∃ refreshed, refreshed.length = 3 ∧ refreshed.Perm (lockedRows db tasks) ∧
    ms = settledMembers taskID refreshed
  grouped : ∀ r ∈ lockedRows db tasks, r.status.isGrouped
  compared : groupNextStatus env.distanceThreshold ms = some next
  evident : ∀ m ∈ ms, next m.taskIDCommitment = .endInvalidated →
    ∃ b, evidence.lookup m.taskIDCommitment = some b

/-! ## the members at the loop -/

section
variable {ms : List InferenceTask}

section
variable (h : AtLoop env db tasks taskID next evidence ms)
include h

lemma AtLoop.perm :
    (ms.map (·.taskIDCommitment)).Perm ((lockedRows db tasks).map (·.taskIDCommitment)) := by
  obtain ⟨refreshed, -, hperm, rfl⟩ := h.members
  rw [settled_commitments]
  exact ((sortBy_perm _ _).trans hperm).map _

lemma AtLoop.nodup :
    (ms.map (·.taskIDCommitment)).Nodup := h.perm.nodup_iff.2 (nodup_lockedRows db tasks)

lemma AtLoop.three : ms.length = 3 := by
  have hlen := h.perm.length_eq
  obtain ⟨refreshed, hthree, hperm, -⟩ := h.members
  rwa [length_map, length_map, ← hperm.length_eq, hthree] at hlen

lemma AtLoop.row (hm : m ∈ ms) : ∃ r ∈ lockedRows db tasks, SameMember taskID r m := by
  obtain ⟨refreshed, -, hperm, rfl⟩ := h.members
  obtain ⟨r, hr, e⟩ := mem_settledMembers hm
  exact ⟨r, hperm.mem_iff.1 hr, e⟩

end

lemma AtLoop.member (h : AtLoop env w.db tasks taskID next evidence ms)
    (hm : m ∈ ms) : Member w.db m := by
  obtain ⟨r, hr, e⟩ := h.row hm
  refine ⟨r, ?_, ?_⟩
  · rw [e]
    exact (mem_lockedRows.1 hr).1
  · rw [e]

lemma AtLoop.isGrouped (h : AtLoop env db tasks taskID next evidence ms)
    (hm : m ∈ ms) : m.status.isGrouped := by
  obtain ⟨r, hr, e⟩ := h.row hm
  rw [e]
  exact h.grouped r hr

lemma AtLoop.agree_iff (h : AtLoop env db tasks taskID next evidence ms) :
    AgreeOnError ms ↔ AgreeOnError (lockedRows db tasks) := by
  refine ⟨fun ⟨ty, hty⟩ => ⟨ty, fun r hr => ?_⟩, fun ⟨ty, hty⟩ => ⟨ty, fun m hm => ?_⟩⟩
  · obtain ⟨m, hm, hc⟩ := List.mem_map.1 (h.perm.mem_iff.2 (List.mem_map_of_mem hr))
    obtain ⟨r', hr', e⟩ := h.row hm
    have hrr : r' = r := by
      refine inj_on_of_nodup_map (nodup_lockedRows db tasks) hr' hr ?_
      rw [← hc, e]
    have hm' := hty m hm
    rwa [e, hrr] at hm'
  · obtain ⟨r, hr, e⟩ := h.row hm
    rw [e]
    exact hty r hr

lemma AtLoop.loopReady (h : AtLoop env w.db tasks taskID next evidence ms)
    (hready : GroupReady env w.db) (hno : ¬ AgreeOnError (lockedRows w.db tasks)) :
    LoopReady env next evidence ms w :=
  ⟨hready, h.nodup, fun _ hm => h.member hm, fun _ hm => h.isGrouped hm,
    groupNextStatus_allows h.compared h.nodup h.three (fun _ hm => h.isGrouped hm)
      fun hag => hno (h.agree_iff.1 hag), h.evident⟩

end

end

/-! ## three errors -/

section
variable {env : Env}

/-- when three members agree on an error, the first two are aborted and the third is to be refunded. -/
lemma groupNextStatus_errors
    (h : AgreeOnError [m₀, m₁, m₂]) : groupNextStatus threshold [m₀, m₁, m₂] =
      some (Function.update (fun _ => .endAborted) m₂.taskIDCommitment .endGroupRefund) := by
  obtain ⟨ty, hty⟩ := h
  obtain ⟨ht0, hs0⟩ := hty m₀ (by simp)
  obtain ⟨ht1, hs1⟩ := hty m₁ (by simp)
  obtain ⟨ht2, hs2⟩ := hty m₂ (by simp)
  simp [groupNextStatus, compareTaskScore, ht0, hs0, ht1, hs1, ht2, hs2]

lemma refund_refused
    (hnext : next m.taskIDCommitment = .endGroupRefund) (hst : m.status = .errorReported) :
    Fails (applyGroupStatus env next evidence finished m) w .wrongTaskStatus w := by
  unfold applyGroupStatus
  rw [hnext]
  exact fails_require_bind.2 (.inl ⟨by rw [hst]; exact nofun, rfl, rfl⟩)

end

/-! ## three nodes that report an error -/

def groupNode (address : Text) : JoinInput := { idleNode with address := address }

/-- the last digit of the commitment is the nonce. -/
def groupTask (c : Text) : NewTask where
  task := { taskIDCommitment := c, nonce := c.drop 3, samplingSeed := "0x5".toList, creator := "0xa1".toList,
            taskFee := 3 }
  queued := rfl
  unselected := rfl
  unrevealed := rfl

def createdGroup : List RelayOp :=
  [.create {} (groupTask "0xc1".toList), .create {} (groupTask "0xc2".toList),
    .create {} (groupTask "0xc3".toList), .read "0xc1".toList, .read "0xc2".toList,
    .read "0xc3".toList]

/-- they start on three nodes, which all report an error. -/
def erredGroup : List RelayOp :=
  createdGroup ++ [.request (.join {} (groupNode "n1".toList)),
    .request (.join {} (groupNode "n2".toList)), .request (.join {} (groupNode "n3".toList)),
    .attempt {} 0 (.start "n1".toList), .attempt {} 1 (.start "n2".toList),
    .attempt {} 2 (.start "n3".toList), .read "0xc1".toList, .read "0xc2".toList,
    .read "0xc3".toList, .attempt {} 3 (.reportError .none), .attempt {} 4 (.reportError .none),
    .attempt {} 5 (.reportError .none)]

def groupCopies (s : RelayState) : List InferenceTask := (s.flights.take 3).map (·.task)

def erredState : RelayState := run RelayOp.exec erredGroup freshRelay

/-- a commitment opens to the task id and the nonce, and a proof is made from the seed of the group with the key of
the creator. -/
def checkingEnv : Env where
  validTaskID := fun taskID nonce c => decide (taskID ≠ []) && decide (c = taskID ++ nonce)
  validTaskID_empty := fun _ _ => rfl
  validVRFProof := fun seed proof publicKey creator isGroup =>
    isGroup && decide (publicKey = creator) && decide (proof = seed ++ publicKey)

def validateScored (s : RelayState) : Relay Unit :=
  validateTaskGroup checkingEnv (groupCopies s) "0xc".toList "0x50xa1".toList "0xa1".toList

end CrynuxRelay
