import CrynuxRelay.Matching.Coverage
import CrynuxRelay.Tasks.Rows

/-!
# The node of a started task meets the requirements of the task

* `SelectedNodeFits` -- the persisted node of a task passes the filters of the matching;
* `StartsFit` -- every task that a step starts is on such a node;
* `RoundInv` -- what a round keeps: its view shows the hardware of the nodes as it is persisted;
* `run_startsFit` -- every start fits, when no node changes its hardware under a round;
  `start_on_changed_hardware` -- a run in which one does.

The start reads the node again and checks its health, its version and its model files, but not its
GPU name, platform and VRAM.
-/

namespace CrynuxRelay

open List Option Table RequirementSignature MatchOp

variable {t' : InferenceTask} {env : Env} {e : NodeIndexEntry} {pair : MatchedPair}
  {starting : Prop} {op : RelayOp} {r : MatchingRound} {t task : InferenceTask} {w w' : World}
  {s : MatchState}

/-! ## requirements -/

def meetsRequirements (task : InferenceTask) (e : NodeIndexEntry) : Bool :=
  entryMatchesTaskVersion e task.versionNumbers && matchesHardware task e.gpuName e.gpuVram &&
    e.holdsRequiredModelFiles task

def SelectedNodeFits (db : Db) (task : InferenceTask) : Prop :=
  ∃ node, db.nodes.get task.selectedNode = some node ∧
    meetsRequirements task (buildNodeIndexEntry node (db.nodeModels task.selectedNode)) = true

/-- whenever a task becomes started, its node, as it is persisted then, fits. -/
def StartsFit (s : MatchState) (op : MatchOp) : Prop :=
  ∀ c t', (op.exec s).relay.world.db.tasks.get c = some t' → t'.status = .started →
    (∀ t, s.relay.world.db.tasks.get c = some t → t.status ≠ .started) →
      SelectedNodeFits (op.exec s).relay.world.db t'

lemma matchesHardware_congr
    (h : t'.requirementSignature = t.requirementSignature) (g : Text) (v : Nat) :
    matchesHardware t' g v = matchesHardware t g v := by
  have htype := congrArg taskType h
  have hmin := congrArg minVRAM h
  have hgpu := congrArg requiredGPU h
  have hvram := congrArg requiredGPUVRAM h
  have hcuda := congrArg requireLinuxCuda h
  simp only [InferenceTask.requirementSignature] at htype hmin hgpu hvram hcuda
  unfold matchesHardware
  rw [htype, hmin, hgpu, hvram, hcuda]

lemma meetsRequirements_congr (h : t'.requirementSignature = t.requirementSignature)
    (e : NodeIndexEntry) : meetsRequirements t' e = meetsRequirements t e := by
  have hversion := congrArg versionNumbers h
  have hfiles := congrArg requiredModelFileHashes h
  have hsources := congrArg requiredModelFileSourceHashes h
  simp only [InferenceTask.requirementSignature] at hversion hfiles hsources
  unfold meetsRequirements NodeIndexEntry.holdsRequiredModelFiles
  rw [matchesHardware_congr h, hversion, hfiles, hsources]

/-! ## what the start checks -/

/-- **a start fits in everything but the hardware**, which it does not look at. -/
theorem startMatchedPair_fits {u : Unit} (h : Tx.Ok (startMatchedPair env pair) w u w')
    (hrow : ∃ row, w.db.tasks.get pair.task.taskIDCommitment = some row ∧
      row.requirementSignature = pair.task.requirementSignature)
    (hhard : ∀ n, w.db.nodes.get pair.nodeAddress = some n →
      matchesHardware pair.task n.gpuName n.gpuVram = true) :
    (∀ c, c ≠ pair.task.taskIDCommitment → w'.db.tasks.get c = w.db.tasks.get c) ∧
      ∀ t', w'.db.tasks.get pair.task.taskIDCommitment = some t' → SelectedNodeFits w'.db t' := by
  obtain ⟨-, -, node, hashes, timeout, hnode, -, hversion, hfiles, -, -, rfl⟩ :=
    setTaskStatusStarted_ok h
  have haddr : node.address = pair.nodeAddress := key_of_get hnode
  obtain ⟨row, hrow, hsig⟩ := hrow
  refine ⟨fun c hc => get_modify_ne w.db.tasks _ (by intro _; rfl) hc, fun t' ht' => ?_⟩
  have ht : t' = row.startedOn node.address env.now timeout hashes := by
    have hget : (startDb pair.task node env.now timeout hashes w.db).tasks.get
        pair.task.taskIDCommitment = (w.db.tasks.get pair.task.taskIDCommitment).map
          fun t => t.startedOn node.address env.now timeout hashes :=
      get_modify_self w.db.tasks _ _ (by intro _; rfl)
    rw [hget, hrow] at ht'
    exact (some.inj ht').symm
  subst ht
  refine ⟨node.starting pair.task.taskIDCommitment node.healthExcluded, ?_, ?_⟩
  · have hget : (startDb pair.task node env.now timeout hashes w.db).nodes.get node.address =
        (w.db.nodes.get node.address).map
          fun n => n.starting pair.task.taskIDCommitment node.healthExcluded :=
      get_modify_self w.db.nodes _ _ (by intro _; rfl)
    rw [haddr] at hget
    show (startDb pair.task node env.now timeout hashes w.db).nodes.get node.address = _
    rw [haddr, hget, hnode]
    rfl
  · have hsig' : (row.startedOn node.address env.now timeout hashes).requirementSignature =
        pair.task.requirementSignature := hsig
    rw [meetsRequirements_congr hsig', meetsRequirements, Bool.and_eq_true, Bool.and_eq_true]
    exact ⟨⟨hversion, hhard node hnode⟩, (resolvedHashes_spec hfiles).1⟩

/-! ## the round -/

def ShowsHardware (db : Db) (e : NodeIndexEntry) : Prop :=
  ∀ n, db.nodes.get e.address = some n → n.gpuName = e.gpuName ∧ n.gpuVram = e.gpuVram

def SameRequirements (db : Db) (task : InferenceTask) : Prop :=
  ∃ row, db.tasks.get task.taskIDCommitment = some row ∧
    row.requirementSignature = task.requirementSignature

structure RoundInv (db : Db) (r : MatchingRound) : Prop where
  entries : ∀ e ∈ r.entries, ShowsHardware db e
  tasks : ∀ t ∈ r.tasks, SameRequirements db t
  sets : ∀ p ∈ r.candidateSets, ∀ e ∈ p.2, e ∈ r.entries ∧
    ∀ t : InferenceTask, t.requirementSignature = p.1 → matchesHardware t e.gpuName e.gpuVram = true
  pairs : ∀ p ∈ r.pairs, SameRequirements db p.task ∧ ∃ e ∈ r.entries, e.address = p.nodeAddress ∧
    matchesHardware p.task e.gpuName e.gpuVram = true

def MatchInv (s : MatchState) : Prop := ∀ r, s.round = some r → RoundInv s.relay.world.db r

section
variable {db db' : Db}

/-- a round survives a change of the database that shows in none of its copies. -/
lemma RoundInv.transfer (h : RoundInv db r)
    (hhard : ∀ e ∈ r.entries, ShowsHardware db e → ShowsHardware db' e)
    (hreq : ∀ t, SameRequirements db t → SameRequirements db' t) : RoundInv db' r where
  entries := fun e he => hhard e he (h.entries e he)
  tasks := fun t ht => hreq t (h.tasks t ht)
  sets := h.sets
  pairs := fun p hp => ⟨hreq p.task (h.pairs p hp).1, (h.pairs p hp).2⟩

lemma RoundInv.frame (h : RoundInv w.db r) (hf : RowFrame starting w w') : RoundInv w'.db r := by
  refine h.transfer (fun e _ he => hf.nodes.keep (fun n n' hmove hn => ?_) he) fun t ht => ?_
  · cases hmove <;> exact hn
  · obtain ⟨row, hrow, hsig⟩ := ht
    obtain ⟨row', hrow', hkept⟩ := hf.kept _ row hrow
    exact ⟨row', hrow', hkept.requirements.trans hsig⟩

lemma RoundInv.fetch (h : RoundInv db r) (c : Text) : RoundInv db (r.fetch db c) := by
  unfold MatchingRound.fetch
  split
  · next t ht =>
    split
    · refine ⟨h.entries, fun t' ht' => ?_, h.sets, h.pairs⟩
      rcases mem_append.1 ht' with ht' | ht'
      · exact h.tasks t' ht'
      · rw [mem_singleton.1 ht']
        refine ⟨t, ?_, rfl⟩
        rwa [key_of_get ht]
    · exact h
  · exact h

/-- the candidates of a task are entries of the round with the hardware that the task asks for. -/
lemma RoundInv.candidates (h : RoundInv db r) (env : Env) (policy : NodeNamePolicy)
    (task : InferenceTask) : ∀ e ∈ r.candidates env policy task, e ∈ r.entries ∧
      ∀ t : InferenceTask, t.requirementSignature = task.requirementSignature →
        matchesHardware t e.gpuName e.gpuVram = true := by
  intro e he
  unfold MatchingRound.candidates at he
  split at he
  · next set hset =>
    obtain ⟨l1, l2, hsets, -⟩ := lookup_eq_some_iff.1 hset
    refine h.sets (task.requirementSignature, set) ?_ e he
    rw [hsets]
    exact mem_append_right _ mem_cons_self
  · have hhard := mem_filter.1 (mem_filter.1 (mem_filter.1 he).1).1
    simp only [Bool.and_eq_true] at hhard
    refine ⟨hhard.1, fun t ht => ?_⟩
    rw [matchesHardware_congr ht]
    exact hhard.2.2

lemma RoundInv.matchTask (h : RoundInv db r) (env : Env) (policy : NodeNamePolicy)
    (htask : SameRequirements db task) (draw : Nat) :
    RoundInv db (r.matchTask env policy task draw) := by
  unfold MatchingRound.matchTask
  split
  · exact h
  · have hset := h.candidates env policy task
    refine ⟨h.entries, h.tasks, fun p hp => ?_, fun p hp => ?_⟩
    · rcases mem_cons.1 hp with rfl | hp
      · exact hset
      · exact h.sets p hp
    · dsimp only at hp
      split at hp
      · next e hdraw =>
        rcases mem_append.1 hp with hp | hp
        · exact h.pairs p hp
        · rw [mem_singleton.1 hp]
          obtain ⟨hmem, hhard⟩ := hset e (mem_filter.1 (mem_of_getElem? hdraw)).1
          exact ⟨htask, e, hmem, rfl, hhard task rfl⟩
      · exact h.pairs p hp

end

/-! ## steps -/

/-- the assumption on a step: a node in the view of the round reports the hardware that the view shows,
and a view is taken of an index that shows the persisted hardware. -/
def MatchOp.Orderly (s : MatchState) : MatchOp → Prop
  | .relay (.request (.join _ input)) _ => ∀ r, s.round = some r → ∀ e ∈ r.entries,
      e.address = input.address → input.gpuName = e.gpuName ∧ input.gpuVram = e.gpuVram
  | .relay (.request (.syncCapabilities _ address c)) _ => ∀ r, s.round = some r → ∀ e ∈ r.entries,
      e.address = address → c.gpuName = e.gpuName ∧ c.gpuVram = e.gpuVram
  | .snapshot => ∀ e ∈ s.index, ShowsHardware s.relay.world.db e
  | _ => True

lemma relay_matchInv {hop : op.startsTask = false} (h : MatchInv s)
    (hord : (relay op hop).Orderly s) : MatchInv ((relay op hop).exec s) := by
  intro r hr
  have hr' : s.round = some r := hr
  by_cases hreport : ∃ req, op = .request req ∧ req.isReport = true
  · obtain ⟨req, rfl, hreq⟩ := hreport
    obtain ⟨htasks, hrows⟩ := report_rows hreq s.relay.world
    refine (h r hr').transfer (fun e he hshows n' hn' => ?_) fun t ht => ?_
    · rcases hrows e.address n' hn' with hn | hrep
      · exact hshows n' hn
      cases req with
      | join env input | syncCapabilities env address c =>
        obtain ⟨ha, hname, hvram, -⟩ := hrep
        rw [hname, hvram]
        exact hord r hr' e he ha
      | _ => cases hreq
    · obtain ⟨row, hrow, hsig⟩ := ht
      exact ⟨row, (congrArg (Table.get · _) htasks).trans hrow, hsig⟩
  · refine (h r hr').frame (rowFrame_relayOp s.relay.flights (fun req hreq => ?_) (.inr hop : False ∨ _) _)
    rw [← Bool.not_eq_true]
    exact fun ht => hreport ⟨req, hreq, ht⟩

lemma step_matchInv (s : MatchState) (op : MatchOp) (h : MatchInv s) (hord : op.Orderly s) :
    MatchInv (op.exec s) := by
  cases op with
  | relay op hop => exact relay_matchInv h hord
  | refresh address => exact h
  | snapshot =>
    intro r hr
    cases hr
    exact ⟨hord, (fun t ht => nomatch ht), (fun p hp => nomatch hp), fun p hp => nomatch hp⟩
  | fetch c =>
    intro r hr
    obtain ⟨r0, hr0, rfl⟩ := map_eq_some_iff.1 hr
    exact (h r0 hr0).fetch c
  | matchTask env policy i draw =>
    intro r hr
    obtain ⟨r0, hr0, rfl⟩ := map_eq_some_iff.1 hr
    show RoundInv s.relay.world.db _
    split
    · next task htask =>
      exact (h r0 hr0).matchTask env policy ((h r0 hr0).tasks task (mem_of_getElem? htask)) draw
    · exact h r0 hr0
  | start env i =>
    rw [exec]
    split
    · next pair hpair =>
      intro r hr
      have hf : Tx.Keeps (MoveFrame (fun _ => True) True)
          (setTaskStatusStarted env pair.task pair.nodeAddress) :=
        moves_setTaskStatusStarted env pair.task pair.nodeAddress
      exact (h r hr).frame (hf _).rowFrame
    · exact h

lemma RowFrame.startsFit {op : MatchOp} (h : RowFrame False s.relay.world (op.exec s).relay.world) :
    StartsFit s op := by
  intro c t' ht' hst hnot
  rcases h.started c t' ht' hst with hf | ⟨t, ht, hst'⟩
  · cases hf
  · exact absurd hst' (hnot t ht)

lemma step_startsFit (s : MatchState) (op : MatchOp) (h : MatchInv s) (hord : op.Orderly s) :
    StartsFit s op := by
  cases op with
  | relay op hop =>
    by_cases hreport : ∃ req, op = .request req ∧ req.isReport = true
    · obtain ⟨req, rfl, hreq⟩ := hreport
      intro c t' ht' hst hnot
      have htasks := (report_rows hreq s.relay.world).1
      change (req.exec s.relay.world).db.tasks.get c = some t' at ht'
      rw [htasks] at ht'
      exact absurd hst (hnot t' ht')
    · refine RowFrame.startsFit (rowFrame_relayOp s.relay.flights (fun req hreq => ?_) (.inr hop) _)
      rw [← Bool.not_eq_true]
      exact fun ht => hreport ⟨req, hreq, ht⟩
  | start env i =>
    unfold StartsFit
    rw [exec]
    split
    · next pair hpair =>
      obtain ⟨r, hr, hpair⟩ := bind_eq_some_iff.1 hpair
      obtain ⟨hreq, e, hmem, haddr, hhard⟩ := (h r hr).pairs pair (mem_of_getElem? hpair)
      have hhard : ∀ n, s.relay.world.db.nodes.get pair.nodeAddress = some n →
          matchesHardware pair.task n.gpuName n.gpuVram = true := by
        intro n hn
        obtain ⟨hname, hvram⟩ := (h r hr).entries e hmem n (haddr ▸ hn)
        rwa [hname, hvram]
      intro c t' ht' hst hnot
      rcases Tx.ok_or_fails (startMatchedPair env pair) s.relay.world with ⟨u, hok⟩ | ⟨e, hfail⟩
      · obtain ⟨hothers, hfits⟩ := startMatchedPair_fits hok hreq hhard
        by_cases hc : c = pair.task.taskIDCommitment
        · subst hc
          exact hfits t' ht'
        · exact absurd hst (hnot t' (hothers c hc ▸ ht'))
      · -- a failed start is rolled back
        have hdb := (Tx.KeptOnFail.onFail (r := Undone) (x := setTaskStatusStarted env pair.task pair.nodeAddress) _ e _ hfail).db
        change (Tx.after (startMatchedPair env pair) s.relay.world).db.tasks.get c = some t' at ht'
        rw [hdb] at ht'
        exact absurd hst (hnot t' ht')
    · exact fun c t' ht' hst hnot => absurd hst (hnot t' ht')
  | _ => exact RowFrame.startsFit (rowFrame_of_eq rfl rfl)

/-- **every start fits.**  From any state between two rounds: when no node in the view of a round
reports other hardware than the view shows, and every view is taken of an index that shows the
persisted hardware, every task that becomes started is on a node that meets all its requirements. -/
theorem run_startsFit (ops : List MatchOp) (s : MatchState) (hidle : s.round = none)
    (h : Along MatchOp.exec (fun s op => op.Orderly s) ops s) : Along MatchOp.exec StartsFit ops s :=
  Along.of_invariant step_matchInv step_startsFit ops s h fun r hr => by
    rw [hidle] at hr
    cases hr

/-! ## runs -/

def gpuNode (g : Text) : Node :=
  { address := "node".toList, status := .available, gpuName := g, gpuVram := 24 }

def gpuTask (g : Text) : InferenceTask :=
  { taskIDCommitment := "c".toList, creator := "u".toList, taskFee := 3, requiredGPU := g,
    requiredGPUVRAM := 24 }

def matchStart : MatchState where
  relay :=
    { world :=
        ⟨{ tasks := Table.empty.insert (gpuTask "X+Linux".toList)
           nodes := Table.empty.insert (gpuNode "X+Linux".toList)
           nodeNameCounts := Tally.inc (fun _ => none) (gpuNode "X+Linux".toList).name }, {}⟩
      flights := [] }
  index := [buildNodeIndexEntry (gpuNode "X+Linux".toList) []]

/-- the node reports the GPU `g` and a newer version between the match and the start. -/
def matchRun (g : Text) : List MatchOp :=
  [.snapshot, .fetch "c".toList, .matchTask {} {} 0 0,
    .relay (.request (.syncCapabilities {} "node".toList
      { gpuName := g, gpuVram := 24, version := "0.1.0".toList, modelFiles := [] })) rfl,
    .start {} 0]

lemma matchRun_orderly :
    Along exec (fun s op => op.Orderly s) (matchRun "X+Linux".toList) matchStart := by
  refine ⟨fun e he => ?_, trivial, trivial, fun r hr e he _ => ?_, trivial, trivial⟩
  · rw [mem_singleton.1 he]
    intro n hn
    cases hn
    exact ⟨rfl, rfl⟩
  · cases hr
    rw [mem_singleton.1 he]
    exact ⟨rfl, rfl⟩

theorem run_startsFit_at_orderly :
    Along MatchOp.exec StartsFit (matchRun "X+Linux".toList) matchStart ∧
      ((run MatchOp.exec (matchRun "X+Linux".toList) matchStart).relay.world.db.tasks.get
        "c".toList).map (·.status) = some .started :=
  ⟨run_startsFit (matchRun "X+Linux".toList) matchStart rfl matchRun_orderly, by decide +kernel⟩

/-- **a start on other hardware**: the node reports another GPU after the match, and the task for the old
GPU is started on it. -/
theorem start_on_changed_hardware :
    ¬ Along MatchOp.exec StartsFit (matchRun "Y+Darwin".toList) matchStart := by
  rintro ⟨-, -, -, -, h, -⟩
  obtain ⟨node, hnode, hmeets⟩ := h "c".toList _ rfl rfl fun t ht hst => by
    cases ht
    cases hst
  cases hnode
  revert hmeets
  decide +kernel

end CrynuxRelay
