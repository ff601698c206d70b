import CrynuxRelay.Staking.Operations

/-!
# Replays of the delegated-staking logs of a block

A block whose processing fails is processed again from its first log, and the handlers that have
committed run once more.

* `KeyOp`, `keyOps`, `rowRun` -- the logs of a block as they concern one delegation;
* `rowRun_replay` -- one delegation: a replay after a prefix goes through exactly when the prefix does
  not begin with a slash, or ends with a stake, and then it ends as a single pass does;
* `passed_of_true`, `failed_of_false` -- a pass over a block, delegation by delegation;
* `replay_converges_iff` -- when a replay succeeds and leaves what a single pass leaves.
-/

namespace CrynuxRelay

open List Option Table DelegatedStakingSlashRecord

variable {b' : Bool} {d n : Text} {k : Text × Text × Nat} {staked : Text → Text → Bool}
  {o : KeyOp} {row : Option Delegation} {b : Bool} {ops : List KeyOp} {records : Table key}

/-! ## one delegation -/

inductive KeyOp
  | stake (amount : Int)
  | unstake
  | slash (amount : Int)
  deriving DecidableEq

def DelegatedStakingLog.op (d n : Text) : DelegatedStakingLog → Option KeyOp
  | delegatorStaked d' n' x => if d' = d ∧ n' = n then some (.stake x) else none
  | delegatorUnstaked d' n' => if d' = d ∧ n' = n then some .unstake else none
  | nodeDelegatorShareChanged _ _ => none
  | delegatorSlashed d' n' x _ _ _ => if d' = d ∧ n' = n then some (.slash x) else none

def keyOps (d n : Text) (logs : List DelegatedStakingLog) : List KeyOp :=
  logs.filterMap (DelegatedStakingLog.op d n)

def Live (row : Option Delegation) : Prop := ∃ r, row = some r ∧ r.slashed = false

instance (row : Option Delegation) : Decidable (Live row) :=
  match row with
  | none => isFalse fun ⟨_, h, _⟩ => absurd h (Option.some_ne_none _).symm
  | some r =>
    if h : r.slashed = false then isTrue ⟨r, rfl, h⟩
    else isFalse fun ⟨_, h', hs⟩ => h ((Option.some.inj h') ▸ hs)

section key
variable {network : Text}

/-- the row of a delegation to a known node after an operation; a slash needs a live row. -/
def KeyOp.step (network d n : Text) : KeyOp → Option Delegation → Option (Option Delegation)
  | stake x, _ => some (some ⟨d, n, network, x, false⟩)
  | unstake, row => some (if Live row then none else row)
  | slash x, row => if Live row then some (some ⟨d, n, network, x, true⟩) else none

def rowRun (network d n : Text) : List KeyOp → Option Delegation → Option (Option Delegation)
  | [], row => some row
  | o :: ops, row => (o.step network d n row).bind (rowRun network d n ops)

/-- the contract: unstake and slash need a stake. -/
def KeyOp.legal : KeyOp → Bool → Option Bool
  | stake _, _ => some true
  | unstake, staked | slash _, staked => if staked then some false else none

def legalRun : List KeyOp → Bool → Option Bool
  | [], staked => some staked
  | o :: ops, staked => (o.legal staked).bind (legalRun ops)

lemma rowRun_append (ops ops' : List KeyOp) (row : Option Delegation) :
    rowRun network d n (ops ++ ops') row =
      (rowRun network d n ops row).bind (rowRun network d n ops') := by
  induction ops generalizing row with
  | nil => rfl
  | cons o ops ih =>
    show (o.step network d n row).bind (rowRun network d n (ops ++ ops')) = _
    cases ho : o.step network d n row with
    | none => simp [rowRun, ho]
    | some row' => simp [rowRun, ho, ih]

lemma legalRun_append (ops ops' : List KeyOp) (b : Bool) :
    legalRun (ops ++ ops') b = (legalRun ops b).bind (legalRun ops') := by
  induction ops generalizing b with
  | nil => rfl
  | cons o ops ih =>
    show (o.legal b).bind (legalRun (ops ++ ops')) = _
    cases ho : o.legal b with
    | none => simp [legalRun, ho]
    | some b' => simp [legalRun, ho, ih]

/-- a legal step goes through, a slash if the row is live; and a stake leaves a live row. -/
lemma KeyOp.step_of_legal (hrow : ∀ x, o = .slash x → Live row) (h : o.legal b = some b') :
    ∃ row', o.step network d n row = some row' ∧ (b' = true → Live row') := by
  cases o with
  | stake x => exact ⟨_, rfl, fun _ => ⟨_, rfl, rfl⟩⟩
  | unstake =>
    cases b with
    | false => exact nomatch h
    | true =>
      cases h
      exact ⟨_, rfl, fun h => nomatch h⟩
  | slash x =>
    cases b with
    | false => exact nomatch h
    | true =>
      cases h
      exact ⟨_, if_pos (hrow x rfl), fun h => nomatch h⟩

/-- operations that the contract admits go through, if a slash that comes first meets a live row. -/
lemma rowRun_of_legal (hrow : ∀ x, ops.head? = some (.slash x) → Live row) (h : legalRun ops b = some b') :
    ∃ row', rowRun network d n ops row = some row' := by
  induction ops generalizing row b with
  | nil => exact ⟨row, rfl⟩
  | cons o ops ih =>
    obtain ⟨b1, ho, h⟩ := bind_eq_some_iff.1 h
    obtain ⟨row1, hstep, hlive⟩ : ∃ row1, o.step network d n row = some row1 ∧ (b1 = true → Live row1) :=
      KeyOp.step_of_legal (fun x hx => hrow x (congrArg some hx)) ho
    have hhead : ∀ x, ops.head? = some (.slash x) → Live row1 := by
      -- the contract admits a slash after a stake only
      intro x hx
      obtain ⟨ops, rfl⟩ := head?_eq_some_iff.1 hx
      cases b1 with
      | true => exact hlive rfl
      | false => exact nomatch h
    obtain ⟨row', hrun⟩ := ih hhead h
    exact ⟨row', by rw [rowRun, hstep]; exact hrun⟩

lemma live_of_getLast {row' : Option Delegation} (h : rowRun network d n ops row = some row')
    (hl : ops.getLast? = some o) : Live row' ↔ ∃ x, o = .stake x := by
  obtain ⟨ops, rfl⟩ : ∃ l, ops = l ++ [o] := ⟨ops.dropLast, (dropLast_append_getLast? o hl).symm⟩
  rw [rowRun_append] at h
  obtain ⟨row1, _, h⟩ := bind_eq_some_iff.1 h
  obtain ⟨row2, h, h'⟩ := bind_eq_some_iff.1 h
  cases h'
  cases o with
  | stake x =>
    cases h
    exact ⟨fun _ => ⟨x, rfl⟩, fun _ => ⟨_, rfl, rfl⟩⟩
  | unstake =>
    refine ⟨fun hl => ?_, fun ⟨x, hx⟩ => nomatch hx⟩
    rw [KeyOp.step, some.injEq] at h
    by_cases hr : Live row1
    · rw [if_pos hr] at h
      rw [← h] at hl
      obtain ⟨_, h, _⟩ := hl
      exact absurd h (some_ne_none _).symm
    · rw [if_neg hr] at h
      exact absurd (h ▸ hl) hr
  | slash x =>
    refine ⟨fun ⟨r, hr, hs⟩ => ?_, fun ⟨x, hx⟩ => nomatch hx⟩
    rw [KeyOp.step] at h
    split at h
    · cases h
      cases hr
      exact nomatch hs
    · exact nomatch h

/-- what has been committed of a delegation can be replayed: it does not begin with a slash, or the
delegation has been staked again since. -/
def Replayable (ops : List KeyOp) : Prop :=
  (∃ x, ops.head? = some (.slash x)) → ∃ x, ops.getLast? = some (.stake x)

/-- **a replay of one delegation**, after the operations `ops` of a block `ops ++ ops'`. -/
theorem rowRun_replay {ops' : List KeyOp} {row1 row2 : Option Delegation}
    (hlegal : (legalRun (ops ++ ops') b).isSome) (h1 : rowRun network d n ops row = some row1)
    (h2 : rowRun network d n (ops ++ ops') row = some row2) :
    (Replayable ops → rowRun network d n (ops ++ ops') row1 = some row2) ∧
      (¬ Replayable ops → rowRun network d n (ops ++ ops') row1 = none) := by
  cases ops with
  | nil =>
    cases h1
    exact ⟨fun _ => h2, fun hn => absurd (fun ⟨x, hx⟩ => nomatch hx) hn⟩
  | cons o ops =>
    rw [cons_append, rowRun] at h2 ⊢
    cases o with
    | stake x => exact ⟨fun _ => h2, fun hn => absurd (fun ⟨y, hy⟩ => nomatch hy) hn⟩
    | unstake =>
      refine ⟨fun _ => ?_, fun hn => absurd (fun ⟨y, hy⟩ => nomatch hy) hn⟩
      cases b with
      | false => exact nomatch hlegal
      | true =>
        -- the next operation, if there is one, is a stake, which does not read the row
        cases hrest : ops ++ ops' with
        | nil =>
          obtain ⟨rfl, rfl⟩ := append_eq_nil_iff.1 hrest
          have h2 : rowRun network d n [.unstake] row = some row2 := h2
          obtain rfl : row1 = row2 := some.inj (h1.symm.trans h2)
          have hdead : ¬ Live row1 := (live_of_getLast h1 rfl).not.2 fun ⟨x, hx⟩ => nomatch hx
          rw [KeyOp.step, if_neg hdead]
          rfl
        | cons o ops =>
          rw [hrest] at h2
          rw [cons_append, hrest] at hlegal
          cases o with
          | stake x => exact h2
          | _ => exact nomatch hlegal
    | slash x =>
      obtain ⟨o, ho⟩ : ∃ o, (KeyOp.slash x :: ops).getLast? = some o :=
        ⟨_, getLast?_eq_some_getLast (cons_ne_nil _ _)⟩
      have hlive := live_of_getLast h1 ho
      have hrow : Live row := by
        by_contra hdead
        rw [KeyOp.step, if_neg hdead] at h2
        exact nomatch h2
      rw [KeyOp.step, if_pos hrow] at h2
      constructor
      · intro hr
        obtain ⟨y, hy⟩ := hr ⟨x, rfl⟩
        rw [ho] at hy
        rwa [KeyOp.step, if_pos (hlive.2 ⟨y, some.inj hy⟩)]
      · intro hn
        have hdead : ¬ Live row1 := by
          intro hl
          obtain ⟨y, hy⟩ := hlive.1 hl
          exact hn fun _ => ⟨y, by rw [ho, hy]⟩
        rw [KeyOp.step, if_neg hdead]
        rfl

end key

/-! ## one handler -/

section handlers
variable {s s' : StakingState} {network : Text} {log : DelegatedStakingLog}
  {logs : List DelegatedStakingLog}

def StakingState.rowOf (s : StakingState) (network d n : Text) : Option Delegation :=
  s.delegations.get (d, n, network)

lemma live_iff : Live (s.rowOf network d n) ↔ (liveAmount s.delegations network d n).isSome := by
  rw [isSome_iff_exists]
  constructor
  · rintro ⟨r, hr, hs⟩
    exact ⟨r.amount, liveAmount_eq_some.2 ⟨r, hr, hs, rfl⟩⟩
  · rintro ⟨x, hx⟩
    obtain ⟨r, hr, hs, _⟩ := liveAmount_eq_some.1 hx
    exact ⟨r, hr, hs⟩

def addRecord (s : StakingState) (network : Text) (records : Table DelegatedStakingSlashRecord.key) :
    DelegatedStakingLog → Table DelegatedStakingSlashRecord.key
  | .delegatorSlashed d n x txHash blockNumber logIndex =>
    records.insert (slashRecordOf s network d n x txHash blockNumber logIndex)
  | _ => records

/-- the row of a delegation after the operations of a list of logs; `ops` are those that concern it. -/
structure Passed (network : Text) (s s' : StakingState) (ops : Text → Text → List KeyOp)
    (records : Table DelegatedStakingSlashRecord.key) : Prop where
  inv : StakingInv s'
  networks : s'.networks = s.networks
  jobs : s'.slashJobs = s.slashJobs
  known : ∀ a, (s'.nodes.get a).isSome = (s.nodes.get a).isSome
  row : ∀ d n, (s.nodes.get n).isSome →
    rowRun network d n (ops d n) (s.rowOf network d n) = some (s'.rowOf network d n)
  unknown : ∀ d n, s.nodes.get n = none → s.rowOf network d n = none →
    s'.rowOf network d n = none ∧ ∀ x, KeyOp.slash x ∉ ops d n
  other : ∀ d n net, net ≠ network → s'.rowOf net d n = s.rowOf net d n
  records : s'.slashRecords = records

lemma Passed.unknown_iff {ops : Text → Text → List KeyOp} (h : Passed network s s' ops records) :
    s'.nodes.get n = none ↔ s.nodes.get n = none := by
  rw [← isNone_iff_eq_none, ← isNone_iff_eq_none, ← not_isSome, ← not_isSome, h.known]

lemma passed_write (hop : ∀ d' n', log.op d' n' = if d = d' ∧ n = n' then some o else none)
    (hinv : StakingInv s') (hnw : s'.networks = s.networks) (hjobs : s'.slashJobs = s.slashJobs)
    (hnodes : s'.nodes = s.nodes) (hself : s'.rowOf network d n = row)
    (hrest : ∀ d' n' net, (d', n', net) ≠ (d, n, network) → s'.rowOf net d' n' = s.rowOf net d' n')
    (hstep : (s.nodes.get n).isSome → o.step network d n (s.rowOf network d n) = some row)
    (hunknown : s.nodes.get n = none → s.rowOf network d n = none → row = none ∧ ∀ x, o ≠ .slash x)
    (hrec : s'.slashRecords = records) :
    Passed network s s' (fun d n => keyOps d n [log]) records := by
  have hops : keyOps d n [log] = [o] := by simp [keyOps, hop]
  have hother : ∀ d' n', (d = d' ∧ n = n') ∨
      (keyOps d' n' [log] = [] ∧ s'.rowOf network d' n' = s.rowOf network d' n') := by
    intro d' n'
    by_cases he : d = d' ∧ n = n'
    · exact .inl he
    · refine .inr ⟨by simp [keyOps, hop, he], hrest d' n' network fun e => he ?_⟩
      simp only [Prod.mk.injEq] at e
      exact ⟨e.1.symm, e.2.1.symm⟩
  refine ⟨hinv, hnw, hjobs, fun a => by rw [hnodes], fun d' n' hk => ?_, fun d' n' hn hr => ?_,
    fun d' n' net hne => ?_, hrec⟩
  · rcases hother d' n' with ⟨rfl, rfl⟩ | ⟨hnil, hrow⟩
    · rw [hops, rowRun, hstep hk, hself]
      rfl
    · rw [hnil, rowRun, hrow]
  · rcases hother d' n' with ⟨rfl, rfl⟩ | ⟨hnil, hrow⟩
    · obtain ⟨h1, h2⟩ := hunknown hn hr
      rw [hself, hops]
      exact ⟨h1, fun x hx => h2 x (mem_singleton.1 hx).symm⟩
    · rw [hnil, hrow]
      exact ⟨hr, fun x => not_mem_nil⟩
  · refine hrest d' n' net fun e => ?_
    simp only [Prod.mk.injEq] at e
    exact hne e.2.2

lemma not_live_none : ¬ Live none := fun ⟨_, h, _⟩ => absurd h (some_ne_none _).symm

/-- one handler: it passes, or it is a slash of a delegation that is not live. -/
lemma handle_passed (h : StakingInv s) (hnet : network ∈ s.networks) (log : DelegatedStakingLog) :
    (∃ s', log.handle network s = .ok s' ∧
      Passed network s s' (fun d n => keyOps d n [log]) (addRecord s network s.slashRecords log)) ∨
    (∃ e d n x, log.handle network s = .error e ∧ log.op d n = some (.slash x) ∧
      ¬ Live (s.rowOf network d n)) := by
  have hput : ∀ (r : Delegation) d' n' net, (d', n', net) ≠ r.key →
      (s.delegations.put r).get (d', n', net) = s.rowOf net d' n' := by
    intro r d' n' net hne
    rw [get_put, if_neg hne]
    rfl
  cases log with
  | delegatorStaked d n x =>
    rcases updateDelegatedStaking_spec h hnet d n x with ⟨hn, he⟩ | ⟨hn, caches, he, hinv⟩
    · refine Or.inl ⟨s, he, passed_write (d := d) (n := n) (o := .stake x) (fun _ _ => rfl) h rfl rfl
        rfl rfl (fun _ _ _ _ => rfl) (fun hk => ?_) (fun _ hr => ⟨hr, fun y hy => nomatch hy⟩) rfl⟩
      rw [hn] at hk
      exact absurd hk Bool.false_ne_true
    · refine Or.inl ⟨_, he, passed_write (d := d) (n := n) (o := .stake x) (fun _ _ => rfl) hinv rfl
        rfl rfl (get_put .. |>.trans (if_pos rfl)) (hput ⟨d, n, network, x, false⟩)
        (fun _ => rfl) (fun hk _ => ?_) rfl⟩
      rw [hk] at hn
      exact absurd hn Bool.false_ne_true
  | delegatorUnstaked d n =>
    rcases unstakeDelegatedStaking_spec h hnet d n with ⟨hno, he⟩ | ⟨hn, hl, caches, he, hinv⟩
    · refine Or.inl ⟨s, he, passed_write (d := d) (n := n) (o := .unstake) (fun _ _ => rfl) h rfl rfl
        rfl rfl (fun _ _ _ _ => rfl) (fun hk => ?_) (fun _ hr => ⟨hr, fun y hy => nomatch hy⟩) rfl⟩
      have hdead : ¬ Live (s.rowOf network d n) := by
        intro hlive
        rcases hno with hno | hno
        · rw [hno] at hk
          exact Bool.false_ne_true hk
        · have := live_iff.1 hlive
          rw [hno] at this
          exact Bool.false_ne_true this
      rw [KeyOp.step, if_neg hdead]
    · refine Or.inl ⟨_, he, passed_write (d := d) (n := n) (o := .unstake)
        (fun _ _ => rfl) hinv rfl rfl rfl (get_erase .. |>.trans (if_pos rfl)) ?_ (fun _ => ?_)
        (fun _ _ => ⟨rfl, fun y hy => nomatch hy⟩) rfl⟩
      · intro d' n' net hne
        exact (get_erase ..).trans (if_neg hne)
      · rw [KeyOp.step, if_pos (live_iff.2 hl)]
  | nodeDelegatorShareChanged n share =>
    obtain ⟨nodes, shares, he, hk⟩ := changeNodeDelegatorShare_spec s network n share
    refine Or.inl ⟨_, he, ⟨h.configured, h.exact⟩, rfl, rfl, hk, fun d n _ => rfl, ?_, fun _ _ _ _ => rfl,
      rfl⟩
    exact fun d n _ hr => ⟨hr, fun x => not_mem_nil⟩
  | delegatorSlashed d n x txHash blockNumber logIndex =>
    rcases slashDelegatedStaking_spec h hnet d n x txHash blockNumber logIndex with
      ⟨hno, he⟩ | ⟨hl, caches, he, hinv⟩
    · refine Or.inr ⟨_, d, n, x, he, if_pos ⟨rfl, rfl⟩, fun hlive => ?_⟩
      have := live_iff.1 hlive
      rw [hno] at this
      exact Bool.false_ne_true this
    · refine Or.inl ⟨_, he, passed_write (d := d) (n := n) (o := .slash x) (fun _ _ => rfl) hinv rfl
        rfl rfl (get_put .. |>.trans (if_pos rfl)) (hput ⟨d, n, network, x, true⟩)
        (fun _ => ?_) (fun _ hr => ?_) rfl⟩
      · rw [KeyOp.step, if_pos (live_iff.2 hl)]
      · exact absurd (hr ▸ live_iff.2 hl : Live none) not_live_none

lemma keyOps_append (d n : Text) (logs logs' : List DelegatedStakingLog) :
    keyOps d n (logs ++ logs') = keyOps d n logs ++ keyOps d n logs' := filterMap_append

/-! ## one pass -/

lemma addRecord_congr (h : s'.slashJobs = s.slashJobs) :
    addRecord s' network = addRecord s network := by
  funext records log
  unfold addRecord slashRecordOf StakingState.getUnfinishedDelegatedSlashJob
  rw [h]

lemma passed_of_true (h : StakingInv s) (hnet : network ∈ s.networks)
    (hp : processDelegatedStakingReceiptLogs network logs s = (s', true)) :
    Passed network s s' (fun d n => keyOps d n logs)
      (logs.foldl (addRecord s network) s.slashRecords) := by
  induction logs generalizing s with
  | nil =>
    cases hp
    exact ⟨h, rfl, rfl, fun _ => rfl, fun _ _ _ => rfl, fun _ _ _ hr => ⟨hr, fun _ => not_mem_nil⟩,
      fun _ _ _ _ => rfl, rfl⟩
  | cons log logs ih =>
    rw [processDelegatedStakingReceiptLogs] at hp
    rcases handle_passed h hnet log with ⟨s1, he, hs1⟩ | ⟨e, _, _, _, he, _⟩
    · rw [he] at hp
      have hs' := ih hs1.inv (hs1.networks ▸ hnet) hp
      refine ⟨hs'.inv, hs'.networks.trans hs1.networks, hs'.jobs.trans hs1.jobs,
        fun a => (hs'.known a).trans (hs1.known a), fun d n hk => ?_, fun d n hn hr => ?_,
        fun d n net hne => (hs'.other d n net hne).trans (hs1.other d n net hne), ?_⟩
      · rw [show log :: logs = [log] ++ logs from rfl, keyOps_append, rowRun_append, hs1.row d n hk,
          bind_some]
        exact hs'.row d n ((hs1.known n).trans hk)
      · obtain ⟨hr1, hno1⟩ := hs1.unknown d n hn hr
        obtain ⟨hr', hno'⟩ := hs'.unknown d n (hs1.unknown_iff.2 hn) hr1
        refine ⟨hr', fun x hx => ?_⟩
        rw [show log :: logs = [log] ++ logs from rfl, keyOps_append] at hx
        rcases mem_append.1 hx with hx | hx
        · exact hno1 x hx
        · exact hno' x hx
      · rw [hs'.records, hs1.records, addRecord_congr hs1.jobs]
        rfl
    · rw [he] at hp
      exact absurd (congrArg Prod.snd hp) Bool.false_ne_true

lemma failed_of_false (h : StakingInv s) (hnet : network ∈ s.networks)
    (hp : (processDelegatedStakingReceiptLogs network logs s).2 = false) :
    ∃ d n, (s.nodes.get n = none ∧ ∃ x, KeyOp.slash x ∈ keyOps d n logs) ∨ ((s.nodes.get n).isSome ∧
        rowRun network d n (keyOps d n logs) (s.rowOf network d n) = none) := by
  induction logs generalizing s with
  | nil => exact absurd hp (fun h => nomatch h)
  | cons log logs ih =>
    rw [processDelegatedStakingReceiptLogs] at hp
    rcases handle_passed h hnet log with ⟨s1, he, hs1⟩ | ⟨e, d, n, x, he, hop, hdead⟩
    · rw [he] at hp
      obtain ⟨d, n, hdn⟩ := ih hs1.inv (hs1.networks ▸ hnet) hp
      refine ⟨d, n, ?_⟩
      rw [show log :: logs = [log] ++ logs from rfl, keyOps_append]
      rcases hdn with ⟨hn, x, hx⟩ | ⟨hk, hnone⟩
      · exact Or.inl ⟨hs1.unknown_iff.1 hn, x, mem_append_right _ hx⟩
      · have hk : (s.nodes.get n).isSome := (hs1.known n).symm.trans hk
        refine Or.inr ⟨hk, ?_⟩
        rwa [rowRun_append, hs1.row d n hk, bind_some]
    · refine ⟨d, n, ?_⟩
      have hops : keyOps d n (log :: logs) = .slash x :: keyOps d n logs :=
        filterMap_cons_some hop
      rw [hops]
      cases hn : s.nodes.get n with
      | none => exact Or.inl ⟨rfl, x, mem_cons_self ..⟩
      | some node =>
        refine Or.inr ⟨rfl, ?_⟩
        rw [rowRun, KeyOp.step, if_neg hdead]
        rfl

/-! ## records -/

lemma insert_present {t : Table key} {r : DelegatedStakingSlashRecord}
    (h : (t.get r.key).isSome) : t.insert r = t := dif_pos h

lemma get_insert_isSome (t : Table key) (r : DelegatedStakingSlashRecord) (k : Text × Text × Nat) :
    ((t.insert r).get k).isSome ↔ k = r.key ∨ (t.get k).isSome := by
  cases hr : t.get r.key with
  | some r' =>
    rw [insert_present (by rw [hr]; rfl)]
    refine ⟨Or.inr, fun h => h.elim (fun e => ?_) id⟩
    rw [e, hr]
    rfl
  | none =>
    rw [get_insert t r k hr]
    by_cases hk : k = r.key <;> simp [hk]

lemma foldl_addRecord_mono (logs : List DelegatedStakingLog) (records : Table key)
    (h : (records.get k).isSome) : ((logs.foldl (addRecord s network) records).get k).isSome := by
  induction logs generalizing records with
  | nil => exact h
  | cons log logs ih =>
    refine ih _ ?_
    cases log with
    | delegatorSlashed d n x txHash blockNumber logIndex => exact (get_insert_isSome ..).2 (Or.inr h)
    | _ => exact h

lemma foldl_addRecord_again (logs : List DelegatedStakingLog) (records : Table key)
    (h : ∀ log ∈ logs, addRecord s network records log = records) :
    logs.foldl (addRecord s network) records = records := by
  induction logs with
  | nil => rfl
  | cons log logs ih =>
    rw [foldl_cons, h log (mem_cons_self ..)]
    exact ih fun log hlog => h log (mem_cons_of_mem _ hlog)

lemma addRecord_handled (logs : List DelegatedStakingLog) (records : Table key) (hlog : log ∈ logs) :
    addRecord s network (logs.foldl (addRecord s network) records) log =
      logs.foldl (addRecord s network) records := by
  cases log with
  | delegatorSlashed d n x txHash blockNumber logIndex =>
    refine insert_present ?_
    obtain ⟨l, l', rfl⟩ := append_of_mem hlog
    rw [foldl_append, foldl_cons]
    refine foldl_addRecord_mono l' _ ?_
    exact (get_insert_isSome ..).2 (Or.inl rfl)
  | _ => rfl

/-! ## replays -/

/-- the same delegations, slash records and caches; the caches as their readers see them. -/
structure SameStaking (s s' : StakingState) : Prop where
  delegations : ∀ k, s.delegations.get k = s'.delegations.get k
  records : s.slashRecords = s'.slashRecords
  caches : ∀ net ∈ s.networks, ∃ c c', s.caches net = some c ∧ s'.caches net = some c' ∧
    (∀ n d, c.nodeDelegations.lookup n d = c'.nodeDelegations.lookup n d) ∧
    (∀ d n, c.userDelegations.lookup d n = c'.userDelegations.lookup d n) ∧
    (∀ n, c.getNodeTotalStakeAmount n = c'.getNodeTotalStakeAmount n) ∧
    ∀ d, c.getDelegatorTotalStakeAmount d = c'.getDelegatorTotalStakeAmount d

lemma SameStaking.of_rows (h : StakingInv s) (h' : StakingInv s') (hnw : s'.networks = s.networks)
    (hd : ∀ k, s.delegations.get k = s'.delegations.get k) (hr : s.slashRecords = s'.slashRecords) :
    SameStaking s s' where
  delegations := hd
  records := hr
  caches := by
    intro net hnet
    obtain ⟨c, hc, h1, h2, h3, h4⟩ := h.mirrors net hnet
    obtain ⟨c', hc', h1', h2', h3', h4'⟩ := h'.mirrors net (hnw ▸ hnet)
    have hlive : ∀ d n, liveAmount s.delegations net d n = liveAmount s'.delegations net d n := by
      intro d n
      unfold liveAmount
      rw [hd]
    refine ⟨c, c', hc, hc', fun n d => ?_, fun d n => ?_, fun n => ?_, fun d => ?_⟩
    · rw [h1, h1', hlive]
    · rw [h2, h2', hlive]
    · rw [h3, h3']
      exact total_eq_of_get hd _
    · rw [h4, h4']
      exact total_eq_of_get hd _

/-- the contract admits the logs of a block after the stakes `staked`, and the relay has no row for a
delegation to a node that it does not know. -/
structure LegalBlock (network : Text) (staked : Text → Text → Bool) (s : StakingState)
    (logs : List DelegatedStakingLog) : Prop where
  legal : ∀ d n, (legalRun (keyOps d n logs) (staked d n)).isSome
  unknown : ∀ d n, s.nodes.get n = none → s.rowOf network d n = none

/-- the relay knows the nodes of the slashes of a block, and has a live row for every delegation whose first
log of the block is a slash. -/
structure Slashable (network : Text) (s : StakingState) (logs : List DelegatedStakingLog) : Prop where
  known : ∀ d n x, KeyOp.slash x ∈ keyOps d n logs → (s.nodes.get n).isSome
  live : ∀ d n x, (keyOps d n logs).head? = some (.slash x) → Live (s.rowOf network d n)

lemma keyOps_take (d n : Text) (logs : List DelegatedStakingLog) (k : Nat) :
    keyOps d n logs = keyOps d n (logs.take k) ++ keyOps d n (logs.drop k) := by
  rw [← keyOps_append, take_append_drop]

/-- the slashes of a legal block go through, so a pass over a part of it succeeds. -/
lemma pass_true (h : StakingInv s) (hnet : network ∈ s.networks)
    (hb : LegalBlock network staked s logs) (hk : Slashable network s logs) :
    ∃ s', processDelegatedStakingReceiptLogs network logs s = (s', true) := by
  cases hp : (processDelegatedStakingReceiptLogs network logs s).2 with
  | true => exact ⟨_, Prod.ext rfl hp⟩
  | false =>
    obtain ⟨d, n, hdn⟩ := failed_of_false h hnet hp
    rcases hdn with ⟨hn, x, hx⟩ | ⟨hn, hnone⟩
    · have := hk.known d n x hx
      rw [hn] at this
      exact absurd this Bool.false_ne_true
    · obtain ⟨b, hleg⟩ := isSome_iff_exists.1 (hb.legal d n)
      obtain ⟨row, hrow⟩ : ∃ row, rowRun network d n (keyOps d n logs) (s.rowOf network d n) =
          some row := rowRun_of_legal (hk.live d n) hleg
      rw [hnone] at hrow
      exact absurd hrow (some_ne_none _).symm

lemma LegalBlock.take (hb : LegalBlock network staked s logs)
    (k : Nat) : LegalBlock network staked s (logs.take k) where
  legal := by
    intro d n
    have := hb.legal d n
    rw [keyOps_take d n logs k, legalRun_append] at this
    cases hl : legalRun (keyOps d n (logs.take k)) (staked d n) with
    | some b => rfl
    | none =>
      rw [hl] at this
      exact absurd this Bool.false_ne_true
  unknown := hb.unknown

lemma Slashable.take (hk : Slashable network s logs) (k : Nat) : Slashable network s (logs.take k) where
  known d n x hx := hk.known d n x (by rw [keyOps_take d n logs k]; exact mem_append_left _ hx)
  live d n x hx := hk.live d n x (by rw [keyOps_take d n logs k, head?_append, hx]; rfl)

/-- **a replay converges** after a pass that has failed behind `k` handlers exactly when the relay
knows the nodes of all slashes and has a live row where a slash comes first, and no delegation whose first
log of the block is a slash is left without a later stake by the handlers that have committed. -/
theorem replay_converges_iff {staked : Text → Text → Bool} (h : StakingInv s)
    (hnet : network ∈ s.networks) (hb : LegalBlock network staked s logs) (k : Nat) :
    ((processDelegatedStakingReceiptLogs network logs
        (processDelegatedStakingReceiptLogs network (logs.take k) s).1).2 = true ∧
      (processDelegatedStakingReceiptLogs network logs s).2 = true ∧ SameStaking
        (processDelegatedStakingReceiptLogs network logs
          (processDelegatedStakingReceiptLogs network (logs.take k) s).1).1
        (processDelegatedStakingReceiptLogs network logs s).1) ↔
    Slashable network s logs ∧ ∀ d n, Replayable (keyOps d n (logs.take k)) := by
  constructor
  · rintro ⟨hreplay, hsingle, _⟩
    have hpass : processDelegatedStakingReceiptLogs network logs s = (_, true) := Prod.ext rfl hsingle
    have hp := passed_of_true h hnet hpass
    have hknown : ∀ d n x, KeyOp.slash x ∈ keyOps d n logs → (s.nodes.get n).isSome := by
      intro d n x hx
      cases hn : s.nodes.get n with
      | some node => rfl
      | none => exact absurd hx ((hp.unknown d n hn (hb.unknown d n hn)).2 x)
    have hk : Slashable network s logs := by
      refine ⟨hknown, fun d n x hx => ?_⟩
      obtain ⟨ops, hops⟩ := head?_eq_some_iff.1 hx
      have hrow := hp.row d n (hknown d n x (hops ▸ mem_cons_self))
      by_contra hdead
      rw [hops, rowRun, KeyOp.step, if_neg hdead] at hrow
      exact absurd hrow (some_ne_none _).symm
    refine ⟨hk, fun d n hhead => ?_⟩
    by_contra hno
    obtain ⟨x, hx⟩ := hhead
    have hn : (s.nodes.get n).isSome := (hk.take k).known d n x (mem_of_mem_head? (hx ▸ rfl))
    obtain ⟨s1, hs1⟩ := pass_true h hnet (hb.take k) (hk.take k)
    have hp1 := passed_of_true h hnet hs1
    have hlegal := hb.legal d n
    have hrow := hp.row d n hn
    rw [keyOps_take d n logs k] at hlegal hrow
    have hnone := (rowRun_replay hlegal (hp1.row d n hn) hrow).2 fun hr => hno (hr ⟨x, hx⟩)
    rw [hs1] at hreplay
    have hp2 := passed_of_true hp1.inv (hp1.networks ▸ hnet)
      (Prod.ext rfl hreplay : processDelegatedStakingReceiptLogs network logs s1 = (_, true))
    have hrow2 := hp2.row d n ((hp1.known n).trans hn)
    rw [keyOps_take d n logs k, hnone] at hrow2
    exact absurd hrow2 (some_ne_none _).symm
  · rintro ⟨hk, hreplay⟩
    obtain ⟨s1, hs1⟩ := pass_true h hnet (hb.take k) (hk.take k)
    obtain ⟨s', hs'⟩ := pass_true h hnet hb hk
    have hp1 := passed_of_true h hnet hs1
    have hp := passed_of_true h hnet hs'
    have hagain : ∀ d n, (s.nodes.get n).isSome →
        rowRun network d n (keyOps d n logs) (s1.rowOf network d n) = some (s'.rowOf network d n) := by
      intro d n hn
      have hlegal := hb.legal d n
      have hrow := hp.row d n hn
      rw [keyOps_take d n logs k] at hlegal hrow ⊢
      exact (rowRun_replay hlegal (hp1.row d n hn) hrow).1 (hreplay d n)
    rw [hs1, hs']
    have htrue : (processDelegatedStakingReceiptLogs network logs s1).2 = true := by
      by_contra hf
      obtain ⟨d, n, hdn⟩ := failed_of_false hp1.inv (hp1.networks ▸ hnet) (Bool.not_eq_true _ ▸ hf)
      rcases hdn with ⟨hn, x, hx⟩ | ⟨hn, hnone⟩
      · have := (hp1.known n).trans (hk.known d n x hx)
        rw [hn] at this
        exact absurd this Bool.false_ne_true
      · rw [hagain d n ((hp1.known n).symm.trans hn)] at hnone
        exact absurd hnone (some_ne_none _)
    have hp2 := passed_of_true hp1.inv (hp1.networks ▸ hnet)
      (Prod.ext rfl htrue : processDelegatedStakingReceiptLogs network logs s1 = (_, true))
    refine ⟨htrue, rfl, SameStaking.of_rows hp2.inv hp.inv ?_ ?_ ?_⟩
    · rw [hp.networks, hp2.networks, hp1.networks]
    · rintro ⟨d, n, net⟩
      by_cases hne : net = network
      · subst hne
        cases hn : s.nodes.get n with
        | some node =>
          have hk : (s.nodes.get n).isSome := by rw [hn]; rfl
          have hrow2 := hp2.row d n ((hp1.known n).trans hk)
          rw [hagain d n hk] at hrow2
          exact (some.inj hrow2).symm
        | none =>
          have hr1 := (hp1.unknown d n hn (hb.unknown d n hn)).1
          exact (hp2.unknown d n (hp1.unknown_iff.2 hn) hr1).1.trans
            (hp.unknown d n hn (hb.unknown d n hn)).1.symm
      · exact (hp2.other d n net hne).trans
          ((hp1.other d n net hne).trans (hp.other d n net hne).symm)
    · rw [hp2.records, hp.records, hp1.records, addRecord_congr hp1.jobs]
      -- the records of the first pass are there, so that the replay adds those of the rest
      rw [← take_append_drop k logs, foldl_append, take_append_drop,
        foldl_addRecord_again _ _ fun log hlog => addRecord_handled _ _ hlog, ← foldl_append, take_append_drop]

end handlers

/-! ## two blocks on one delegation -/

def startedDelegation : StakingState :=
  match oneDelegation.initDelegationCaches with
  | .ok s => s
  | .error _ => oneDelegation

def slashBlock : List DelegatedStakingLog := [.delegatorSlashed ['d'] ['n'] 5 ['t'] 1 0]

def afterSlash : StakingState :=
  (processDelegatedStakingReceiptLogs ['e'] slashBlock startedDelegation).1

/-- **a slash is not replayed**: the block fails however often it is processed again. -/
theorem slash_replay_stuck :
    (processDelegatedStakingReceiptLogs ['e'] slashBlock startedDelegation).2 = true ∧
      ∀ m, (processDelegatedStakingReceiptLogs ['e'] slashBlock
        ((fun s => (processDelegatedStakingReceiptLogs ['e'] slashBlock s).1)^[m] afterSlash)).2 =
          false := by
  have hfix : processDelegatedStakingReceiptLogs ['e'] slashBlock afterSlash = (afterSlash, false) := rfl
  refine ⟨by decide +kernel, fun m => ?_⟩
  rw [Function.iterate_fixed (congrArg Prod.fst hfix) m, hfix]

def restakeBlock : List DelegatedStakingLog :=
  [.delegatorSlashed ['d'] ['n'] 5 ['t'] 1 0, .delegatorStaked ['d'] ['n'] 7]

lemma keyOps_restakeBlock (d n : Text) : keyOps d n restakeBlock =
    if ['d'] = d ∧ ['n'] = n then [.slash 5, .stake 7] else [] := by
  by_cases h : ['d'] = d ∧ ['n'] = n
  all_goals simp [keyOps, restakeBlock, DelegatedStakingLog.op, h]

lemma node_oneDelegation : (oneDelegation.nodes.get n).isSome ↔ n = ['n'] := by
  unfold oneDelegation
  rw [get_insert _ _ _ rfl]
  split
  · next h => exact iff_of_true rfl h
  · next h => exact iff_of_false Bool.false_ne_true h

lemma row_oneDelegation : oneDelegation.rowOf ['e'] d n =
    if d = ['d'] ∧ n = ['n'] then some ⟨['d'], ['n'], ['e'], 5, false⟩ else none := by
  unfold oneDelegation StakingState.rowOf
  rw [get_insert _ _ _ rfl]
  simp only [Delegation.key, Prod.mk.injEq, and_true]
  rfl

lemma restakeBlock_legal (caches : Text → Option DelegationCache) :
    LegalBlock ['e'] (fun d n => ['d'] = d ∧ ['n'] = n) { oneDelegation with caches := caches }
      restakeBlock where
  legal := by
    intro d n
    rw [keyOps_restakeBlock]
    by_cases h : ['d'] = d ∧ ['n'] = n
    · simp [h, legalRun, KeyOp.legal]
    · simp [h, legalRun]
  unknown := by
    intro d n hn
    have hne : n ≠ ['n'] := fun e => by
      have hk := node_oneDelegation.2 e
      rw [show oneDelegation.nodes.get n = none from hn] at hk
      exact Bool.false_ne_true hk
    exact row_oneDelegation.trans (if_neg fun h => hne h.2)

lemma restakeBlock_slashable (caches : Text → Option DelegationCache) :
    Slashable ['e'] { oneDelegation with caches := caches } restakeBlock := by
  have hkey : ∀ d n x, KeyOp.slash x ∈ keyOps d n restakeBlock → ['d'] = d ∧ ['n'] = n := by
    intro d n x hx
    rw [keyOps_restakeBlock] at hx
    exact (Classical.em _).resolve_right fun h => absurd (if_neg h ▸ hx) not_mem_nil
  refine ⟨fun d n x hx => node_oneDelegation.2 (hkey d n x hx).2.symm, fun d n x hx => ?_⟩
  obtain ⟨rfl, rfl⟩ := hkey d n x (mem_of_mem_head? hx)
  exact ⟨_, row_oneDelegation.trans (if_pos ⟨rfl, rfl⟩), rfl⟩

/-- the whole block is committed before the pass fails; the stake after the slash lets it be replayed. -/
theorem replay_converges_at_restakeBlock : ∃ s, oneDelegation.initDelegationCaches = .ok s ∧
      (processDelegatedStakingReceiptLogs ['e'] restakeBlock
        (processDelegatedStakingReceiptLogs ['e'] (restakeBlock.take 2) s).1).2 = true := by
  obtain ⟨caches, hok, hinv⟩ := initDelegationCaches_ok oneDelegation_configured
  refine ⟨_, hok, ((replay_converges_iff hinv (mem_singleton_self _) (restakeBlock_legal caches) 2).2
    ⟨restakeBlock_slashable caches, ?_⟩).1⟩
  intro d n
  rw [show restakeBlock.take 2 = restakeBlock from rfl, keyOps_restakeBlock]
  split
  · exact fun _ => ⟨7, rfl⟩
  · exact fun ⟨x, hx⟩ => nomatch hx

end CrynuxRelay
