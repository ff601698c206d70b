import CrynuxRelay.Staking.Mirror

/-!
# The staking operations keep the caches exact

* `CachesExact` -- the cache of every network of the configuration mirrors the rows;
* `updateDelegation_ok`, `unstakeDelegation_ok`, `removeNodeDelegations_ok` -- the calls on the caches
  succeed and follow the rows;
* `updateDelegatedStaking_spec`, `unstakeDelegatedStaking_spec`, `slashDelegatedStaking_spec` -- what
  each handler does;
* `StakingInv`, `StakingStep.keeps` -- the invariant, and every operation keeps it;
* `run_mirrors` -- after every sequence of completed operations the caches mirror the rows.
-/

namespace CrynuxRelay

open Function List Option Table StakingState Delegation

variable {caches : Text → Option DelegationCache} {c' : DelegationCache} {x : Int}
  {s' : StakingState} {r : Delegation}
  {s : StakingState} {networks : List Text} {rows rows' : Table Delegation.key}
  {network d n : Text}

def CachesExact (networks : List Text) (rows : Table Delegation.key)
    (caches : Text → Option DelegationCache) : Prop :=
  ∀ net ∈ networks, ∃ c, caches net = some c ∧ CacheInv rows net c

lemma CachesExact.congr (h : CachesExact networks rows caches)
    (hl : ∀ net d n, liveAmount rows' net d n = liveAmount rows net d n)
    (hn : ∀ net n, nodeTotal rows' net n = nodeTotal rows net n)
    (hu : ∀ net d, userTotal rows' net d = userTotal rows net d) :
    CachesExact networks rows' caches := by
  intro net hnet
  obtain ⟨c, hc, hinv⟩ := h net hnet
  exact ⟨c, hc, hinv.congr (hl net) (hn net) (hu net)⟩

lemma CachesExact.set (h : CachesExact networks rows caches) (hc' : CacheInv rows' network c')
    (hother : ∀ net, net ≠ network → ∀ c, CacheInv rows net c → CacheInv rows' net c) :
    CachesExact networks rows' (Function.update caches network (some c')) := by
  intro net hnet
  by_cases he : net = network
  · subst he
    exact ⟨c', update_self .., hc'⟩
  · obtain ⟨c, hc, hinv⟩ := h net hnet
    exact ⟨c, (update_of_ne he ..).trans hc, hother net he c hinv⟩

lemma withCache_ok {f : DelegationCache → Option DelegationCache} {c : DelegationCache}
    (hc : s.caches network = some c) (hf : f c = some c') : s.withCache network f =
      .ok { s with caches := Function.update s.caches network (some c') } := by
  rw [withCache, hc, bind_some, hf]

section calls
variable (h : CachesExact networks rows s.caches) (hnet : network ∈ networks)
include h hnet

lemma updateDelegation_ok (hr : StakingRewrites rows rows' network d n (some x)) :
    ∃ caches, s.updateDelegation d n x network = .ok { s with caches := caches } ∧
      CachesExact networks rows' caches := by
  obtain ⟨c, hc, hinv⟩ := h network hnet
  exact ⟨_, withCache_ok hc rfl, h.set (hinv.update hr) fun net hne c hc => hc.other hr hne⟩

lemma unstakeDelegation_ok (hx : liveAmount rows network d n = some x)
    (hr : StakingRewrites rows rows' network d n none) :
    ∃ caches, s.unstakeDelegation d n network = .ok { s with caches := caches } ∧
      CachesExact networks rows' caches := by
  obtain ⟨c, hc, hinv⟩ := h network hnet
  obtain ⟨c', hc', hinv'⟩ := hinv.unstake hx hr
  exact ⟨_, withCache_ok hc hc', h.set hinv' fun net hne c hc => hc.other hr hne⟩

lemma removeNodeDelegations_ok (n : Text) :
    ∃ caches, s.removeNodeDelegations n network = .ok { s with caches := caches } ∧
      CachesExact networks (withoutNode rows n network) caches := by
  obtain ⟨c, hc, hinv⟩ := h network hnet
  obtain ⟨c', hc', hinv'⟩ := hinv.removeNode n
  refine ⟨_, withCache_ok hc hc', h.set hinv' fun net hne c hc => ?_⟩
  refine hc.congr (fun d' n' => ?_) (fun n' => ?_) fun d' => ?_
  · rw [liveAmount_withoutNode, if_neg fun e => hne e.1]
  · rw [nodeTotal_withoutNode, if_neg fun e => hne e.1]
  · rw [userTotal_withoutNode, if_neg hne, sub_zero]

end calls

/-! ## the invariant -/

/-- the live rows belong to networks of the configuration, and the caches mirror them. -/
structure StakingInv (s : StakingState) : Prop where
  configured : ∀ k r, s.delegations.get k = some r → r.slashed = false → r.network ∈ s.networks
  exact : CachesExact s.networks s.delegations s.caches

/-- an operation that never dereferences a nil pointer and keeps the invariant. -/
structure Keeps (s : StakingState) (res : StakingResult) : Prop where
  never : res ≠ .error .nilPointer
  inv : ∀ s', res = .ok s' → StakingInv s' ∧ s'.networks = s.networks

lemma Keeps.ok (h : StakingInv s') (hn : s'.networks = s.networks) : Keeps s (.ok s') where
  never := fun e => nomatch e
  inv := fun s'' e => by
    cases e
    exact ⟨h, hn⟩

lemma Keeps.error {e : StakingError} (h : e ≠ .nilPointer) : Keeps s (.error e) where
  never := fun e' => h (Except.error.inj e')
  inv := fun _ e' => nomatch e'

/-! ## the handlers -/

lemma configured_put (h : StakingInv s) (hr : r.slashed = false → r.network ∈ s.networks) :
    ∀ k r', (s.delegations.put r).get k = some r' → r'.slashed = false → r'.network ∈ s.networks := by
  intro k r' hk hs
  rw [get_put] at hk
  split at hk
  · cases hk
    exact hr hs
  · exact h.configured k r' hk hs

section handlers
variable (h : StakingInv s) (hnet : network ∈ s.networks)
include h hnet

lemma updateDelegatedStaking_spec (d n : Text) (x : Int) :
    (s.nodes.get n = none ∧ s.updateDelegatedStaking d n x network = .ok s) ∨
    ((s.nodes.get n).isSome ∧ ∃ caches, s.updateDelegatedStaking d n x network = .ok { s with
        delegations := s.delegations.put ⟨d, n, network, x, false⟩
        caches := caches } ∧
      StakingInv { s with
        delegations := s.delegations.put ⟨d, n, network, x, false⟩
        caches := caches }) := by
  unfold updateDelegatedStaking
  cases hn : s.nodes.get n with
  | none => exact Or.inl ⟨rfl, rfl⟩
  | some node =>
    have hr := rewrites_put s.delegations ⟨d, n, network, x, false⟩
    obtain ⟨caches, hok, hex⟩ := updateDelegation_ok
      (s := s.withDelegations (s.delegations.put ⟨d, n, network, x, false⟩)) h.exact hnet hr
    exact Or.inr ⟨rfl, caches, hok, configured_put h fun _ => hnet, hex⟩

lemma unstakeDelegatedStaking_spec (d n : Text) :
    ((s.nodes.get n = none ∨ liveAmount s.delegations network d n = none) ∧
      s.unstakeDelegatedStaking d n network = .ok s) ∨
    ((s.nodes.get n).isSome ∧ (liveAmount s.delegations network d n).isSome ∧ ∃ caches,
      s.unstakeDelegatedStaking d n network = .ok { s with
        delegations := s.delegations.erase (d, n, network)
        caches := caches } ∧
      StakingInv { s with
        delegations := s.delegations.erase (d, n, network)
        caches := caches }) := by
  unfold unstakeDelegatedStaking
  cases hn : s.nodes.get n with
  | none => exact Or.inl ⟨Or.inl rfl, rfl⟩
  | some node =>
    cases hd : s.delegations.get (d, n, network) with
    | none => exact Or.inl ⟨Or.inr (liveAmount_of_none hd), rfl⟩
    | some r =>
      dsimp only
      have hlive := liveAmount_of_get hd
      cases hs : r.slashed with
      | true =>
        rw [live, hs] at hlive
        exact Or.inl ⟨Or.inr hlive, rfl⟩
      | false =>
        rw [live, hs] at hlive
        have hr := rewrites_erase s.delegations network d n
        obtain ⟨caches, hok, hex⟩ := unstakeDelegation_ok
          (s := s.withDelegations (s.delegations.erase (d, n, network))) h.exact hnet hlive hr
        refine Or.inr ⟨rfl, by rw [hlive]; rfl, caches, hok, ⟨fun k r' hk hs' => ?_, hex⟩⟩
        rw [get_erase] at hk
        split at hk
        · exact absurd hk (some_ne_none _).symm
        · exact h.configured k r' hk hs'

def slashRecordOf (s : StakingState) (network d n : Text) (x : Int) (txHash : Text)
    (blockNumber logIndex : Nat) : DelegatedStakingSlashRecord :=
  { slashJobID := s.getUnfinishedDelegatedSlashJob n network
    nodeAddress := n
    delegatorAddress := d
    network := network
    amount := x
    slashTxHash := txHash
    blockNumber := blockNumber
    logIndex := logIndex }

lemma slashDelegatedStaking_spec (d n : Text) (x : Int) (txHash : Text)
    (blockNumber logIndex : Nat) : (liveAmount s.delegations network d n = none ∧
      s.slashDelegatedStaking d n x txHash blockNumber logIndex network = .error .missingDelegation) ∨
    ((liveAmount s.delegations network d n).isSome ∧ ∃ caches,
      s.slashDelegatedStaking d n x txHash blockNumber logIndex network = .ok { s with
        slashRecords :=
          s.slashRecords.insert (slashRecordOf s network d n x txHash blockNumber logIndex)
        delegations := s.delegations.put ⟨d, n, network, x, true⟩
        caches := caches } ∧
      StakingInv { s with
        slashRecords :=
          s.slashRecords.insert (slashRecordOf s network d n x txHash blockNumber logIndex)
        delegations := s.delegations.put ⟨d, n, network, x, true⟩
        caches := caches }) := by
  unfold slashDelegatedStaking
  cases hd : s.delegations.get (d, n, network) with
  | none => exact Or.inl ⟨liveAmount_of_none hd, rfl⟩
  | some r =>
    dsimp only
    have hlive := liveAmount_of_get hd
    cases hs : r.slashed with
    | true =>
      rw [live, hs] at hlive
      exact Or.inl ⟨hlive, rfl⟩
    | false =>
      rw [live, hs] at hlive
      obtain ⟨h1, h2, h3⟩ := fields_of_get hd
      have hrow : { r with amount := x, slashed := true } = (⟨d, n, network, x, true⟩ : Delegation) := by
        rw [← h1, ← h2, ← h3]
      rw [hrow]
      have hr := rewrites_put s.delegations ⟨d, n, network, x, true⟩
      obtain ⟨caches, hok, hex⟩ := unstakeDelegation_ok
        (s := { s with
          slashRecords :=
            s.slashRecords.insert (slashRecordOf s network d n x txHash blockNumber logIndex) }.withDelegations
          (s.delegations.put ⟨d, n, network, x, true⟩)) h.exact hnet hlive hr
      have hconf := configured_put (r := ⟨d, n, network, x, true⟩) h fun hc => absurd hc Bool.true_eq_false.mp
      exact Or.inr ⟨by rw [hlive]; rfl, caches, hok, hconf, hex⟩

omit h hnet in
lemma changeNodeDelegatorShare_spec (s : StakingState) (network n : Text) (share : Nat) :
    ∃ nodes shares, s.changeNodeDelegatorShare n share network =
        .ok { s with nodes := nodes, delegatorShares := shares } ∧
      (∀ a, (nodes.get a).isSome = (s.nodes.get a).isSome) := by
  unfold changeNodeDelegatorShare
  cases hn : s.nodes.get n with
  | none => exact ⟨s.nodes, s.delegatorShares, rfl, fun a => rfl⟩
  | some node =>
    dsimp only
    split
    · exact ⟨s.nodes, s.delegatorShares, rfl, fun a => rfl⟩
    · refine ⟨_, _, rfl, fun a => ?_⟩
      rw [get_put]
      split
      · rename_i ha
        have hk : node.address = n := key_of_get hn
        rw [show a = n from ha.trans hk, hn]
        rfl
      · rfl

lemma handle_keeps (log : DelegatedStakingLog) : Keeps s (log.handle network s) := by
  cases log with
  | delegatorStaked d n x =>
    show Keeps s (s.updateDelegatedStaking d n x network)
    rcases updateDelegatedStaking_spec h hnet d n x with ⟨_, he⟩ | ⟨_, caches, he, hinv⟩
    · exact he ▸ Keeps.ok h rfl
    · exact he ▸ Keeps.ok hinv rfl
  | delegatorUnstaked d n =>
    show Keeps s (s.unstakeDelegatedStaking d n network)
    rcases unstakeDelegatedStaking_spec h hnet d n with ⟨_, he⟩ | ⟨_, _, caches, he, hinv⟩
    · exact he ▸ Keeps.ok h rfl
    · exact he ▸ Keeps.ok hinv rfl
  | nodeDelegatorShareChanged n share =>
    show Keeps s (s.changeNodeDelegatorShare n share network)
    obtain ⟨nodes, shares, he, _⟩ := changeNodeDelegatorShare_spec s network n share
    exact he ▸ Keeps.ok ⟨h.configured, h.exact⟩ rfl
  | delegatorSlashed d n x txHash blockNumber logIndex =>
    show Keeps s (s.slashDelegatedStaking d n x txHash blockNumber logIndex network)
    rcases slashDelegatedStaking_spec h hnet d n x txHash blockNumber logIndex with
      ⟨_, he⟩ | ⟨_, caches, he, hinv⟩
    · exact he ▸ Keeps.error (by decide)
    · exact he ▸ Keeps.ok hinv rfl

end handlers

/-! ## join -/

lemma loadDelegations_ok :
    ∀ (l : List Delegation) (s : StakingState) (rows : Table key),
    CachesExact networks rows s.caches → (∀ r ∈ l, r.network ∈ networks ∧ r.slashed = false) →
    ∃ caches, l.foldlM
        (fun s r => s.updateDelegation r.delegatorAddress r.nodeAddress r.amount r.network) s =
        .ok { s with caches := caches } ∧
      CachesExact networks (l.foldl put rows) caches := by
  intro l
  induction l with
  | nil => exact fun s rows h _ => ⟨s.caches, rfl, h⟩
  | cons r l ih =>
    intro s rows h hl
    obtain ⟨hnet, hs⟩ := hl r (mem_cons_self ..)
    have hr := rewrites_put rows r
    rw [live, hs] at hr
    obtain ⟨caches, hok, hex⟩ := updateDelegation_ok h hnet hr
    obtain ⟨caches', hfold, hex'⟩ := ih { s with caches := caches } _ hex
      fun r hr => hl r (mem_cons_of_mem _ hr)
    refine ⟨caches', ?_, hex'⟩
    rwa [foldlM_cons, hok]

lemma sync_network {l : List (Text × Int)} {k : Text × Text × Text}
    (hk : (syncNodeDelegationsFromChainTx rows n network l).get k = some r) :
    rows.get k = some r ∨ r.network = network := by
  have h : ∀ (l : List (Text × Int)) (t : Table key),
      (l.foldl (fun rows e => rows.put ⟨e.1, n, network, e.2, false⟩) t).get k = some r →
      t.get k = some r ∨ r.network = network := by
    intro l
    induction l with
    | nil => exact fun t h => Or.inl h
    | cons e l ih =>
      intro t h
      rcases ih _ h with h | h
      · rw [get_put] at h
        split at h
        · cases h
          exact Or.inr rfl
        · exact Or.inl h
      · exact Or.inr h
  rcases h l _ hk with hk | hk
  · exact Or.inl (filter_eq_some_iff.1 hk).1
  · exact Or.inr hk

lemma setNodeStatusJoin_keeps (h : StakingInv s) (address network : Text) (stakeAmount : Int)
    (chain : ChainInfo) : Keeps s (s.setNodeStatusJoin address network stakeAmount chain) := by
  unfold StakingState.setNodeStatusJoin
  split
  · exact Keeps.error (by decide)
  split
  · exact Keeps.error (by decide)
  rename_i hnet
  have hnet : network ∈ s.networks := Decidable.not_not.1 hnet
  split
  · exact Keeps.error (by decide)
  split
  · exact Keeps.error (by decide)
  rename_i delegations _
  -- the caches still mirror the rows before the join
  obtain ⟨caches, hremove, hex⟩ := removeNodeDelegations_ok (s := ({ s with
      nodes := s.nodes.put ⟨address, network, .available, chain.delegatorShare⟩ }).withDelegations
        (syncNodeDelegationsFromChainTx s.delegations address network delegations))
    h.exact hnet address
  obtain ⟨caches', hfold, hex'⟩ := loadDelegations_ok
    (delegations.map fun e => ⟨e.1, address, network, e.2, false⟩)
    { (({ s with
        nodes := s.nodes.put ⟨address, network, .available, chain.delegatorShare⟩ }).withDelegations
          (syncNodeDelegationsFromChainTx s.delegations address network delegations)) with
      caches := caches } _ hex (forall_mem_map.2 fun _ _ => ⟨hnet, rfl⟩)
  rw [foldlM_map] at hfold
  rw [foldl_map] at hex'
  unfold applyNodeDelegationsToCache
  dsimp only
  rw [hremove]
  dsimp only [bind, Except.bind]
  rw [hfold]
  refine Keeps.ok ⟨fun k r hk hs => ?_, hex'⟩ rfl
  rcases sync_network hk with hk | hk
  · exact h.configured k r hk hs
  · exact hk ▸ hnet

/-! ## startup -/

lemma cachesExact_of_live (h : CachesExact networks
      ((rows.rows.filter fun r => r.slashed = false).foldl put empty) caches) :
    CachesExact networks rows caches := by
  have hnd : ((rows.rows.filter fun r => r.slashed = false).map key).Nodup :=
    (nodup_map_key_rows rows).sublist ((filter_sublist).map _)
  have htotal : ∀ f : Delegation → Int, (∀ r, r.slashed = true → f r = 0) → rows.total f =
      ((rows.rows.filter fun r => r.slashed = false).foldl put
        (empty : Table key)).total f := by
    intro f hf
    have hsum := total_foldl_put (t := empty) hnd (fun r _ => get_empty r.key) f
    rw [hsum, total_empty, zero_add, sum_filter_eq_total]
    intro r hr
    exact hf r (by simpa using hr)
  refine h.congr (fun net d n => ?_) (fun net n => ?_) fun net d => ?_
  · cases hx : liveAmount rows net d n with
    | some x =>
      obtain ⟨r, hr, hs, ha⟩ := liveAmount_eq_some.1 hx
      have hk : r.key = (d, n, net) := key_of_get hr
      refine (liveAmount_eq_some.2 ⟨r, ?_, hs, ha⟩).symm
      rw [← hk] at hr ⊢
      refine get_foldl_put_of_mem hnd (mem_filter.2 ⟨mem_rows.2 hr, ?_⟩)
      simp [hs]
    | none =>
      refine (liveAmount_of_none ?_).symm
      refine (get_foldl_put_of_not_mem fun hm => ?_).trans rfl
      obtain ⟨r, hr, hk⟩ := List.mem_map.1 hm
      obtain ⟨hr, hs⟩ := mem_filter.1 hr
      have hget := mem_rows.1 hr
      rw [hk] at hget
      have hs : r.slashed = false := by simpa using hs
      rw [liveAmount_eq_some.2 ⟨r, hget, hs, rfl⟩] at hx
      exact absurd hx (some_ne_none _)
  · refine htotal _ fun r hs => ?_
    simp [nodeWeight, hs]
  · refine htotal _ fun r hs => ?_
    simp [userWeight, hs]

lemma cachesExact_empty (networks : List Text) : CachesExact networks empty
    fun net => if net ∈ networks then some {} else none := by
  intro net hnet
  exact ⟨{}, if_pos hnet, Nested.exact_empty, Nested.exact_empty⟩

lemma initDelegationCaches_ok
    (hconf : ∀ k r, s.delegations.get k = some r → r.slashed = false → r.network ∈ s.networks) :
    ∃ caches, s.initDelegationCaches = .ok { s with caches := caches } ∧
      StakingInv { s with caches := caches } := by
  have hl : ∀ r ∈ s.delegations.rows.filter (fun r => r.slashed = false),
      r.network ∈ s.networks ∧ r.slashed = false := by
    intro r hr
    obtain ⟨hr, hs⟩ := mem_filter.1 hr
    have hs : r.slashed = false := by simpa using hs
    exact ⟨hconf _ r (mem_rows.1 hr) hs, hs⟩
  obtain ⟨caches, hfold, hex⟩ := loadDelegations_ok _
    { s with caches := fun net => if net ∈ s.networks then some {} else none } _
    (cachesExact_empty s.networks) hl
  exact ⟨caches, hfold, hconf, cachesExact_of_live hex⟩

lemma configured_of_load {l : List Delegation} (hs : ∀ net, (s.caches net).isSome → net ∈ networks)
    (h : l.foldlM
      (fun s r => s.updateDelegation r.delegatorAddress r.nodeAddress r.amount r.network) s = .ok s') :
    ∀ r ∈ l, r.network ∈ networks := by
  induction l generalizing s with
  | nil => exact nofun
  | cons r l ih =>
    rw [foldlM_cons] at h
    cases hc : s.caches r.network with
    | none =>
      have hnil : s.updateDelegation r.delegatorAddress r.nodeAddress r.amount r.network =
          .error .nilPointer := by
        rw [updateDelegation, withCache, hc]
        rfl
      rw [hnil] at h
      exact nomatch h
    | some c =>
      have hok : s.updateDelegation r.delegatorAddress r.nodeAddress r.amount r.network = .ok _ :=
        withCache_ok hc rfl
      rw [hok] at h
      have hnet : r.network ∈ networks := hs r.network (by rw [hc]; rfl)
      intro r' hr'
      rcases mem_cons.1 hr' with rfl | hr'
      · exact hnet
      · refine ih (fun net hnet' => ?_) h r' hr'
        by_cases he : net = r.network
        · exact he ▸ hnet
        · exact hs net ((congrArg Option.isSome (update_of_ne he ..)).symm.trans hnet')

lemma inv_of_startup {s0 : StakingState} (h : s0.initDelegationCaches = .ok s) : StakingInv s := by
  have hconf : ∀ k r, s0.delegations.get k = some r → r.slashed = false →
      r.network ∈ s0.networks := by
    intro k r hk hs
    refine configured_of_load (fun net hnet => ?_) h r
      (mem_filter.2 ⟨mem_rows.2 ?_, by simp [hs]⟩)
    · by_contra hne
      have hnet : (if net ∈ s0.networks then some ({} : DelegationCache) else none).isSome := hnet
      rw [if_neg hne] at hnet
      exact Bool.false_ne_true hnet
    · rw [key_of_get hk]
      exact hk
  obtain ⟨caches, hok, hinv⟩ := initDelegationCaches_ok hconf
  rw [hok] at h
  cases h
  exact hinv

/-! ## runs -/

lemma StakingStep.keeps (step : StakingStep) (h : StakingInv s) : Keeps s (step.result s) := by
  cases step with
  | log network l =>
    show Keeps s (if network ∈ s.networks then l.handle network s else .ok s)
    split
    · rename_i hnet
      exact handle_keeps h hnet l
    · exact Keeps.ok h rfl
  | join address network stakeAmount chain =>
    exact setNodeStatusJoin_keeps h address network stakeAmount chain
  | quit address =>
    show Keeps s (s.setNodeStatusQuit address)
    unfold StakingState.setNodeStatusQuit
    split
    · exact Keeps.ok h rfl
    · exact Keeps.ok ⟨h.configured, h.exact⟩ rfl
  | startup =>
    show Keeps s s.initDelegationCaches
    obtain ⟨caches, hok, hinv⟩ := initDelegationCaches_ok h.configured
    exact hok ▸ Keeps.ok hinv rfl

lemma StakingStep.exec_inv (step : StakingStep) (h : StakingInv s) : StakingInv (step.exec s) := by
  unfold StakingStep.exec
  cases hres : step.result s with
  | ok s' => exact ((step.keeps h).inv s' hres).1
  | error e => exact h

/-- the cache of every network holds exactly the delegations that are not slashed, by node and by
delegator, and their sums. -/
def Mirrors (s : StakingState) : Prop :=
  ∀ network ∈ s.networks, ∃ c, s.caches network = some c ∧
    (∀ n d, c.nodeDelegations.lookup n d = liveAmount s.delegations network d n) ∧
    (∀ d n, c.userDelegations.lookup d n = liveAmount s.delegations network d n) ∧
    (∀ n, c.getNodeTotalStakeAmount n = nodeTotal s.delegations network n) ∧
    ∀ d, c.getDelegatorTotalStakeAmount d = userTotal s.delegations network d

lemma StakingInv.mirrors (h : StakingInv s) : Mirrors s := by
  intro network hnet
  obtain ⟨c, hc, hinv⟩ := h.exact network hnet
  exact ⟨c, hc, hinv.node.lookup, hinv.user.lookup, hinv.node.total, hinv.user.total⟩

/-- **after every sequence of completed operations the caches mirror the rows**, and no operation
dereferences a nil pointer. -/
theorem run_mirrors {s₀ s : StakingState} (h : s₀.initDelegationCaches = .ok s)
    (steps : List StakingStep) : Mirrors (run StakingStep.exec steps s) ∧
      Along StakingStep.exec (fun s step => step.result s ≠ .error .nilPointer) steps s := by
  have hstep : ∀ (s : StakingState) (step : StakingStep), StakingInv s → True →
      StakingInv (step.exec s) := fun s step h _ => step.exec_inv h
  have hall : Along StakingStep.exec (fun _ _ => True) steps s :=
    Along.of_forall (fun _ _ => trivial) steps s
  have hinv := inv_of_startup h
  exact ⟨(run_invariant hstep steps s hall hinv).mirrors,
    Along.of_invariant hstep (fun s step h _ => (step.keeps h).never) steps s hall hinv⟩

def oneDelegation : StakingState where
  networks := [['e']]
  nodes := Table.empty.insert ⟨['n'], ['e'], .available, 0⟩
  delegations := Table.empty.insert ⟨['d'], ['n'], ['e'], 5, false⟩

lemma oneDelegation_configured : ∀ k r, oneDelegation.delegations.get k = some r →
    r.slashed = false → r.network ∈ oneDelegation.networks := by
  intro k r hk _
  rw [oneDelegation, get_insert _ _ _ rfl] at hk
  split at hk
  · cases hk
    exact mem_singleton_self _
  · exact absurd hk (some_ne_none _).symm

theorem run_mirrors_at_oneDelegation : ∃ s, oneDelegation.initDelegationCaches = .ok s ∧
      Mirrors (run StakingStep.exec [.log ['e'] (.delegatorSlashed ['d'] ['n'] 5 ['t'] 1 0),
          .log ['e'] (.delegatorStaked ['d'] ['n'] 7),
          .join ['n'] ['e'] 3 ⟨3, 10, [['d'], ['f']], [7, 2]⟩] s) := by
  obtain ⟨caches, hok, _⟩ := initDelegationCaches_ok oneDelegation_configured
  exact ⟨_, hok, (run_mirrors hok _).1⟩

end CrynuxRelay
