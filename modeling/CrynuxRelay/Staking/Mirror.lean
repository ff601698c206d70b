import CrynuxRelay.Base.Run
import CrynuxRelay.Model.Delegation

/-!
# The delegation caches mirror the rows

* `liveAmount`, `nodeTotal`, `userTotal` -- what the rows that are not slashed say;
* `StakingRewrites` -- a change of the rows at one delegation, seen from these three;
* `CacheInv` -- the cache of a network holds what its rows say;
* `CacheInv.update`, `CacheInv.unstake`, `CacheInv.removeNode` -- the calls on a cache follow the rows.
-/

namespace CrynuxRelay

open List Option Table Delegation DelegationCache

variable {rows rows' : Table Delegation.key} {network d n : Text} {c : DelegationCache} {r : Delegation}

/-! ## what the rows say -/

def liveAmount (rows : Table Delegation.key) (network d n : Text) : Option Int :=
  ((rows.get (d, n, network)).filter fun r => !r.slashed).map Delegation.amount

def nodeWeight (network n : Text) (r : Delegation) : Int :=
  if r.nodeAddress = n ∧ r.network = network ∧ r.slashed = false then r.amount else 0

def userWeight (network d : Text) (r : Delegation) : Int :=
  if r.delegatorAddress = d ∧ r.network = network ∧ r.slashed = false then r.amount else 0

def nodeTotal (rows : Table Delegation.key) (network n : Text) : Int :=
  rows.total (nodeWeight network n)

def userTotal (rows : Table Delegation.key) (network d : Text) : Int :=
  rows.total (userWeight network d)

lemma liveAmount_eq_some {x : Int} : liveAmount rows network d n = some x ↔
    ∃ r, rows.get (d, n, network) = some r ∧ r.slashed = false ∧ r.amount = x := by
  unfold liveAmount
  cases rows.get (d, n, network) with
  | none => simp
  | some r => cases hs : r.slashed <;> simp [Option.filter, hs]

/-- **one delegation changes**: its live amount is now `x`, and the totals move with it. -/
structure StakingRewrites (rows rows' : Table Delegation.key) (network d n : Text) (x : Option Int) :
    Prop where
  live : ∀ net d' n', liveAmount rows' net d' n' =
    if net = network ∧ d' = d ∧ n' = n then x else liveAmount rows net d' n'
  node : ∀ net n', nodeTotal rows' net n' = nodeTotal rows net n' +
    if net = network ∧ n' = n then x.getD 0 - (liveAmount rows network d n).getD 0 else 0
  user : ∀ net d', userTotal rows' net d' = userTotal rows net d' +
    if net = network ∧ d' = d then x.getD 0 - (liveAmount rows network d n).getD 0 else 0

def Delegation.live (r : Delegation) : Option Int := if r.slashed then none else some r.amount

lemma nodeWeight_eq (r : Delegation) (net n' : Text) :
    nodeWeight net n' r = if net = r.network ∧ n' = r.nodeAddress then r.live.getD 0 else 0 := by
  unfold nodeWeight live
  cases r.slashed with
  | _ => grind

lemma userWeight_eq (r : Delegation) (net d' : Text) :
    userWeight net d' r = if net = r.network ∧ d' = r.delegatorAddress then r.live.getD 0 else 0 := by
  unfold userWeight live
  cases r.slashed with
  | _ => grind

lemma fields_of_get (h : rows.get (d, n, network) = some r) :
    r.delegatorAddress = d ∧ r.nodeAddress = n ∧ r.network = network := by
  simpa [key] using key_of_get h

lemma liveAmount_of_get (h : rows.get (d, n, network) = some r) :
    liveAmount rows network d n = r.live := by
  unfold liveAmount live
  rw [h]
  cases hs : r.slashed <;> simp [Option.filter, hs]

lemma liveAmount_of_none (h : rows.get (d, n, network) = none) :
    liveAmount rows network d n = none := by
  unfold liveAmount
  rw [h]
  rfl

lemma elim_weight {f : Delegation → Int} {p : Prop} [Decidable p]
    (hf : ∀ r, rows.get (d, n, network) = some r → f r = if p then r.live.getD 0 else 0) :
    (rows.get (d, n, network)).elim 0 f = if p then (liveAmount rows network d n).getD 0 else 0 := by
  cases h : rows.get (d, n, network) with
  | none =>
    rw [liveAmount_of_none h]
    simp
  | some r => rw [liveAmount_of_get h, elim_some, hf r h]

lemma elim_nodeWeight (rows : Table key) (network d n net n' : Text) :
    (rows.get (d, n, network)).elim 0 (nodeWeight net n') =
      if net = network ∧ n' = n then (liveAmount rows network d n).getD 0 else 0 := by
  refine elim_weight fun r h => ?_
  obtain ⟨-, hn, hnet⟩ := fields_of_get h
  rw [nodeWeight_eq, hn, hnet]

lemma elim_userWeight (rows : Table key) (network d n net d' : Text) :
    (rows.get (d, n, network)).elim 0 (userWeight net d') =
      if net = network ∧ d' = d then (liveAmount rows network d n).getD 0 else 0 := by
  refine elim_weight fun r h => ?_
  obtain ⟨hd, -, hnet⟩ := fields_of_get h
  rw [userWeight_eq, hd, hnet]

lemma rewrites_put (rows : Table key) (r : Delegation) :
    StakingRewrites rows (rows.put r) r.network r.delegatorAddress r.nodeAddress r.live where
  live := by
    intro net d' n'
    by_cases h : net = r.network ∧ d' = r.delegatorAddress ∧ n' = r.nodeAddress
    · rw [if_pos h, h.1, h.2.1, h.2.2]
      refine liveAmount_of_get ?_
      exact if_pos rfl
    · have hk : (d', n', net) ≠ r.key := by
        intro e
        obtain ⟨h1, h2, h3⟩ : d' = r.delegatorAddress ∧ n' = r.nodeAddress ∧ net = r.network := by
          simpa [key] using e
        exact h ⟨h3, h1, h2⟩
      rw [if_neg h, liveAmount, get_put, if_neg hk]
      rfl
  node := by
    intro net n'
    have hold := elim_nodeWeight rows r.network r.delegatorAddress r.nodeAddress net n'
    rw [nodeTotal, total_put, nodeWeight_eq, show r.key = (_, _, _) from rfl, hold]
    unfold nodeTotal
    split <;> omega
  user := by
    intro net d'
    have hold := elim_userWeight rows r.network r.delegatorAddress r.nodeAddress net d'
    rw [userTotal, total_put, userWeight_eq, show r.key = (_, _, _) from rfl, hold]
    unfold userTotal
    split <;> omega

lemma rewrites_erase (rows : Table key) (network d n : Text) :
    StakingRewrites rows (rows.erase (d, n, network)) network d n none where
  live := by
    intro net d' n'
    by_cases h : net = network ∧ d' = d ∧ n' = n
    · rw [if_pos h, h.1, h.2.1, h.2.2]
      refine liveAmount_of_none ?_
      rw [get_erase, if_pos rfl]
    · have hk : (d', n', net) ≠ (d, n, network) := by
        intro e
        obtain ⟨h1, h2, h3⟩ : d' = d ∧ n' = n ∧ net = network := by simpa using e
        exact h ⟨h3, h1, h2⟩
      rw [if_neg h, liveAmount, get_erase, if_neg hk]
      rfl
  node := by
    intro net n'
    have hold := elim_nodeWeight rows network d n net n'
    rw [nodeTotal, total_erase, hold]
    unfold nodeTotal
    split
    · rw [getD_none]
      omega
    · omega
  user := by
    intro net d'
    have hold := elim_userWeight rows network d n net d'
    rw [userTotal, total_erase, hold]
    unfold userTotal
    split
    · rw [getD_none]
      omega
    · omega

/-! ## one cache -/

structure CacheInv (rows : Table Delegation.key) (network : Text) (c : DelegationCache) : Prop where
  node : Nested.Exact (fun n d => liveAmount rows network d n) (nodeTotal rows network)
    c.nodeDelegations c.nodeStakeAmount
  user : Nested.Exact (fun d n => liveAmount rows network d n) (userTotal rows network)
    c.userDelegations c.userStakeAmount

lemma CacheInv.congr (h : CacheInv rows network c)
    (hl : ∀ d n, liveAmount rows' network d n = liveAmount rows network d n)
    (hn : ∀ n, nodeTotal rows' network n = nodeTotal rows network n)
    (hu : ∀ d, userTotal rows' network d = userTotal rows network d) : CacheInv rows' network c :=
  ⟨h.node.congr (fun n d => hl d n) hn, h.user.congr hl hu⟩

lemma CacheInv.other {net : Text} {x : Option Int} (h : CacheInv rows net c)
    (hr : StakingRewrites rows rows' network d n x) (hne : net ≠ network) : CacheInv rows' net c := by
  refine h.congr (fun d' n' => ?_) (fun n' => ?_) fun d' => ?_
  · rw [hr.live, if_neg fun e => hne e.1]
  · rw [hr.node, if_neg fun e => hne e.1, add_zero]
  · rw [hr.user, if_neg fun e => hne e.1, add_zero]

section
variable {x : Option Int} (hr : StakingRewrites rows rows' network d n x)
include hr

lemma StakingRewrites.live_same (d' n' : Text) : liveAmount rows' network d' n' =
    if d' = d ∧ n' = n then x else liveAmount rows network d' n' := by
  rw [hr.live]
  simp

lemma StakingRewrites.node_same (n' : Text) : nodeTotal rows' network n' =
    if n' = n then nodeTotal rows network n - (liveAmount rows network d n).getD 0 + x.getD 0
    else nodeTotal rows network n' := by
  rw [hr.node]
  grind

lemma StakingRewrites.user_same (d' : Text) : userTotal rows' network d' =
    if d' = d then userTotal rows network d - (liveAmount rows network d n).getD 0 + x.getD 0
    else userTotal rows network d' := by
  rw [hr.user]
  grind

end

lemma CacheInv.update {x : Int} (h : CacheInv rows network c)
    (hr : StakingRewrites rows rows' network d n (some x)) : CacheInv rows' network (c.update d n x) := by
  have hold : c.nodeDelegations.lookup n d = liveAmount rows network d n := h.node.lookup n d
  unfold DelegationCache.update
  rw [hold]
  refine ⟨h.node.store (fun n' d' => ?_) hr.node_same, h.user.store hr.live_same hr.user_same⟩
  simp only [hr.live_same, and_comm]

/-- the totals of a live delegation are there, so that it can be taken out. -/
lemma CacheInv.unstake {x : Int} (h : CacheInv rows network c)
    (hx : liveAmount rows network d n = some x) (hr : StakingRewrites rows rows' network d n none) :
    ∃ c', c.unstake d n = some c' ∧ CacheInv rows' network c' := by
  have hold : c.nodeDelegations.lookup n d = liveAmount rows network d n := h.node.lookup n d
  obtain ⟨node, hnode⟩ := isSome_iff_exists.1 (h.node.present n d x hx)
  obtain ⟨user, huser⟩ := isSome_iff_exists.1 (h.user.present d n x hx)
  unfold DelegationCache.unstake
  rw [hnode, huser, hold]
  refine ⟨_, rfl, h.node.discard hnode (fun n' d' => ?_) fun n' => ?_,
    h.user.discard huser hr.live_same fun d' => ?_⟩
  · simp only [hr.live_same, and_comm]
  · rw [hr.node_same, getD_none, add_zero]
  · rw [hr.user_same, getD_none, add_zero]

/-! ## a node is removed -/

/-- the loop over the delegators of a node: the entries of the list are taken out. -/
lemma removeDelegators_exact (n : Text) :
    ∀ (l : List (Text × Int)) (c : DelegationCache) (live : Text → Text → Option Int) (w : Text → Int),
    Nested.Exact live w c.userDelegations c.userStakeAmount → (l.map Prod.fst).Nodup →
    (∀ e ∈ l, live e.1 n = some e.2) →
    ∃ c', l.foldlM (removeDelegator n) c = some c' ∧
      Nested.Exact (fun d n' => if d ∈ l.map Prod.fst ∧ n' = n then none else live d n')
        (fun d => w d - if d ∈ l.map Prod.fst then (live d n).getD 0 else 0)
        c'.userDelegations c'.userStakeAmount ∧
      c'.nodeDelegations = c.nodeDelegations ∧ c'.nodeStakeAmount = c.nodeStakeAmount := by
  intro l
  induction l with
  | nil =>
    intro c live w h _ _
    exact ⟨c, rfl, h.congr (fun d n' => by simp) (fun d => by simp), rfl, rfl⟩
  | cons e l ih =>
    intro c live w h hnd hlive
    obtain ⟨he, hnd⟩ := nodup_cons.1 hnd
    have hx := hlive e (mem_cons_self ..)
    obtain ⟨user, huser⟩ := isSome_iff_exists.1 (h.present e.1 n e.2 hx)
    have hstep : removeDelegator n c e = some
        { c with
          userStakeAmount := Function.update c.userStakeAmount e.1 (some (user - e.2))
          userDelegations := c.userDelegations.discard e.1 n } := by
      unfold removeDelegator
      rw [huser]
    have h1 : Nested.Exact (fun d n' => if d = e.1 ∧ n' = n then none else live d n')
        (fun d => if d = e.1 then w e.1 - e.2 else w d) (c.userDelegations.discard e.1 n)
        (Function.update c.userStakeAmount e.1 (some (user - e.2))) := by
      have h2 := h.discard (i := n) huser (fun _ _ => rfl) fun _ => rfl
      rwa [hx, getD_some] at h2
    obtain ⟨c', hfold, hexact, hn, ht⟩ := ih
      { c with
        userStakeAmount := Function.update c.userStakeAmount e.1 (some (user - e.2))
        userDelegations := c.userDelegations.discard e.1 n } _ _ h1 hnd (by
          intro e' he'
          have hne : e'.1 ≠ e.1 := fun heq => he (heq ▸ List.mem_map_of_mem he')
          rw [if_neg fun hc => hne hc.1]
          exact hlive e' (mem_cons_of_mem _ he'))
    refine ⟨c', ?_, hexact.congr (fun d n' => ?_) (fun d => ?_), hn, ht⟩
    · rwa [foldlM_cons, hstep]
    · rw [map_cons]
      grind
    · grind

def withoutNode (rows : Table Delegation.key) (n network : Text) : Table Delegation.key :=
  rows.filter fun r => ¬ (r.nodeAddress = n ∧ r.network = network ∧ r.slashed = false)

lemma liveAmount_withoutNode (rows : Table key) (n network net d' n' : Text) :
    liveAmount (withoutNode rows n network) net d' n' =
      if net = network ∧ n' = n then none else liveAmount rows net d' n' := by
  unfold liveAmount withoutNode
  rw [Table.get_filter]
  cases h : rows.get (d', n', net) with
  | none => simp
  | some r =>
    obtain ⟨-, rfl, rfl⟩ := fields_of_get h
    cases hs : r.slashed with
    | true => simp [Option.filter, hs]
    | false =>
      by_cases e : r.network = network ∧ r.nodeAddress = n
      · simp [Option.filter, hs, e.1, e.2]
      · have e' : ¬ (r.nodeAddress = n ∧ r.network = network) := fun x => e ⟨x.2, x.1⟩
        simp [Option.filter, hs, e, e']

lemma nodeTotal_withoutNode (rows : Table key) (n network net n' : Text) :
    nodeTotal (withoutNode rows n network) net n' =
      if net = network ∧ n' = n then 0 else nodeTotal rows net n' := by
  unfold nodeTotal withoutNode
  rw [total_filter]
  by_cases e : net = network ∧ n' = n
  · rw [if_pos e, e.1, e.2]
    refine total_eq_zero fun k r _ => ?_
    split
    · rename_i h
      exact if_neg (of_decide_eq_true h)
    · rfl
  · rw [if_neg e]
    refine total_congr fun k r _ => ?_
    split
    · rfl
    · rename_i h
      obtain ⟨h1, h2, _⟩ : r.nodeAddress = n ∧ r.network = network ∧ r.slashed = false := by
        simpa using h
      unfold nodeWeight
      rw [if_neg fun hc => e ⟨hc.2.1.symm.trans h2, hc.1.symm.trans h1⟩]

lemma userTotal_withoutNode (rows : Table key) (n network net d' : Text) :
    userTotal (withoutNode rows n network) net d' =
      userTotal rows net d' - if net = network then (liveAmount rows network d' n).getD 0 else 0 := by
  let p : Delegation → Bool :=
    fun r => ¬ (r.nodeAddress = n ∧ r.network = network ∧ r.slashed = false)
  have hone : (rows.total fun r => userWeight net d' r - if p r then userWeight net d' r else 0) =
      (rows.get (d', n, network)).elim 0
        fun r => userWeight net d' r - if p r then userWeight net d' r else 0 := by
    refine total_single fun k r hk hne => ?_
    cases hp : p r with
    | true => simp
    | false =>
      obtain ⟨h1, h2, h3⟩ : r.nodeAddress = n ∧ r.network = network ∧ r.slashed = false := by
        simpa [p] using hp
      have hd : r.delegatorAddress ≠ d' := by
        intro hd
        apply hne
        rw [← key_of_get hk, key, hd, h1, h2]
      unfold userWeight
      rw [if_neg fun hc => hd hc.1]
      rfl
  have hval : ((rows.get (d', n, network)).elim 0
      fun r => userWeight net d' r - if p r then userWeight net d' r else 0) =
      if net = network then (liveAmount rows network d' n).getD 0 else 0 := by
    cases hg : rows.get (d', n, network) with
    | none =>
      rw [liveAmount_of_none hg]
      simp
    | some r =>
      obtain ⟨h1, h2, h3⟩ := fields_of_get hg
      rw [liveAmount_of_get hg, elim_some, userWeight_eq, h1, h3]
      cases hs : r.slashed with
      | true => simp [live, hs]
      | false =>
        have hp : p r = false := by simp [p, h2, h3, hs]
        simp [hp]
  rw [total_sub, hval] at hone
  unfold userTotal withoutNode
  rw [total_filter]
  exact eq_sub_of_add_eq (by rw [← hone]; exact add_sub_cancel _ _)

lemma nodeTotal_eq_zero (h : ∀ d, liveAmount rows network d n = none) :
    nodeTotal rows network n = 0 := by
  refine total_eq_zero fun k r hk => ?_
  refine if_neg fun ⟨h1, h2, h3⟩ => ?_
  have hget : rows.get (r.delegatorAddress, n, network) = some r := by
    rw [← key_of_get hk] at hk
    rw [← h1, ← h2]
    exact hk
  have hlive := (liveAmount_of_get hget).symm.trans (h r.delegatorAddress)
  simp [live, h3] at hlive

lemma CacheInv.removeNode (h : CacheInv rows network c) (n : Text) :
    ∃ c', c.removeNode n = some c' ∧ CacheInv (withoutNode rows n network) network c' := by
  unfold DelegationCache.removeNode
  cases hm : c.nodeDelegations n with
  | none =>
    have hnone : ∀ d, liveAmount rows network d n = none := fun d =>
      (h.node.lookup n d).symm.trans (Nested.lookup_of_none hm d)
    refine ⟨c, rfl, h.congr (fun d n' => ?_) (fun n' => ?_) fun d => ?_⟩
    · rw [liveAmount_withoutNode]
      grind
    · rw [nodeTotal_withoutNode]
      have hzero := nodeTotal_eq_zero hnone
      grind
    · rw [userTotal_withoutNode, if_pos rfl, hnone, getD_none, sub_zero]
  | some a =>
    have hlookup : ∀ d, liveAmount rows network d n = (a.get d).map Prod.snd := fun d =>
      (h.node.lookup n d).symm.trans (Nested.lookup_of_some hm d)
    have hentries : ∀ e ∈ a.rows, liveAmount rows network e.1 n = some e.2 := by
      intro e he
      rw [hlookup, mem_rows.1 he]
      rfl
    obtain ⟨c', hfold, hexact, hn, ht⟩ := removeDelegators_exact n a.rows c _ _ h.user
      (nodup_map_key_rows a) hentries
    have hmem : ∀ d, d ∈ a.rows.map Prod.fst ↔ (liveAmount rows network d n).isSome := by
      intro d
      rw [hlookup, isSome_map, show (a.rows.map Prod.fst) = a.keys from map_key_rows a]
      exact a.mem_keys d
    dsimp only
    rw [hfold]
    refine ⟨_, rfl, ?_, hexact.congr (fun d n' => ?_) fun d => ?_⟩
    · dsimp only
      rw [hn, ht]
      refine h.node.drop (fun n' d => ?_) fun n' => ?_
      · rw [liveAmount_withoutNode]
        simp
      · rw [nodeTotal_withoutNode]
        simp
    · rw [liveAmount_withoutNode]
      by_cases e : n' = n
      · subst e
        cases hl : liveAmount rows network d n' with
        | _ => simp [hmem, hl]
      · rw [if_neg fun e' => e e'.2, if_neg fun e' => e e'.2]
    · rw [userTotal_withoutNode, if_pos rfl]
      cases hl : liveAmount rows network d n with
      | none => simp
      | some x => simp [hmem, hl]

end CrynuxRelay
