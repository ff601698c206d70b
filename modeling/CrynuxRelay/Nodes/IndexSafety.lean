import Mathlib.Data.List.Dedup
import CrynuxRelay.Nodes.IndexLocks

/-!
# Runs of calls on the node index

* `advance_inv`, `finish_inv`, `leave_inv`, `commitOf_inv` -- the steps of a call keep the invariant;
* `index_safe` -- when no slot goes away under another call, the critical sections of an address
  exclude each other, and the entry is never older than what a completed call has committed;
* `removed_slot_overlap` -- a slot that is removed while another call waits for it.
-/

namespace CrynuxRelay

open Function List Option IndexCall IndexState

variable {slot : IndexSlot} {todo : List IndexSlot}
  {s : IndexState} {c : Nat} {call call' : IndexCall} {a : Text} {node : Option Node}

/-! ## moves -/

lemma IndexInv.mem_held_current (h : IndexInv s) (hc : s.calls[c]? = some call)
    (hslot : slot ∈ call.held) (hp : slot.address ∈ call.pending) : s.Current slot := by
  rcases h.refs c call hc slot (mem_refs_of_mem_held hslot) with hcur | halone
  · exact hcur
  · exact absurd hp halone.settled

lemma IndexMove.of_pending (h : IndexInv s) (hmem : call ∈ s.calls)
    (haddr : call'.addresses = call.addresses) (hcom : call'.committed = call.committed)
    (horder : call'.InOrder) (hreads : s.Reads call')
    (hrefs : ∀ slot ∈ call'.refs, slot ∈ call.refs ∨ s.Current slot)
    (hpend : call'.pending = call.pending) : IndexMove s call call' where
  addresses := haddr
  inOrder := horder
  bound := hcom ▸ h.bound call hmem
  reads := hreads
  refs := hrefs
  pending := fun _ hb => hpend ▸ hb
  settled := fun _ hb => Or.inr ⟨⟨haddr ▸ hb.1, hpend ▸ hb.2⟩, hcom⟩

section cases
variable (h : IndexInv s) (hc : s.calls[c]? = some call)
include h hc

lemma inOrder_of_get : call.InOrder := h.inOrder call (mem_of_getElem? hc)

/-- a call may go on to a phase with the same slots and the same addresses to do. -/
lemma phase_inv {phase : Phase} (horder : { call with phase := phase }.InOrder)
    (hreads : s.Reads { call with phase := phase })
    (hrefs : { call with phase := phase }.refs = call.refs)
    (hpend : { call with phase := phase }.pending = call.pending) :
    IndexInv (s.setCall c { call with phase := phase }) := by
  refine h.setCall hc (.of_pending h (mem_of_getElem? hc) rfl rfl horder hreads ?_ hpend) rfl
  exact fun slot hslot => Or.inl (hrefs ▸ hslot)

lemma locked_inv (hp : call.phase = .locking []) :
    IndexInv (s.setCall c { call with phase := .running }) := by
  have ho := inOrder_of_get h hc
  simp only [IndexCall.InOrder, hp, append_nil] at ho
  refine phase_inv h hc ho trivial ?_ ?_
  · rw [refs, refs, hp]
  · simp only [pending, hp]

lemma fetch_inv {address : Text} {todo : List Text} (hp : call.phase = .locking (address :: todo))
    (hstale : s.NoStaleSlot address) : IndexInv ((s.getSlot address).2.setCall c
      { call with phase := .waiting (s.getSlot address).1 todo }) := by
  obtain ⟨hcur, haddr, hcalls⟩ := getSlot_current s address
  have h' := h.getSlot hstale
  have hc' : (s.getSlot address).2.calls[c]? = some call := by rw [hcalls]; exact hc
  have hmem := mem_of_getElem? hc'
  have ho := h'.inOrder call hmem
  simp only [IndexCall.InOrder, hp] at ho
  have m : IndexMove (s.getSlot address).2 call
      { call with phase := .waiting (s.getSlot address).1 todo } := by
    refine .of_pending h' hmem rfl rfl ?_ trivial (fun slot hslot => ?_) ?_
    · show call.held.map (·.address) ++ (s.getSlot address).1.address :: todo = call.addresses
      rwa [haddr]
    · rcases mem_cons.1 hslot with rfl | hslot
      · exact Or.inr hcur
      · refine Or.inl ?_
        rwa [refs, hp]
    · simp only [pending, hp]
  exact h'.setCall hc' m rfl

lemma lock_inv {todo : List Text} (hp : call.phase = .waiting slot todo)
    (hfree : s.holder slot = none) : IndexInv ((s.setHolder slot (some c)).setCall c
      { call with phase := .locking todo, held := call.held ++ [slot] }) := by
  have hmem := mem_of_getElem? hc
  have ho := inOrder_of_get h hc
  simp only [IndexCall.InOrder, hp] at ho
  have m : IndexMove s call { call with phase := .locking todo, held := call.held ++ [slot] } := by
    refine .of_pending h hmem rfl rfl ?_ trivial (fun slot' hslot => Or.inl ?_) ?_
    · show (call.held ++ [slot]).map (·.address) ++ todo = call.addresses
      rwa [map_append, append_assoc]
    · rw [refs, hp]
      exact mem_cons.2 ((mem_append.1 hslot).symm.imp mem_singleton.1 id)
    · simp only [pending, hp]
  refine h.move hc m _ fun slot' c' => ?_
  show update s.holder slot (some c) slot' = some c' ↔
    (c' = c ∧ slot' ∈ call.held ++ [slot]) ∨ (c' ≠ c ∧ s.holder slot' = some c')
  by_cases hs : slot' = slot
  · subst hs
    rw [update_self, hfree]
    simp [eq_comm]
  · rw [update_of_ne hs]
    by_cases he : c' = c
    · subst he
      rw [h.holder, hc]
      simp [hs]
    · simp [he]

lemma refreshed_inv (hp : call.phase = .refreshing []) :
    IndexInv (s.setCall c { call with phase := .unlocking }) := by
  have ho := inOrder_of_get h hc
  simp only [IndexCall.InOrder, hp] at ho
  refine phase_inv h hc (ho.2 ▸ prefix_rfl) trivial ?_ ?_
  · rw [refs, refs, hp]
  · simp only [pending, hp, map_nil]

lemma readNode_inv (hp : call.phase = .refreshing (slot :: todo)) : IndexInv (s.setCall c
      { call with phase := .readNode slot (s.db.nodes.get slot.address) todo }) := by
  have ho := inOrder_of_get h hc
  simp only [IndexCall.InOrder, hp] at ho
  refine phase_inv h hc ho ?_ ?_ ?_
  · exact ⟨s.past.length, s.db, h.recent (mem_of_getElem? hc) slot.address, rfl⟩
  · rw [refs, refs, hp]
  · simp only [pending, hp]

lemma readFiles_inv {node : Node} (hp : call.phase = .readNode slot (some node) todo)
    (hq : node.status ≠ .quit) : IndexInv (s.setCall c
      { call with phase := .readFiles slot node (s.db.nodeModels slot.address) todo }) := by
  have hmem := mem_of_getElem? hc
  have ho := h.inOrder call hmem
  have hr := h.reads call hmem
  simp only [IndexCall.InOrder, hp] at ho
  simp only [IndexState.Reads, hp] at hr
  refine phase_inv h hc ho ?_ ?_ ?_
  · exact ⟨hq, hr, s.past.length, s.db, h.recent hmem slot.address, rfl⟩
  · rw [refs, refs, hp]
  · simp only [pending, hp]

lemma settles_of_reading
    (ho : slot :: todo <:+ call.held ∧ call.held.map (·.address) = call.addresses)
    (hrefs : call.refs = call.held) (hpend : call.pending = (slot :: todo).map (·.address)) :
    IndexSettles call { call with phase := .refreshing todo } slot.address where
  addresses := rfl
  held := rfl
  committed := rfl
  refs := hrefs.symm
  inOrder := ⟨(suffix_cons slot todo).trans ho.1, ho.2⟩
  resting := fun _ => trivial
  pending := hpend
  once := by
    have hnd := h.nodup call (mem_of_getElem? hc)
    rw [← ho.2] at hnd
    exact (nodup_cons.1 (hnd.sublist (ho.1.sublist.map _))).1
  holds := ⟨slot, ho.1.subset (mem_cons_self ..), rfl⟩

lemma remove_inv (hp : call.phase = .readNode slot node todo)
    (hgone : ∀ files, nodeEntry node files = none) (honly : s.OnlyUser c slot.address) :
    IndexInv ((s.removeSlot slot.address).setCall c { call with phase := .refreshing todo }) := by
  have hmem := mem_of_getElem? hc
  have ho := h.inOrder call hmem
  have hr := h.reads call hmem
  simp only [IndexCall.InOrder, hp] at ho
  simp only [IndexState.Reads, hp] at hr
  obtain ⟨i, d, hrec, hnode⟩ := hr
  have hs := settles_of_reading h hc ho (by rw [refs, hp]) (by rw [pending, hp])
  refine h.settle hc hs (update s.slots slot.address none) s.entry (fun b hb => ?_)
    (Or.inr ⟨update_self .., honly⟩) ⟨i, d, i, d, hrec, hrec, ?_⟩
  · exact ⟨update_of_ne hb _ _, fun n => rfl⟩
  · rw [update_self, hnode, hgone]
    rfl

lemma store_inv {node : Node} {files : List NodeModelFileRow}
    (hp : call.phase = .readFiles slot node files todo) :
    IndexInv ((s.storeEntry slot (buildNodeIndexEntry node files)).setCall c
      { call with phase := .refreshing todo }) := by
  have hmem := mem_of_getElem? hc
  have ho := h.inOrder call hmem
  have hr := h.reads call hmem
  simp only [IndexCall.InOrder, hp] at ho
  simp only [IndexState.Reads, hp] at hr
  obtain ⟨hq, ⟨i, d, hrec, hnode⟩, j, d', hrec', hfiles⟩ := hr
  have hpend : call.pending = (slot :: todo).map (·.address) := by rw [pending, hp]
  have hs := settles_of_reading h hc ho (by rw [refs, hp]) hpend
  have hcur : s.slots slot.address = some slot.serial := by
    refine h.mem_held_current hc (ho.1.subset (mem_cons_self ..)) ?_
    rw [hpend]
    exact mem_cons_self ..
  refine h.settle hc hs s.slots
    (update s.entry slot (some (buildNodeIndexEntry node files))) (fun b hb => ⟨rfl, ?_⟩)
    (Or.inl rfl) ⟨i, d, j, d', hrec, hrec', ?_⟩
  · intro n
    refine update_of_ne (fun he => hb ?_) _ _
    rw [← he]
  · rw [hcur, hnode, hfiles]
    simp [nodeEntry, hq]

lemma unlock_inv (hp : call.phase = .unlocking) (hlast : call.held.getLast? = some slot) :
    IndexInv ((s.setHolder slot none).setCall c { call with held := call.held.dropLast }) := by
  have hmem := mem_of_getElem? hc
  have ho := h.inOrder call hmem
  simp only [IndexCall.InOrder, hp] at ho
  have heq : call.held = call.held.dropLast ++ [slot] := (dropLast_append_getLast? _ hlast).symm
  have hnd : call.held.Nodup := ((h.nodup call hmem).sublist ho.sublist).of_map _
  have hout : slot ∉ call.held.dropLast := by
    rw [heq] at hnd
    exact fun hin => (nodup_append.1 hnd).2.2 slot hin slot (mem_singleton_self slot) rfl
  have m : IndexMove s call { call with held := call.held.dropLast } := by
    refine .of_pending h hmem rfl rfl ?_ ?_ (fun slot hslot => Or.inl ?_) ?_
    · simp only [IndexCall.InOrder, hp]
      exact (( dropLast_prefix _).map _).trans ho
    · simp only [IndexState.Reads, hp]
    · simp only [refs, hp] at hslot ⊢
      exact dropLast_subset _ hslot
    · simp only [pending, hp]
  refine h.move hc m _ fun slot' c' => ?_
  show update s.holder slot none slot' = some c' ↔
    (c' = c ∧ slot' ∈ call.held.dropLast) ∨ (c' ≠ c ∧ s.holder slot' = some c')
  by_cases hs : slot' = slot
  · subst hs
    have hmine : s.holder slot' = some c :=
      (h.holder slot' c).2 ⟨call, hc, mem_of_getLast? hlast⟩
    rw [update_self, hmine]
    simp [hout, eq_comm]
  · rw [update_of_ne hs]
    by_cases he : c' = c
    · subst he
      have hin : slot' ∈ call.held.dropLast ++ [slot] ↔ slot' ∈ call.held.dropLast := by simp [hs]
      rw [← heq] at hin
      rw [h.holder, hc]
      simp [hin]
    · simp [he]

lemma finish_inv : IndexInv (s.finish c call) := by
  have ho := inOrder_of_get h hc
  unfold finish
  split
  · rename_i address hp hkind haddr
    simp only [IndexCall.InOrder, hp, haddr] at ho
    obtain ⟨slot, hheld, rfl⟩ := map_eq_singleton_iff.1 ho
    have hpend : call.pending = [slot.address] := by simp only [pending, hp, haddr]
    have hcur : s.Current slot := by
      refine h.mem_held_current hc (hheld ▸ mem_singleton_self slot) ?_
      rw [hpend]
      exact mem_singleton_self _
    rw [getSlot_of_current hcur]
    refine phase_inv h hc ⟨hheld ▸ suffix_rfl, ?_⟩ trivial ?_ hpend.symm
    · rw [haddr]
      exact ho
    · rw [refs, refs, hp]
  · rename_i hp _
    simp only [IndexCall.InOrder, hp] at ho
    refine phase_inv h hc ⟨suffix_rfl, ho⟩ trivial ?_ ?_
    · rw [refs, refs, hp]
    · simp only [pending, hp]
      exact ho
  · exact h

lemma leave_inv : IndexInv (s.leave c call) := by
  have hmem := mem_of_getElem? hc
  have ho := h.inOrder call hmem
  unfold leave
  split
  · rename_i hp _ hcom
    simp only [IndexCall.InOrder, hp] at ho
    refine h.setCall hc ⟨rfl, ho ▸ prefix_rfl, h.bound call hmem, trivial, ?_, ?_, ?_⟩ rfl
    · intro slot hslot
      refine Or.inl ?_
      rwa [refs, hp]
    · exact fun b hb => absurd hb not_mem_nil
    · exact fun b _ => Or.inl hcom
  · exact h

lemma commitOf_inv (db : Db) : IndexInv (s.commitOf c call db) := by
  have hmem := mem_of_getElem? hc
  have ho := h.inOrder call hmem
  unfold commitOf
  split
  · rename_i hp
    simp only [IndexCall.InOrder, hp] at ho
    have hbound : s.past.length + 1 ≤ (s.commit db).past.length := by
      show _ ≤ (s.past ++ [s.db]).length
      rw [length_append, length_singleton]
    refine (h.commit db).setCall hc ⟨rfl, ?_, hbound, ?_, ?_, ?_, ?_⟩ rfl
    · simp only [IndexCall.InOrder, hp]
      exact ho
    · simp only [IndexState.Reads, hp]
    · intro slot hslot
      refine Or.inl ?_
      exact hslot
    · intro b hb
      exact hb
    · refine fun b hb => absurd ?_ hb.2
      simp only [pending, hp]
      exact hb.1
  · exact h

end cases

/-! ## runs -/

lemma nodeEntry_none_of_nil (h : nodeEntry node [] = none)
    (files : List NodeModelFileRow) : nodeEntry node files = none := by
  unfold nodeEntry at h ⊢
  split at h
  · rfl
  · rename_i node
    by_cases hq : node.status = .quit
    · exact if_pos hq
    · rw [if_neg hq] at h
      exact absurd h (some_ne_none _)

lemma advance_inv (h : IndexInv s) (hc : s.calls[c]? = some call)
    (hu : Undisturbed s (.advance c)) : IndexInv (s.advance c call) := by
  have hu := hu call hc
  unfold advance
  cases hp : call.phase with
  | locking todo =>
    cases todo with
    | nil => exact locked_inv h hc hp
    | cons address todo =>
      rw [hp] at hu
      exact fetch_inv h hc hp hu
  | waiting slot todo =>
    dsimp only
    cases hfree : s.holder slot with
    | some c' => exact h
    | none => exact lock_inv h hc hp hfree
  | running => exact h
  | refreshing todo =>
    cases todo with
    | nil => exact refreshed_inv h hc hp
    | cons slot todo => exact readNode_inv h hc hp
  | readNode slot node todo =>
    rw [hp] at hu
    cases node with
    | none => exact remove_inv h hc hp (fun _ => rfl) (hu rfl)
    | some node =>
      dsimp only
      split
      · rename_i hq
        have hgone : nodeEntry (some node) [] = none := if_pos hq
        exact remove_inv h hc hp (nodeEntry_none_of_nil hgone) (hu hgone)
      · rename_i hq
        exact readFiles_inv h hc hp hq
  | readFiles slot node files todo => exact store_inv h hc hp
  | unlocking =>
    cases hlast : call.held.getLast? with
    | none => exact h
    | some slot =>
      have hinv := unlock_inv h hc hp hlast
      rwa [hp] at hinv

lemma withCall_inv (h : IndexInv s) {f : IndexCall → IndexState}
    (hf : ∀ call, s.calls[c]? = some call → IndexInv (f call)) : IndexInv (s.withCall c f) := by
  unfold withCall
  split
  · rename_i call hc
    exact hf call hc
  · exact h

lemma nodup_uniqueAddresses (addresses : List Text) : (uniqueAddresses addresses).Nodup := by
  unfold uniqueAddresses
  rw [(perm_insertionSort _ _).nodup_iff]
  exact nodup_dedup _

lemma IndexStep.exec_inv (step : IndexStep) (h : IndexInv s) (hu : Undisturbed s step) :
    IndexInv (step.exec s) := by
  cases step with
  | executeNodeStateUpdate addresses =>
    exact h.start rfl rfl rfl (nodup_uniqueAddresses addresses)
  | lockNodeIndexByAddress address => exact h.start rfl rfl rfl (nodup_singleton address)
  | advance c => exact withCall_inv h fun call hc => advance_inv h hc hu
  | commit c db => exact withCall_inv h fun call hc => commitOf_inv h hc db
  | finish c => exact withCall_inv h fun call hc => finish_inv h hc
  | leave c => exact withCall_inv h fun call hc => leave_inv h hc
  | failRefresh c => exact absurd hu not_false
  | write db => exact h.commit db

lemma initNodeIndex_inv (db : Db) : IndexInv (initNodeIndex db) := by
  have hno : ∀ k ∈ (initNodeIndex db).calls, False := fun k hk => not_mem_nil hk
  refine ⟨fun k hk => (hno k hk).elim, fun k hk => (hno k hk).elim, fun k hk => (hno k hk).elim,
    fun k hk => (hno k hk).elim, fun slot c => ⟨nofun, ?_⟩, ?_, fun a => ?_⟩
  · exact fun ⟨k, hk, _⟩ => (hno k (mem_of_getElem? hk)).elim
  · exact fun c k hk => (hno k (mem_of_getElem? hk)).elim
  · have hrec : (initNodeIndex db).Recent 0 a 0 db := ⟨rfl, Nat.le_refl 0, fun k hk => (hno k hk).elim⟩
    refine ⟨0, db, 0, db, hrec, hrec, ?_⟩
    unfold indexed initNodeIndex
    cases he : nodeEntry (db.nodes.get a) (db.nodeModels a) with
    | _ => simp [he]

/-! ## exclusion and freshness -/

namespace IndexState

open Function List Option

def Exclusive (s : IndexState) : Prop :=
  ∀ (c c' : Nat) (call call' : IndexCall) (slot slot' : IndexSlot),
    s.calls[c]? = some call → s.calls[c']? = some call' →
    slot ∈ call.held → slot' ∈ call'.held → slot.address = slot'.address → c = c'

/-- the entry of the address is that of the states `n` or later of the database; a refresh reads the
row of the node and then its files. -/
def Reflects (s : IndexState) (n : Nat) (address : Text) : Prop :=
  ∃ (i : Nat) (d : Db) (j : Nat) (d' : Db), n ≤ i ∧ n ≤ j ∧ s.versions[i]? = some d ∧ s.versions[j]? = some d' ∧
    s.indexed address = nodeEntry (d.nodes.get address) (d'.nodeModels address)

/-- no entry is older than what a completed call has committed. -/
def Fresh (s : IndexState) : Prop :=
  ∀ (c : Nat) (call : IndexCall) (address : Text), s.calls[c]? = some call → call.CompletedOn address →
    s.Reflects call.committed address

end IndexState

lemma IndexInv.fresh (h : IndexInv s) : s.Fresh := by
  intro c call address hc hdone
  have hset : call.Settled address := by
    refine ⟨hdone.2.1, ?_⟩
    rw [pending, hdone.1]
    exact not_mem_nil
  obtain ⟨i, d, j, d', hr, hr', he⟩ := h.indexed address
  have hmem := mem_of_getElem? hc
  exact ⟨i, d, j, d', hr.settled call hmem hset, hr'.settled call hmem hset, hr.version, hr'.version,
    he⟩

/-- **when no slot goes away under another call and no refresh fails, the critical sections of an
address exclude each other, and an older refresh never overwrites a newer one.** -/
theorem index_safe (db : Db) (steps : List IndexStep)
    (hu : Along IndexStep.exec Undisturbed steps (initNodeIndex db)) :
    (run IndexStep.exec steps (initNodeIndex db)).Exclusive ∧
      (run IndexStep.exec steps (initNodeIndex db)).Fresh := by
  have h := run_invariant (fun s step h hu => IndexStep.exec_inv step h hu) steps _ hu
    (initNodeIndex_inv db)
  exact ⟨fun _ _ _ _ _ _ hc hc' hs hs' ha => h.exclusive hc hc' hs hs' ha, h.fresh⟩

/-- the rows of one node that has joined with a version, or has quit. -/
def oneNode (status : NodeStatus) (version : Nat) : Db :=
  { nodes := Table.empty.insert { address := ['n'], status := status, majorVersion := version } }

/-- two calls for one node: the second one waits for the slot until the first one has refreshed the entry. -/
def turnsRun : List IndexStep :=
  [.executeNodeStateUpdate [['n']], .executeNodeStateUpdate [['n']], .advance 0, .advance 1, .advance 0, .advance 1,
    .advance 0, .commit 0 (oneNode .available 2), .finish 0, .advance 0, .advance 0, .advance 0, .advance 0, .advance 0,
    .advance 1, .advance 1, .commit 1 (oneNode .available 3), .finish 1, .advance 1, .advance 1, .advance 1, .advance 1,
    .advance 1]

instance {a : Text} : Decidable (s.NoStaleSlot a) :=
  inferInstanceAs (Decidable (∀ call ∈ s.calls, ∀ slot ∈ call.refs, slot.address = a → s.slots a = some slot.serial))

lemma turnsRun_undisturbed :
    Along IndexStep.exec Undisturbed turnsRun (initNodeIndex (oneNode .available 1)) := by
  refine ⟨trivial, trivial, ?_, ?_, ?_, ?_, ?_, trivial, trivial, ?_, ?_, ?_, ?_, ?_, ?_, ?_, trivial, trivial,
    ?_, ?_, ?_, ?_, ?_, trivial⟩
  -- the two calls ask for the slot, and each of them reads a node that has not quit
  case refine_1 | refine_2 =>
    rintro call ⟨⟩
    show IndexState.NoStaleSlot _ ['n']
    decide +kernel
  case refine_7 | refine_14 =>
    rintro call ⟨⟩
    exact fun hentry => absurd hentry (by decide +kernel)
  all_goals
    rintro call ⟨⟩
    trivial

/-- one call waits for the slot of a node that quits; the node then joins again. -/
def overlapRun : List IndexStep :=
  [.executeNodeStateUpdate [['n']], .executeNodeStateUpdate [['n']], .advance 0, .advance 0,
    .advance 0, .advance 1, .commit 0 (oneNode .quit 1), .finish 0, .advance 0, .advance 0,
    .advance 0, .advance 0, .lockNodeIndexByAddress ['n'], .advance 2, .advance 2, .advance 2,
    .advance 1, .advance 1]

/-- the join completes first, then the other call with a new version of the node. -/
def staleRun : List IndexStep :=
  overlapRun ++ [.commit 2 (oneNode .available 1), .finish 2, .advance 2, .advance 2, .advance 2,
    .advance 2, .advance 2, .commit 1 (oneNode .available 2), .finish 1, .advance 1, .advance 1,
    .advance 1, .advance 1, .advance 1]

/-- what a call commits last of all is in the entry only when the entry shows the last state. -/
lemma not_reflects_last {n : Nat} (hn : n = s.past.length)
    (h : s.indexed a ≠ nodeEntry (s.db.nodes.get a) (s.db.nodeModels a)) : ¬ s.Reflects n a := by
  rintro ⟨i, d, j, d', hi, hj, hd, hd', he⟩
  have hlast : ∀ {k : Nat} {x : Db}, n ≤ k → s.versions[k]? = some x → x = s.db := by
    intro k x hk hx
    have hlt := (List.getElem?_eq_some_iff.1 hx).1
    rw [versions, length_append, length_singleton] at hlt
    have hk : k = s.past.length := by omega
    rw [hk, versions, getElem?_concat_length] at hx
    exact (some.inj hx).symm
  rw [hlast hi hd, hlast hj hd'] at he
  exact h he

/-- **after a slot was removed under a waiting call, two calls are in their critical sections, and
the entry stays older than what the second one commits.** -/
theorem removed_slot_overlap :
    ¬ (run IndexStep.exec overlapRun (initNodeIndex (oneNode .available 1))).Exclusive ∧
      ¬ (run IndexStep.exec staleRun (initNodeIndex (oneNode .available 1))).Fresh := by
  constructor
  · intro h
    have h12 := h 1 2 _ _ ⟨['n'], 0⟩ ⟨['n'], 1⟩ rfl rfl (by decide +kernel) (by decide +kernel) rfl
    exact absurd h12 (by decide)
  · intro h
    refine not_reflects_last ?_ ?_ (h 1 _ ['n'] rfl ⟨rfl, ?_, ?_⟩)
    all_goals decide +kernel

theorem index_safe_at_turnsRun :
    Along IndexStep.exec Undisturbed turnsRun (initNodeIndex (oneNode .available 1)) ∧
      (run IndexStep.exec turnsRun (initNodeIndex (oneNode .available 1))).Exclusive ∧
      (run IndexStep.exec turnsRun (initNodeIndex (oneNode .available 1))).Fresh :=
  ⟨turnsRun_undisturbed, index_safe (oneNode .available 1) turnsRun turnsRun_undisturbed⟩

end CrynuxRelay
