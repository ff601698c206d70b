import CrynuxRelay.Base.Run
import CrynuxRelay.Model.NodeIndex

/-!
# Who holds the slots of the node index

* `Undisturbed` -- the steps between which no slot goes away under another call;
* `IndexInv` -- the invariant: every slot in use is the one in the map, or its call has just removed it
  and is alone on the address; what a refresh has read is at least as new as what it overwrites;
* `IndexInv.exclusive` -- two calls never hold slots of one address;
* `IndexInv.move`, `IndexInv.getSlot`, `IndexInv.settle`, `IndexInv.commit` -- the parts that the
  steps are made of keep it.
-/

namespace CrynuxRelay

open Function List Option

variable {calls : List IndexCall} {k : IndexCall}
  {slot : IndexSlot} {c' n i : Nat} {d : Db}

variable {s : IndexState} {c : Nat} {call call' : IndexCall} {a : Text}

/-! ## the condition -/

namespace IndexState

/-- no call uses a slot of the address that is no longer in the map. -/
def NoStaleSlot (s : IndexState) (address : Text) : Prop :=
  ∀ call ∈ s.calls, ∀ slot ∈ call.refs, slot.address = address → s.slots address = some slot.serial

/-- the call is the only one that uses a slot of the address. -/
def OnlyUser (s : IndexState) (c : Nat) (address : Text) : Prop :=
  ∀ c' call, c' ≠ c → s.calls[c']? = some call → ∀ slot ∈ call.refs, slot.address ≠ address

end IndexState

/-- a step at which no slot is taken from other calls: a call asks for a slot only when no call uses
a removed slot of the address, and a refresh removes a slot only when no other call uses it. -/
def Undisturbed (s : IndexState) : IndexStep → Prop
  | .advance c => ∀ call, s.calls[c]? = some call → match call.phase with
    | .locking (address :: _) => s.NoStaleSlot address
    | .readNode slot node _ => nodeEntry node [] = none → s.OnlyUser c slot.address
    | _ => True
  | .failRefresh _ => False
  | _ => True

/-! ## the invariant -/

def IndexCall.Settled (call : IndexCall) (address : Text) : Prop :=
  address ∈ call.addresses ∧ address ∉ call.pending

/-- the slots of a call, by its phase. -/
def IndexCall.InOrder (call : IndexCall) : Prop :=
  match call.phase with
  | .locking todo => call.held.map (·.address) ++ todo = call.addresses
  | .waiting slot todo => call.held.map (·.address) ++ slot.address :: todo = call.addresses
  | .running => call.held.map (·.address) = call.addresses
  | .refreshing todo => todo <:+ call.held ∧ call.held.map (·.address) = call.addresses
  | .readNode slot _ todo | .readFiles slot _ _ todo =>
    slot :: todo <:+ call.held ∧ call.held.map (·.address) = call.addresses
  | .unlocking => call.held.map (·.address) <+: call.addresses

namespace IndexState

/-- a state of the database at least as new as `n` and as all that the calls have committed which
are through with the address. -/
structure Recent (s : IndexState) (n : Nat) (address : Text) (i : Nat) (d : Db) : Prop where
  version : s.versions[i]? = some d
  own : n ≤ i
  settled : ∀ call ∈ s.calls, call.Settled address → call.committed ≤ i

/-- what a refresh has read so far is recent. -/
def Reads (s : IndexState) (call : IndexCall) : Prop :=
  match call.phase with
  | .readNode slot node _ =>
    ∃ i d, s.Recent call.committed slot.address i d ∧ d.nodes.get slot.address = node
  | .readFiles slot node files _ =>
    node.status ≠ .quit ∧
    (∃ i d, s.Recent call.committed slot.address i d ∧ d.nodes.get slot.address = some node) ∧
    ∃ i d, s.Recent call.committed slot.address i d ∧ d.nodeModels slot.address = files
  | _ => True

def Current (s : IndexState) (slot : IndexSlot) : Prop := s.slots slot.address = some slot.serial

/-- the call has removed its slot, and no other call uses the address. -/
structure Alone (s : IndexState) (c : Nat) (call : IndexCall) (address : Text) : Prop where
  settled : address ∉ call.pending
  removed : s.slots address = none
  only : s.OnlyUser c address

end IndexState

structure IndexInv (s : IndexState) : Prop where
  nodup : ∀ call ∈ s.calls, call.addresses.Nodup
  inOrder : ∀ call ∈ s.calls, call.InOrder
  bound : ∀ call ∈ s.calls, call.committed ≤ s.past.length
  reads : ∀ call ∈ s.calls, s.Reads call
  holder : ∀ slot c, s.holder slot = some c ↔ ∃ call, s.calls[c]? = some call ∧ slot ∈ call.held
  refs : ∀ c call, s.calls[c]? = some call → ∀ slot ∈ call.refs,
    s.Current slot ∨ s.Alone c call slot.address
  indexed : ∀ a, ∃ i d j d', s.Recent 0 a i d ∧ s.Recent 0 a j d' ∧
    s.indexed a = nodeEntry (d.nodes.get a) (d'.nodeModels a)

/-! ## small facts -/

lemma IndexCall.mem_refs_of_mem_held (h : slot ∈ call.held) : slot ∈ call.refs := by
  unfold IndexCall.refs
  split
  · exact mem_cons_of_mem _ h
  · exact h

lemma calls_set (h : (calls.set c call')[c']? = some k) :
    (c' = c ∧ k = call') ∨ (c' ≠ c ∧ calls[c']? = some k) := by
  rw [getElem?_set] at h
  by_cases hc : c = c'
  · subst hc
    rw [if_pos rfl] at h
    split at h
    · exact Or.inl ⟨rfl, (some.inj h).symm⟩
    · exact absurd h (some_ne_none k).symm
  · rw [if_neg hc] at h
    exact Or.inr ⟨fun e => hc e.symm, h⟩

lemma forall_mem_set {P : IndexCall → Prop} (h : ∀ k ∈ calls, P k)
    (h' : P call') : ∀ k ∈ calls.set c call', P k := by
  intro k hk
  rcases mem_or_eq_of_mem_set hk with hk | rfl
  · exact h k hk
  · exact h'

theorem IndexInv.exclusive (h : IndexInv s) {slot' : IndexSlot} (hc : s.calls[c]? = some call)
    (hc' : s.calls[c']? = some call') (hs : slot ∈ call.held) (hs' : slot' ∈ call'.held)
    (ha : slot.address = slot'.address) : c = c' := by
  by_contra hne
  have href := IndexCall.mem_refs_of_mem_held hs
  have href' := IndexCall.mem_refs_of_mem_held hs'
  rcases h.refs c call hc slot href with hcur | halone
  · rcases h.refs c' call' hc' slot' href' with hcur' | halone'
    · have he : slot = slot' := by
        unfold IndexState.Current at hcur hcur'
        cases slot
        cases slot'
        simp_all
      subst he
      have hown := (h.holder slot c).2 ⟨call, hc, hs⟩
      have hown' := (h.holder slot c').2 ⟨call', hc', hs'⟩
      exact hne (some.inj (hown.symm.trans hown'))
    · exact halone'.only c call hne hc slot href ha
  · exact halone.only c' call' (Ne.symm hne) hc' slot' href' ha.symm

/-! ## what is recent stays recent -/

lemma Recent.set (h : s.Recent n a i d) (hset : call'.Settled a → call'.committed ≤ i) :
    (s.setCall c call').Recent n a i d where
  version := h.version
  own := h.own
  settled := forall_mem_set h.settled hset

lemma IndexInv.recent (h : IndexInv s) (hc : call ∈ s.calls) (a : Text) :
    s.Recent call.committed a s.past.length s.db where
  version := by rw [IndexState.versions, getElem?_concat_length]
  own := h.bound call hc
  settled := fun k hk _ => h.bound k hk

lemma Recent.commit (db : Db) (h : s.Recent n a i d) : (s.commit db).Recent n a i d where
  version := by
    obtain ⟨hi, _⟩ := List.getElem?_eq_some_iff.1 h.version
    show (s.versions ++ [db])[i]? = some d
    rw [getElem?_append_left hi]
    exact h.version
  own := h.own
  settled := h.settled

/-! ## a call moves on -/

structure IndexMove (s : IndexState) (call call' : IndexCall) : Prop where
  addresses : call'.addresses = call.addresses
  inOrder : call'.InOrder
  bound : call'.committed ≤ s.past.length
  reads : s.Reads call'
  refs : ∀ slot ∈ call'.refs, slot ∈ call.refs ∨ s.Current slot
  pending : ∀ a ∈ call'.pending, a ∈ call.pending
  settled : ∀ a, call'.Settled a →
    call'.committed = 0 ∨ (call.Settled a ∧ call'.committed = call.committed)

lemma IndexMove.recent (m : IndexMove s call call') (hc : s.calls[c]? = some call)
    (h : s.Recent n a i d) : (s.setCall c call').Recent n a i d := by
  apply Recent.set h
  intro hset
  rcases m.settled a hset with h0 | ⟨hs, he⟩
  · rw [h0]
    exact Nat.zero_le i
  · rw [he]
    exact h.settled call (mem_of_getElem? hc) hs

lemma Reads.mono {s' : IndexState} (h : s.Reads k) (ho : k.InOrder)
    (hr : ∀ slot ∈ k.held, ∀ n i d, s.Recent n slot.address i d → s'.Recent n slot.address i d) :
    s'.Reads k := by
  unfold IndexState.Reads at h ⊢
  unfold IndexCall.InOrder at ho
  split
  · rename_i slot node todo hp
    rw [hp] at h ho
    obtain ⟨i, d, hrec, hnode⟩ := h
    have hslot : slot ∈ k.held := ho.1.subset (mem_cons_self ..)
    exact ⟨i, d, hr slot hslot _ _ _ hrec, hnode⟩
  · rename_i slot node files todo hp
    rw [hp] at h ho
    obtain ⟨hq, ⟨i, d, hrec, hnode⟩, j, d', hrec', hfiles⟩ := h
    have hslot : slot ∈ k.held := ho.1.subset (mem_cons_self ..)
    exact ⟨hq, ⟨i, d, hr slot hslot _ _ _ hrec, hnode⟩, j, d', hr slot hslot _ _ _ hrec', hfiles⟩
  · trivial

lemma OnlyUser.set (h : s.OnlyUser c' a) (hrefs : c ≠ c' → ∀ slot ∈ call'.refs, slot.address ≠ a) :
    (s.setCall c call').OnlyUser c' a := by
  intro c'' k hne hk
  rcases calls_set hk with ⟨rfl, rfl⟩ | ⟨_, hk⟩
  · exact hrefs hne
  · exact h c'' k hne hk

lemma IndexInv.move (h : IndexInv s) (hc : s.calls[c]? = some call) (m : IndexMove s call call')
    (holder' : IndexSlot → Option Nat) (hholder : ∀ slot c', holder' slot = some c' ↔
      (c' = c ∧ slot ∈ call'.held) ∨ (c' ≠ c ∧ s.holder slot = some c')) :
    IndexInv ({ s with holder := holder' }.setCall c call') := by
  have hmem := mem_of_getElem? hc
  have hlen : c < s.calls.length := (List.getElem?_eq_some_iff.1 hc).1
  have hself : (s.calls.set c call')[c]? = some call' := by
    rw [getElem?_set_self hlen]
  have hrecent : ∀ {n i : Nat} {a : Text} {d : Db}, s.Recent n a i d →
      ({ s with holder := holder' }.setCall c call').Recent n a i d :=
    fun hr => ⟨hr.version, hr.own, (m.recent hc hr).settled⟩
  have horder := forall_mem_set (c := c) h.inOrder m.inOrder
  refine ⟨forall_mem_set h.nodup ?_, horder, forall_mem_set h.bound m.bound, ?_, ?_, ?_, ?_⟩
  · rw [m.addresses]
    exact h.nodup call hmem
  · intro k hk
    have hk' : s.Reads k := forall_mem_set h.reads m.reads k hk
    exact Reads.mono hk' (horder k hk) fun _ _ _ _ _ hr => hrecent hr
  · intro slot c'
    show holder' slot = some c' ↔ ∃ k, (s.calls.set c call')[c']? = some k ∧ slot ∈ k.held
    rw [hholder]
    by_cases he : c' = c
    · subst he
      rw [hself]
      simp
    · rw [getElem?_set_ne (Ne.symm he), ← h.holder]
      simp [he]
  · intro c' k hk slot hslot
    rcases calls_set hk with ⟨rfl, rfl⟩ | ⟨hne, hk⟩
    · rcases m.refs slot hslot with hold | hcur
      · rcases h.refs c' call hc slot hold with hcur | halone
        · exact Or.inl hcur
        · refine Or.inr ⟨fun hp => halone.settled (m.pending _ hp), halone.removed, ?_⟩
          exact OnlyUser.set halone.only fun hne => absurd rfl hne
      · exact Or.inl hcur
    · rcases h.refs c' k hk slot hslot with hcur | halone
      · exact Or.inl hcur
      · refine Or.inr ⟨halone.settled, halone.removed, OnlyUser.set halone.only ?_⟩
        intro _ slot' hslot' ha
        rcases m.refs slot' hslot' with hold | hcur
        · exact halone.only c call (Ne.symm hne) hc slot' hold ha
        · unfold IndexState.Current at hcur
          rw [ha, halone.removed] at hcur
          exact absurd hcur (some_ne_none _).symm
  · intro a
    obtain ⟨i, d, j, d', hr, hr', he⟩ := h.indexed a
    exact ⟨i, d, j, d', hrecent hr, hrecent hr', he⟩

lemma IndexInv.setCall (h : IndexInv s) (hc : s.calls[c]? = some call)
    (m : IndexMove s call call') (hheld : call'.held = call.held) : IndexInv (s.setCall c call') := by
  refine h.move hc m s.holder fun slot c' => ?_
  by_cases he : c' = c
  · subst he
    rw [h.holder, hc, hheld]
    simp
  · simp [he]

/-! ## a call is through with an address -/

structure IndexSettles (call call' : IndexCall) (a : Text) : Prop where
  addresses : call'.addresses = call.addresses
  held : call'.held = call.held
  committed : call'.committed = call.committed
  refs : call'.refs = call.refs
  inOrder : call'.InOrder
  resting : ∀ s : IndexState, s.Reads call'
  pending : call.pending = a :: call'.pending
  once : a ∉ call'.pending
  holds : ∃ slot ∈ call.held, slot.address = a

lemma IndexSettles.recent_self (hs : IndexSettles call call' a)
    (h : s.Recent call.committed a i d) : (s.setCall c call').Recent 0 a i d := by
  have hset : (s.setCall c call').Recent call.committed a i d :=
    Recent.set h fun _ => hs.committed ▸ h.own
  exact ⟨hset.version, Nat.zero_le i, hset.settled⟩

lemma IndexInv.settle (h : IndexInv s) (hc : s.calls[c]? = some call) (hs : IndexSettles call call' a)
    (slots' : Text → Option Nat) (entry' : IndexSlot → Option NodeIndexEntry)
    (hother : ∀ b, b ≠ a → slots' b = s.slots b ∧ ∀ n, entry' ⟨b, n⟩ = s.entry ⟨b, n⟩)
    (hslots : slots' a = s.slots a ∨ (slots' a = none ∧ s.OnlyUser c a))
    (hentry : ∃ i d j d', s.Recent call.committed a i d ∧ s.Recent call.committed a j d' ∧
      (slots' a).bind (fun n => entry' ⟨a, n⟩) = nodeEntry (d.nodes.get a) (d'.nodeModels a)) :
    IndexInv ({ s with slots := slots', entry := entry' }.setCall c call') := by
  have hmem := mem_of_getElem? hc
  obtain ⟨mine, hmine, hmine_a⟩ := hs.holds
  have hother_recent : ∀ {n i : Nat} {b : Text} {d : Db}, b ≠ a → s.Recent n b i d →
      ({ s with slots := slots', entry := entry' }.setCall c call').Recent n b i d := by
    intro n i b d hb hr
    refine ⟨hr.version, hr.own, (Recent.set hr fun ⟨hin, hnot⟩ => ?_).settled⟩
    rw [hs.committed]
    refine hr.settled call hmem ⟨hs.addresses ▸ hin, ?_⟩
    rw [hs.pending]
    exact not_mem_cons_of_ne_of_not_mem hb hnot
  have horder := forall_mem_set (c := c) h.inOrder hs.inOrder
  refine ⟨forall_mem_set h.nodup ?_, horder, forall_mem_set h.bound ?_, ?_, ?_, ?_, ?_⟩
  · rw [hs.addresses]
    exact h.nodup call hmem
  · rw [hs.committed]
    exact h.bound call hmem
  · intro k hk
    obtain ⟨c', hk'⟩ := mem_iff_getElem?.1 hk
    rcases calls_set hk' with ⟨_, rfl⟩ | ⟨hne, hk'⟩
    · exact hs.resting _
    · -- another call that reads holds another address
      have hk := mem_of_getElem? hk'
      refine Reads.mono (h.reads k hk) (h.inOrder k hk) fun slot hslot n i d hr => ?_
      refine hother_recent (fun he => hne ?_) hr
      exact (h.exclusive hc hk' hmine hslot (hmine_a.trans he.symm)).symm
  · intro slot c'
    refine (h.holder slot c').trans ?_
    show _ ↔ ∃ k, (s.calls.set c call')[c']? = some k ∧ slot ∈ k.held
    by_cases he : c' = c
    · subst he
      rw [getElem?_set_self (List.getElem?_eq_some_iff.1 hc).1, hc]
      simp [hs.held]
    · rw [getElem?_set_ne (Ne.symm he)]
  · intro c' k hk slot hslot
    have hkeep : ∀ {k0 : IndexCall}, s.calls[c']? = some k0 → slot ∈ k0.refs →
        (∀ b ∈ k.pending, b ∈ k0.pending) → slots' slot.address = s.slots slot.address →
        ({ s with slots := slots', entry := entry' }.setCall c call').Current slot ∨
        ({ s with slots := slots', entry := entry' }.setCall c call').Alone c' k slot.address := by
      intro k0 hk0 hslot0 hpend heq
      rcases h.refs c' k0 hk0 slot hslot0 with hcur | halone
      · exact Or.inl (heq.trans hcur)
      · refine Or.inr ⟨fun hp => halone.settled (hpend _ hp), heq.trans halone.removed, ?_⟩
        refine OnlyUser.set halone.only fun hne slot' hslot' => ?_
        exact halone.only c call hne hc slot' (hs.refs ▸ hslot')
    rcases calls_set hk with ⟨rfl, rfl⟩ | ⟨hne, hk⟩
    · have hsub : ∀ b ∈ k.pending, b ∈ call.pending := by
        intro b hb
        rw [hs.pending]
        exact mem_cons_of_mem a hb
      by_cases ha : slot.address = a
      · rcases hslots with heq | ⟨hnone, honly⟩
        · exact hkeep hc (hs.refs ▸ hslot) hsub (by rw [ha]; exact heq)
        · refine Or.inr ⟨by rw [ha]; exact hs.once, by rw [ha]; exact hnone, ?_⟩
          rw [ha]
          exact OnlyUser.set honly fun hne => absurd rfl hne
      · exact hkeep hc (hs.refs ▸ hslot) hsub (hother _ ha).1
    · refine hkeep hk hslot (fun b hb => hb) ?_
      by_cases ha : slot.address = a
      · rcases hslots with heq | ⟨_, honly⟩
        · rwa [ha]
        · exact absurd ha (honly c' k hne hk slot hslot)
      · exact (hother _ ha).1
  · intro b
    by_cases hb : b = a
    · subst hb
      obtain ⟨i, d, j, d', hr, hr', he⟩ := hentry
      exact ⟨i, d, j, d', ⟨hr.version, Nat.zero_le i, (hs.recent_self (c := c) hr).settled⟩,
        ⟨hr'.version, Nat.zero_le j, (hs.recent_self (c := c) hr').settled⟩, he⟩
    · obtain ⟨i, d, j, d', hr, hr', he⟩ := h.indexed b
      refine ⟨i, d, j, d', hother_recent hb hr, hother_recent hb hr', ?_⟩
      rw [← he]
      show (slots' b).bind (fun n => entry' ⟨b, n⟩) = (s.slots b).bind fun n => s.entry ⟨b, n⟩
      rw [(hother b hb).1]
      congr 1
      funext n
      exact (hother b hb).2 n

/-! ## the other parts of the steps -/

lemma IndexInv.commit (h : IndexInv s) (db : Db) : IndexInv (s.commit db) := by
  refine ⟨h.nodup, h.inOrder, fun k hk => ?_, fun k hk => ?_, h.holder, fun c k hk slot hslot => ?_,
    fun a => ?_⟩
  · show k.committed ≤ (s.past ++ [s.db]).length
    rw [length_append]
    exact (h.bound k hk).trans (Nat.le_add_right _ _)
  · exact Reads.mono (h.reads k hk) (h.inOrder k hk) fun _ _ _ _ _ hr => Recent.commit db hr
  · rcases h.refs c k hk slot hslot with hcur | halone
    · exact Or.inl hcur
    · exact Or.inr ⟨halone.settled, halone.removed, halone.only⟩
  · obtain ⟨i, d, j, d', hr, hr', he⟩ := h.indexed a
    exact ⟨i, d, j, d', Recent.commit db hr, Recent.commit db hr', he⟩

lemma getSlot_of_current (h : s.Current slot) : s.getSlot slot.address = (slot, s) := by
  rw [IndexState.getSlot, h]

lemma IndexInv.newSlot (h : IndexInv s) (hnone : s.slots a = none)
    (hstale : s.NoStaleSlot a) : IndexInv (s.getSlot a).2 := by
  have hunused : ∀ k ∈ s.calls, ∀ slot ∈ k.refs, slot.address ≠ a := by
    intro k hk slot hslot ha
    have hcur := hstale k hk slot hslot ha
    rw [hnone] at hcur
    exact absurd hcur (some_ne_none _).symm
  have hfree : s.holder ⟨a, s.made a⟩ = none := by
    cases hh : s.holder ⟨a, s.made a⟩ with
    | none => rfl
    | some c =>
      obtain ⟨k, hk, hslot⟩ := (h.holder _ c).1 hh
      exact absurd rfl (hunused k (mem_of_getElem? hk) _ (IndexCall.mem_refs_of_mem_held hslot))
  have hholder : update s.holder ⟨a, s.made a⟩ none = s.holder := by
    rw [← hfree, update_eq_self]
  rw [IndexState.getSlot, hnone]
  dsimp only
  rw [hholder]
  have hrecent : ∀ {n i : Nat} {b : Text} {d : Db}, s.Recent n b i d → ({ s with
        slots := update s.slots a (some (s.made a))
        made := update s.made a (s.made a + 1)
        entry := update s.entry ⟨a, s.made a⟩ none } : IndexState).Recent n b i d :=
    fun hr => ⟨hr.version, hr.own, hr.settled⟩
  refine ⟨h.nodup, h.inOrder, h.bound, fun k hk => ?_, h.holder, fun c k hk slot hslot => ?_,
    fun b => ?_⟩
  · exact Reads.mono (h.reads k hk) (h.inOrder k hk) fun _ _ _ _ _ hr => hrecent hr
  · have hne := hunused k (mem_of_getElem? hk) slot hslot
    have heq : update s.slots a (some (s.made a)) slot.address = s.slots slot.address :=
      update_of_ne hne _ _
    rcases h.refs c k hk slot hslot with hcur | halone
    · exact Or.inl (heq.trans hcur)
    · exact Or.inr ⟨halone.settled, heq.trans halone.removed, halone.only⟩
  · obtain ⟨i, d, j, d', hr, hr', he⟩ := h.indexed b
    refine ⟨i, d, j, d', hrecent hr, hrecent hr', ?_⟩
    rw [← he]
    by_cases hb : b = a
    · subst hb
      simp [IndexState.indexed, hnone]
    · simp [IndexState.indexed, hb]

lemma getSlot_current (s : IndexState) (a : Text) :
    (s.getSlot a).2.Current (s.getSlot a).1 ∧ (s.getSlot a).1.address = a ∧
      (s.getSlot a).2.calls = s.calls := by
  unfold IndexState.getSlot IndexState.Current
  cases hs : s.slots a with
  | some n => exact ⟨hs, rfl, rfl⟩
  | none => exact ⟨update_self .., rfl, rfl⟩

lemma IndexInv.getSlot (h : IndexInv s) (hstale : s.NoStaleSlot a) : IndexInv (s.getSlot a).2 := by
  cases hs : s.slots a with
  | some n =>
    have hcur : s.Current ⟨a, n⟩ := hs
    have heq : s.getSlot a = (⟨a, n⟩, s) := getSlot_of_current hcur
    rwa [heq]
  | none => exact h.newSlot hs hstale

lemma IndexInv.start (h : IndexInv s) (hphase : call.phase = .locking call.addresses)
    (hheld : call.held = []) (hcommitted : call.committed = 0) (hnodup : call.addresses.Nodup) :
    IndexInv (s.start call) := by
  have hrefs : call.refs = [] := by rw [IndexCall.refs, hphase, hheld]
  have hlookup : ∀ {c' : Nat} {k : IndexCall}, (s.calls ++ [call])[c']? = some k →
      s.calls[c']? = some k ∨ (s.calls[c']? = none ∧ k = call) := by
    intro c' k hk
    rw [getElem?_append] at hk
    split at hk
    · exact Or.inl hk
    · rename_i hlt
      refine Or.inr ⟨getElem?_eq_none (Nat.not_lt.1 hlt), ?_⟩
      exact mem_singleton.1 (mem_of_getElem? hk)
  have hforall : ∀ {P : IndexCall → Prop}, (∀ k ∈ s.calls, P k) → P call →
      ∀ k ∈ s.calls ++ [call], P k := by
    intro P hold hnew k hk
    rcases mem_append.1 hk with hk | hk
    · exact hold k hk
    · rw [mem_singleton.1 hk]
      exact hnew
  have hrecent : ∀ {n i : Nat} {b : Text} {d : Db}, s.Recent n b i d → (s.start call).Recent n b i d :=
    fun {n i b d} hr => ⟨hr.version, hr.own, hforall hr.settled fun _ => hcommitted ▸ Nat.zero_le i⟩
  have horder : call.InOrder := by
    rw [IndexCall.InOrder, hphase, hheld]
    rfl
  have honly : ∀ {c' : Nat} {b : Text}, s.OnlyUser c' b → (s.start call).OnlyUser c' b := by
    intro c' b ho c'' k hne hk
    rcases hlookup hk with hk | ⟨_, rfl⟩
    · exact ho c'' k hne hk
    · rw [hrefs]
      exact nofun
  refine ⟨hforall h.nodup hnodup, hforall h.inOrder horder, hforall h.bound ?_, ?_, ?_, ?_, ?_⟩
  · rw [hcommitted]
    exact Nat.zero_le _
  · intro k hk
    have hreads : s.Reads k := by
      refine hforall h.reads ?_ k hk
      rw [IndexState.Reads, hphase]
      trivial
    exact Reads.mono hreads (hforall h.inOrder horder k hk) fun _ _ _ _ _ hr => hrecent hr
  · intro slot c'
    refine (h.holder slot c').trans ⟨fun ⟨k, hk, hslot⟩ => ⟨k, ?_, hslot⟩, fun ⟨k, hk, hslot⟩ => ?_⟩
    · exact (getElem?_append_left (List.getElem?_eq_some_iff.1 hk).1).trans hk
    · rcases hlookup hk with hk | ⟨_, rfl⟩
      · exact ⟨k, hk, hslot⟩
      · rw [hheld] at hslot
        exact absurd hslot not_mem_nil
  · intro c' k hk slot hslot
    rcases hlookup hk with hk | ⟨_, rfl⟩
    · rcases h.refs c' k hk slot hslot with hcur | halone
      · exact Or.inl hcur
      · exact Or.inr ⟨halone.settled, halone.removed, honly halone.only⟩
    · rw [hrefs] at hslot
      exact absurd hslot not_mem_nil
  · intro b
    obtain ⟨i, d, j, d', hr, hr', he⟩ := h.indexed b
    exact ⟨i, d, j, d', hrecent hr, hrecent hr', he⟩

end CrynuxRelay
