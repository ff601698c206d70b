import CrynuxRelay.Accounts.LedgerCache
import CrynuxRelay.Base.Keyset

/-!
# The ledger when charges are alone on their account

* `LedgerTx.Apart` -- a transaction does not charge an account that the other one posts to;
* `LedgerExact` -- the cache is the projected balance, the pending events and what transactions in
  flight are ahead; every prefix of the pending events by id is covered;
* `LedgerExact.covered_commit` -- a debit becomes visible after the events that cover it;
* `LedgerExact.validated_eq` -- so a batch has no invalid events;
* `LedgerExact.exec` -- kept by every step, when transactions in flight are apart.
-/

namespace CrynuxRelay

open Function List Option LedgerState Thread

variable {e : RelayAccountEvent} {l : List RelayAccountEvent}
  {a : Text} {x : Int} {ds : List EventDraft} {rule : RelayAccountEvent → Bool}

/-! ## definitions -/

/-- `tx` does not charge an account of the other transaction. -/
def LedgerTx.Apart (tx tx' : LedgerTx) : Prop :=
  ∀ a x, tx.charged = some (a, x) → ∀ d ∈ tx'.drafts, d.address ≠ a

def Instr.isCheck : Instr → Bool
  | .charge _ _ | .lockCheck _ _ => true
  | _ => false

namespace Thread

def checked (f : Thread) : Bool := f.todo.any Instr.isCommit && !f.todo.any Instr.isCheck

/-- the events that only the transaction itself sees. -/
def owned (f : Thread) : List RelayAccountEvent := if f.committed then [] else f.inserted

end Thread

namespace LedgerState

def pendingTotal (s : LedgerState) (a : Text) : Int := total (s.pending.map (·.posting)) a

def aheadTotal (s : LedgerState) (a : Text) : Int := (s.flights.map (·.ahead a)).sum

def rows (s : LedgerState) : List RelayAccountEvent := s.events ++ s.flights.flatMap Thread.owned

end LedgerState

structure IdsOk (s : LedgerState) : Prop where
  nodup : (s.rows.map (·.id)).Nodup
  lt : ∀ e ∈ s.rows, e.id < s.nextID

structure LedgerExact (s : LedgerState) : Prop where
  apart : ∀ (i j : Nat) (f g : Thread), i ≠ j → s.flights[i]? = some f → s.flights[j]? = some g →
    f.todo ≠ [] → g.todo ≠ [] → f.tx.Apart g.tx
  balance : ∀ a b, s.cache a = some b → b = s.projected a + s.pendingTotal a + s.aheadTotal a
  unused : ∀ a, ¬ s.Cached a → ∀ e ∈ s.pending, e.address ≠ a
  snapshot : ∀ a, ¬ s.Cached a → ∀ f ∈ s.flights, f.todo ≠ [] → f.snapshot a = s.projected a
  covered : ∀ k a, 0 ≤ s.projected a +
    total ((s.pending.filter fun e => decide (e.id < k)).map (·.posting)) a
  checked : ∀ f ∈ s.flights, f.checked = true → ∀ a x, f.tx.charged = some (a, x) →
    x ≤ s.projected a + s.pendingTotal a
  newest : ∀ f ∈ s.flights, f.committed = false → ∀ a x, f.tx.charged = some (a, x) →
    ∀ e ∈ f.inserted, ∀ e' ∈ s.pending, e'.address = a → e'.id < e.id
  ids : IdsOk s

variable {s s' : LedgerState} {i : Nat} {f f' : Thread} {instr : Instr} {rest : List Instr}

/-! ## flights -/

section
variable {cached : Text → Prop}

section
variable (h : ThreadOk cached f) (ha : ∀ d ∈ f.tx.drafts, d.address ≠ a)
include h ha

lemma ThreadOk.inserted_address (he : e ∈ f.inserted) : e.address ≠ a := by
  refine ha e.draft ?_
  rw [← h.drafts]
  exact mem_append_left _ (mem_map_of_mem he)

lemma total_inserted_of_apart : total (f.inserted.map (·.posting)) a = 0 := by
  refine total_of_not_mem fun p hp he => ?_
  obtain ⟨e, hmem, rfl⟩ := mem_map.1 hp
  exact h.inserted_address ha hmem he

lemma ThreadOk.ahead_of_apart : f.ahead a = 0 := by
  have happlied : total f.applied a = 0 := by
    refine total_of_not_mem fun p hp he => ?_
    have hmem : p ∈ f.tx.drafts.map (·.posting) := by
      rw [← h.posts]
      exact mem_append_left _ hp
    obtain ⟨d, hd, rfl⟩ := mem_map.1 hmem
    exact ha d hd he
  rw [ahead, happlied, total_inserted_of_apart h ha]
  split <;> rfl

end

lemma ThreadOk.at_commit (h : ThreadOk cached f) (htodo : f.todo = .commit :: rest)
    (hcharged : f.tx.charged = some (a, x)) :
    f.checked = true ∧ ∃ e, f.inserted = [e] ∧ e.posting = ⟨a, -x⟩ := by
  have hdrafts := h.drafts
  obtain ⟨d, hd, -, hpost⟩ := LedgerTx.drafts_of_charged hcharged
  have hrest : rest = [] ∨ ∃ b y, rest = [.subtract b y] := by
    refine (h.before htodo).resolve_left fun hno => ?_
    rw [hno] at hcharged
    cases hcharged
  have hins : f.inserted.map (·.draft) = [d] := by
    rw [hd, htodo] at hdrafts
    rcases hrest with rfl | ⟨b, y, rfl⟩ <;> simpa [Instr.inserts] using hdrafts
  constructor
  · rw [checked, htodo]
    rcases hrest with rfl | ⟨b, y, rfl⟩ <;> rfl
  · obtain ⟨e, he, hed⟩ := map_eq_singleton_iff.1 hins
    refine ⟨e, he, ?_⟩
    have : e.posting = e.draft.posting := rfl
    rw [this, hed, hpost]

lemma ThreadOk.not_checked_of_committed (h : ThreadOk cached f) (hc : f.committed = true) :
    f.checked = false := by
  have hcommits := h.commits
  rw [hc, Bool.toNat_true] at hcommits
  have hz : f.todo.countP Instr.isCommit = 0 := by omega
  rw [checked, Bool.and_eq_false_iff]
  exact .inl (any_eq_false.2 (countP_eq_zero.1 hz))

lemma ahead_of_untouched (happlied : f.applied = []) (hc : f.committed = false) (a : Text) :
    f.ahead a = 0 := by
  rw [ahead, happlied, hc]
  rfl

end

/-! ## sums over flights -/

lemma aheadTotal_set (hget : s.flights[i]? = some f) (hflights : s'.flights = s.flights.set i f')
    (a : Text) : s'.aheadTotal a = s.aheadTotal a + (f'.ahead a - f.ahead a) := by
  obtain ⟨l1, l2, hl, hset, -⟩ := split_at_thread hget
  rw [aheadTotal, aheadTotal, hflights, hset, hl]
  simp only [map_append, map_cons, sum_append, sum_cons]
  omega

lemma aheadTotal_eq_zero (h : ∀ g ∈ s.flights, g.ahead a = 0) : s.aheadTotal a = 0 :=
  sum_eq_zero fun x hx => by
    obtain ⟨g, hg, rfl⟩ := mem_map.1 hx
    exact h g hg

lemma LedgerInv.aheadTotal_of_not_cached (h : LedgerInv s) (ha : ¬ s.Cached a) : s.aheadTotal a = 0 :=
  aheadTotal_eq_zero fun g hg => (h.flights g hg).elim (fun hr => hr.ahead_eq a)
    fun hok => hok.ahead_of_not_cached ha

/-- **a charge is alone**: only it can be ahead on its account. -/
theorem LedgerExact.aheadTotal_of_charge (hi : LedgerInv s) (h : LedgerExact s)
    (hget : s.flights[i]? = some f) (htodo : f.todo ≠ []) (hcharged : f.tx.charged = some (a, x))
    (hf : f.ahead a = 0) : s.aheadTotal a = 0 := by
  refine aheadTotal_eq_zero fun g hg => ?_
  obtain ⟨j, hj⟩ := getElem?_of_mem hg
  rcases hi.flights g hg with hr | hok
  · exact hr.ahead_eq a
  · by_cases hij : i = j
    · subst hij
      rw [hget] at hj
      cases hj
      exact hf
    · by_cases hgtodo : g.todo = []
      · exact hok.ahead_of_finished hgtodo a
      · exact hok.ahead_of_apart (h.apart i j f g hij hget hj htodo hgtodo a x hcharged)

lemma total_filter_of_address {p : RelayAccountEvent → Bool} (h : ∀ e ∈ l, e.address = a →
    p e = true) : total ((l.filter p).map (·.posting)) a = total (l.map (·.posting)) a := by
  induction l with
  | nil => rfl
  | cons e l ih =>
    have htail := ih fun e' he' => h e' (mem_cons_of_mem e he')
    rw [filter_cons, map_cons, total_cons]
    split
    · rw [map_cons, total_cons, htail]
    · next hp =>
      have hne : e.posting.account ≠ a := fun he => hp (h e mem_cons_self he)
      rw [if_neg hne, zero_add, htail]

lemma rows_set (hget : s.flights[i]? = some f) (hflights : s'.flights = s.flights.set i f') :
    ∃ before after, s.rows = s.events ++ (before ++ (f.owned ++ after)) ∧
      s'.rows = s'.events ++ (before ++ (f'.owned ++ after)) := by
  obtain ⟨l1, l2, hl, hset, -⟩ := split_at_thread hget
  refine ⟨l1.flatMap owned, l2.flatMap owned, ?_, ?_⟩
  · rw [rows, hl, flatMap_append, flatMap_cons]
  · rw [rows, hflights, hset, flatMap_append, flatMap_cons]

lemma mem_rows_of_pending (h : e ∈ s.pending) : e ∈ s.rows :=
  mem_append_left _ (mem_filter.1 h).1

lemma IdsOk.of_sublist (h : IdsOk s) (hperm : s'.rows.Perm l)
    (hsub : l.Sublist s.rows) (hnext : s'.nextID = s.nextID) : IdsOk s' := by
  refine ⟨?_, fun e he => ?_⟩
  · rw [(hperm.map _).nodup_iff]
    exact h.nodup.sublist (hsub.map _)
  · rw [hnext]
    exact h.lt e (hsub.subset (hperm.mem_iff.1 he))

lemma map_id_newEvents (first : Nat) (ds : List EventDraft) :
    (newEvents first ds).map (·.id) = List.range' first ds.length := by
  rw [newEvents, List.map_map]
  have hfun : ((fun e : RelayAccountEvent => e.id) ∘ fun p : EventDraft × Nat =>
      (⟨first + p.2, p.1.address, p.1.amount, .pending, p.1.reason, p.1.type⟩ :
        RelayAccountEvent)) = (first + ·) ∘ Prod.snd := rfl
  rw [hfun, ← List.map_map, zipIdx_map_snd, map_add_range', Nat.add_zero]

section
variable (h : IdsOk s) (hget : s.flights[i]? = some f)
include h hget

lemma IdsOk.rollback (hflights : s'.flights = s.flights.set i f.rollback) (hevents : s'.events = s.events)
    (hnext : s'.nextID = s.nextID) : IdsOk s' := by
  obtain ⟨before, after, hrows, hrows'⟩ := rows_set hget hflights
  refine h.of_sublist (List.Perm.refl _) ?_ hnext
  rw [hrows', hrows, hevents]
  exact (List.Sublist.refl _).append
    ((List.Sublist.refl _).append ((nil_sublist _).append (List.Sublist.refl _)))

lemma IdsOk.commit (hflights : s'.flights = s.flights.set i f') (hevents : s'.events = s.events ++ f.inserted)
    (hnext : s'.nextID = s.nextID) (hc : f.committed = false) (hc' : f'.committed = true) :
    IdsOk s' := by
  obtain ⟨before, after, hrows, hrows'⟩ := rows_set hget hflights
  have howned : f.owned = f.inserted := by rw [owned, hc]; rfl
  have howned' : f'.owned = [] := by rw [owned, hc']; rfl
  refine h.of_sublist (l := s.rows) ?_ (List.Sublist.refl _) hnext
  rw [hrows', hrows, hevents, howned, howned', nil_append, append_assoc]
  refine List.Perm.append_left _ ?_
  rw [← append_assoc, ← append_assoc]
  exact perm_append_comm.append_right _

lemma IdsOk.insert (hflights : s'.flights = s.flights.set i f') (hevents : s'.events = s.events)
    (hnext : s'.nextID = s.nextID + ds.length) (hc : f.committed = false) (hc' : f'.committed = false)
    (hin : f'.inserted = f.inserted ++ newEvents s.nextID ds) : IdsOk s' := by
  obtain ⟨before, after, hrows, hrows'⟩ := rows_set hget hflights
  have howned : f.owned = f.inserted := by rw [owned, hc]; rfl
  have howned' : f'.owned = f.inserted ++ newEvents s.nextID ds := by rw [owned, hc', hin]; rfl
  have hperm : s'.rows.Perm (s.rows ++ newEvents s.nextID ds) := by
    rw [hrows', hrows, hevents, howned, howned']
    simp only [append_assoc]
    refine ((perm_append_comm.append_left _).append_left _).append_left _
  refine ⟨?_, fun e he => ?_⟩
  · rw [(hperm.map _).nodup_iff, map_append, map_id_newEvents]
    refine h.nodup.append nodup_range' fun n hn hn' => ?_
    obtain ⟨e, he, rfl⟩ := mem_map.1 hn
    have := h.lt e he
    have := (mem_range'_1.1 hn').1
    omega
  · rw [hnext]
    rcases mem_append.1 (hperm.mem_iff.1 he) with he | he
    · have := h.lt e he
      omega
    · exact (mem_newEvents he).2.2

end

/-! ## instructions -/

lemma LedgerExact.apart_set (h : LedgerExact s) (hget : s.flights[i]? = some f)
    (htx : f'.tx = f.tx) (htodo : f'.todo ≠ [] → f.todo ≠ []) (j k : Nat) (g g' : Thread)
    (hjk : j ≠ k) (hg : (s.flights.set i f')[j]? = some g) (hg' : (s.flights.set i f')[k]? = some g')
    (hne : g.todo ≠ []) (hne' : g'.todo ≠ []) : g.tx.Apart g'.tx := by
  have hlt : i < s.flights.length := (List.getElem?_eq_some_iff.1 hget).1
  have hold : ∀ (j : Nat) (g : Thread), (s.flights.set i f')[j]? = some g → g.todo ≠ [] →
      ∃ g', s.flights[j]? = some g' ∧ g'.todo ≠ [] ∧ g.tx = g'.tx := by
    intro j g hg hne
    by_cases hij : i = j
    · subst hij
      rw [getElem?_set_self hlt] at hg
      cases hg
      exact ⟨f, hget, htodo hne, htx⟩
    · rw [getElem?_set_ne hij] at hg
      exact ⟨g, hg, hne, rfl⟩
  obtain ⟨g0, hg0, hne0, htx0⟩ := hold j g hg hne
  obtain ⟨g1, hg1, hne1, htx1⟩ := hold k g' hg' hne'
  rw [htx0, htx1]
  exact h.apart j k g0 g1 hjk hg0 hg1 hne0 hne1

section
variable (hi : LedgerInv s) (h : LedgerExact s) (hget : s.flights[i]? = some f)
include hi h hget

/-- a step that changes neither the rows of the accounts nor the visible events. -/
lemma LedgerExact.quiet (hflights : s'.flights = s.flights.set i f') (htx : f'.tx = f.tx)
    (hsnapshot : f'.snapshot = f.snapshot) (htodo : f'.todo ≠ [] → f.todo ≠ [])
    (hprojected : s'.projected = s.projected) (hevents : s'.events = s.events)
    (hcached : ∀ a, s.Cached a → s'.Cached a) (hbalance : ∀ a b', s'.cache a = some b' →
      (∃ b, s.cache a = some b ∧ b' = b + (f'.ahead a - f.ahead a)) ∨
        ¬ s.Cached a ∧ b' = s.projected a ∧ f'.ahead a = f.ahead a)
    (hchecked : f'.checked = true → ∀ a x, f.tx.charged = some (a, x) →
      x ≤ s.projected a + s.pendingTotal a)
    (hnewest : f'.committed = false → ∀ a x, f.tx.charged = some (a, x) →
      ∀ e ∈ f'.inserted, ∀ e' ∈ s.pending, e'.address = a → e'.id < e.id)
    (hids : IdsOk s') : LedgerExact s' := by
  have hpending : s'.pending = s.pending := by rw [pending, hevents, pending]
  have htotal : s'.pendingTotal = s.pendingTotal := by
    funext a
    rw [pendingTotal, hpending, pendingTotal]
  have hmem : ∀ g ∈ s'.flights, g ∈ s.flights ∨ g = f' := fun g hg =>
    mem_or_eq_of_mem_set (hflights ▸ hg)
  refine ⟨hflights ▸ h.apart_set hget htx htodo, fun a b hb => ?_, fun a ha e he => ?_,
    fun a ha g hg hne => ?_, fun k a => ?_, fun g hg hc a x hx => ?_, fun g hg hc a x hx e he => ?_, hids⟩
  · rw [hprojected, htotal, aheadTotal_set hget hflights]
    rcases hbalance a b hb with ⟨b0, hb0, rfl⟩ | ⟨ha, rfl, hahead⟩
    · rw [h.balance a b0 hb0]
      omega
    · have hnone : s.pendingTotal a = 0 := by
        refine total_of_not_mem fun p hp he => ?_
        obtain ⟨e, he', rfl⟩ := mem_map.1 hp
        exact h.unused a ha e he' he
      rw [hnone, hi.aheadTotal_of_not_cached ha, hahead]
      omega
  · rw [hpending] at he
    exact h.unused a (fun hc => ha (hcached a hc)) e he
  · rw [hprojected]
    rcases hmem g hg with hg | rfl
    · exact h.snapshot a (fun hc => ha (hcached a hc)) g hg hne
    · rw [hsnapshot]
      exact h.snapshot a (fun hc => ha (hcached a hc)) f (mem_of_getElem? hget) (htodo hne)
  · rw [hprojected, hpending]
    exact h.covered k a
  · rw [hprojected, htotal]
    rcases hmem g hg with hg | rfl
    · exact h.checked g hg hc a x hx
    · exact hchecked hc a x (htx ▸ hx)
  · rw [hpending]
    rcases hmem g hg with hg | rfl
    · exact h.newest g hg hc a x hx e he
    · exact hnewest hc a x (htx ▸ hx) e he

lemma LedgerExact.rollback (happlied : f.applied = []) (hc : f.committed = false)
    (hflights : s'.flights = s.flights.set i f.rollback) (hprojected : s'.projected = s.projected)
    (hevents : s'.events = s.events) (hcache : s'.cache = s.cache) (hnext : s'.nextID = s.nextID) :
    LedgerExact s' := by
  refine h.quiet hi hget hflights rfl rfl (fun hne => absurd rfl hne) hprojected hevents
    (fun a ha => by rwa [LedgerState.Cached, hcache]) (fun a b hb => .inl ⟨b, hcache ▸ hb, ?_⟩)
    (fun hck => ?_) (fun _ a x _ e he => absurd he not_mem_nil)
    (h.ids.rollback hget hflights hevents hnext)
  · rw [ahead_of_untouched happlied hc, f.rolledBack_rollback.ahead_eq]
    omega
  · cases hck

/-- the check of a charge sees what the projector will see. -/
lemma LedgerExact.check (htodo : f.todo = instr :: rest) (hcheck : instr.checks = some (a, x))
    (hcached : s.Cached a) (hx : ¬ (s.cache a).getD 0 < x) :
    ∀ b y, f.tx.charged = some (b, y) → y ≤ s.projected b + s.pendingTotal b := by
  intro b y hy
  obtain ⟨happlied, hc, hcharged⟩ := (hi.threadOk hget htodo).before_check htodo hcheck
  obtain ⟨rfl, rfl⟩ : a = b ∧ x = y := by simpa [hcharged] using hy
  obtain ⟨b, hb⟩ := isSome_iff_exists.1 hcached
  have hbal := h.balance a b hb
  have hzero := h.aheadTotal_of_charge hi hget (htodo ▸ cons_ne_nil _ _) hcharged
    (ahead_of_untouched happlied hc a)
  rw [hb, getD_some] at hx
  omega

section
variable (htodo : f.todo = instr :: rest) {fresh : Bool} (p : Performed s s' i f fresh instr rest)
include htodo p

lemma LedgerExact.checked_performed (hcommit : instr.isCommit = false)
    (hck : (f.next instr rest s.nextID).checked = true) :
    ∀ a x, f.tx.charged = some (a, x) → x ≤ s.projected a + s.pendingTotal a := by
  have hloads := (hi.threadOk hget htodo).loads
  rw [htodo] at hloads
  cases instr with
  | charge a x => exact h.check hi hget htodo rfl hloads.1 (p.covered a x rfl)
  | lockCheck a x => exact h.check hi hget htodo rfl hloads.1 (p.covered a x rfl)
  | commit => cases hcommit
  | _ =>
    refine h.checked f (mem_of_getElem? hget) ?_
    rw [Thread.checked, htodo]
    exact hck

lemma LedgerExact.ids_performed (hcommit : instr.isCommit = false) : IdsOk s' := by
  have hevents := p.events
  rw [hcommit, if_neg Bool.false_ne_true, append_nil] at hevents
  cases instr with
  | insert ds =>
    have hok := hi.threadOk hget htodo
    have hc := hok.not_committed (htodo ▸ mem_cons_of_mem _ (hok.before htodo))
    refine h.ids.insert hget p.flights hevents p.nextID hc ?_ rfl
    rw [Thread.next, hc]
    rfl
  | _ =>
    obtain ⟨before, after, hrows, hrows'⟩ := rows_set hget p.flights
    refine h.ids.of_sublist (l := s.rows) ?_ (List.Sublist.refl _) p.nextID
    rw [hrows', hrows, hevents]
    simp [owned, Thread.next, Instr.inserts, newEvents, hcommit]

theorem LedgerExact.performed (hcommit : instr.isCommit = false) : LedgerExact s' := by
  have hok := hi.threadOk hget htodo
  have hmem : f ∈ s.flights := mem_of_getElem? hget
  have hne : f.todo ≠ [] := htodo ▸ cons_ne_nil _ _
  have hahead : ∀ a, (f.next instr rest s.nextID).ahead a = f.ahead a + total instr.posts a := by
    intro a
    simp only [Thread.ahead, Thread.next, hcommit, Bool.or_false, total_append]
    split
    · next hc =>
      rw [hok.inserts_of_committed htodo hc]
      simp only [newEvents, zipIdx_nil, map_nil, append_nil]
      omega
    · omega
  have hevents := p.events
  rw [hcommit, if_neg Bool.false_ne_true, append_nil] at hevents
  refine h.quiet hi hget p.flights rfl rfl (fun _ => hne) p.projected hevents
    (fun b hb => (p.cached_iff b).2 (.inl hb)) (fun a y hy => ?_)
    (h.checked_performed hi hget htodo p hcommit) (fun hc a x hx e he e' he' hea => ?_)
    (h.ids_performed hi hget htodo p hcommit)
  · rw [hahead]
    rcases p.cache_cases hy with ⟨x, hx, rfl⟩ | ⟨ha, hy⟩
    · exact .inl ⟨x, hx, by omega⟩
    · have hzero : total instr.posts a = 0 := total_of_not_mem fun q hq he =>
        ha (he ▸ LoadsFirst.posts_cached (htodo ▸ hok.loads) hq)
      refine .inr ⟨ha, ?_, by omega⟩
      rcases hy with hy | hy
      · exact hy
      · rw [hy, h.snapshot a ha f hmem hne]
  · have hc : f.committed = false := (Bool.or_eq_false_iff.1 hc).1
    rcases mem_append.1 he with he | he
    · exact h.newest f hmem hc a x hx e he e' he' hea
    · have := h.ids.lt e' (mem_rows_of_pending he')
      have := (mem_newEvents he).2.1
      omega

end

end

/-! ## the commit -/

section
variable (hi : LedgerInv s) (h : LedgerExact s) (hget : s.flights[i]? = some f)
  (htodo : f.todo = .commit :: rest)
include hi h hget htodo

/-- **a commit keeps every prefix covered**: a debit comes after all visible events of its account, and
they cover it. -/
theorem LedgerExact.covered_commit (k : Nat) (a : Text) :
    0 ≤ s.projected a + (total ((s.pending.filter fun e => decide (e.id < k)).map (·.posting)) a +
      total ((f.inserted.filter fun e => decide (e.id < k)).map (·.posting)) a) := by
  have hok := hi.threadOk hget htodo
  have hmem : f ∈ s.flights := mem_of_getElem? hget
  have hcov := h.covered k a
  cases hcharged : f.tx.charged with
  | none =>
    have hpos : 0 ≤ total ((f.inserted.filter fun e => decide (e.id < k)).map (·.posting)) a := by
      refine total_nonneg (fun p hp => ?_) a
      obtain ⟨e, he, rfl⟩ := mem_map.1 hp
      have he : e ∈ f.inserted := (mem_filter.1 he).1
      have hd : e.draft ∈ f.tx.drafts := by
        rw [← hok.drafts]
        exact mem_append_left _ (mem_map_of_mem he)
      have hcredit : e.type.isDebit = false := LedgerTx.credits_of_not_charged hcharged hd
      show 0 ≤ if e.type.isDebit = true then -e.amount else e.amount
      rw [hcredit]
      exact (hi.nonneg f hmem).amount_nonneg hd
    omega
  | some c =>
    obtain ⟨c, x⟩ := c
    obtain ⟨hck, e, hin, hpost⟩ := hok.at_commit htodo hcharged
    rw [hin, filter_cons, filter_nil]
    split
    · next hlt =>
      have hlt := of_decide_eq_true hlt
      rw [map_cons, map_nil, total_cons, total_nil, add_zero, hpost]
      split
      · next hca =>
        subst hca
        have hall : total ((s.pending.filter fun e => decide (e.id < k)).map (·.posting)) c =
            s.pendingTotal c := by
          refine total_filter_of_address fun e' he' hea => decide_eq_true ?_
          have := h.newest f hmem (hok.not_committed (htodo ▸ mem_cons_self)) c x hcharged e
            (hin ▸ mem_singleton_self e) e' he' hea
          omega
        have hcover := h.checked f hmem hck c x hcharged
        rw [hall]
        show 0 ≤ s.projected c + (s.pendingTotal c + -x)
        omega
      · omega
    · rwa [map_nil, total_nil, add_zero]

lemma LedgerExact.commit (fresh : Bool) : LedgerExact (s.perform i f fresh .commit rest) := by
  have hok := hi.threadOk hget htodo
  have hnext : f.next .commit rest s.nextID = { f with todo := rest, committed := true } := by
    simp [Thread.next, Instr.inserts, Instr.posts, Instr.isCommit, newEvents]
  have hok' := hnext ▸ hok.next htodo (fun b hb => hb.resolve_right not_mem_nil) s.nextID
  have hmem : f ∈ s.flights := mem_of_getElem? hget
  have hne : f.todo ≠ [] := htodo ▸ cons_ne_nil _ _
  have hc := hok.not_committed (htodo ▸ mem_cons_self)
  have hpending : (s.perform i f fresh .commit rest).pending = s.pending ++ f.inserted := by
    show (s.events ++ f.inserted).filter isPending = _
    rw [filter_append]
    exact congrArg _ (filter_eq_self.2 fun e he => decide_eq_true (hok.pending e he))
  have htotal : ∀ a, (s.perform i f fresh .commit rest).pendingTotal a =
      s.pendingTotal a + total (f.inserted.map (·.posting)) a := by
    intro a
    rw [pendingTotal, hpending, map_append, total_append, pendingTotal]
  -- a charge that is still in flight is of another account
  have hother : ∀ g ∈ s.flights.set i { f with todo := rest, committed := true },
      g = { f with todo := rest, committed := true } ∨ g ∈ s.flights ∧ (g.todo ≠ [] → ∀ a x,
        g.tx.charged = some (a, x) → ∀ d ∈ f.tx.drafts, d.address ≠ a) := by
    intro g hg
    obtain ⟨j, hj⟩ := getElem?_of_mem hg
    by_cases hij : i = j
    · subst hij
      rw [getElem?_set_self (List.getElem?_eq_some_iff.1 hget).1] at hj
      exact .inl (some.inj hj).symm
    · rw [getElem?_set_ne hij] at hj
      exact .inr ⟨mem_of_getElem? hj, fun hgne => h.apart j i g f (Ne.symm hij) hj hget hgne hne⟩
  refine ⟨h.apart_set hget rfl fun _ => hne, fun a b hb => ?_, fun a ha e he => ?_,
    fun a ha g hg hgne => ?_, fun k a => ?_, fun g hg hck a x hx => ?_,
    fun g hg hgc a x hx e he e' he' hea => ?_, h.ids.commit hget rfl rfl rfl hc rfl⟩
  · rw [htotal, aheadTotal_set hget rfl, h.balance a b hb]
    show _ = s.projected a + _ + _
    simp only [Thread.ahead, hc, if_true, Bool.false_eq_true, if_false]
    omega
  · rw [hpending] at he
    rcases mem_append.1 he with he | he
    · exact h.unused a ha e he
    · exact fun hea => ha (hea ▸ hok'.committed_cached rfl e he)
  · rcases mem_or_eq_of_mem_set hg with hg | rfl
    · exact h.snapshot a ha g hg hgne
    · exact h.snapshot a ha f hmem hne
  · rw [hpending, filter_append, map_append, total_append]
    exact h.covered_commit hi hget htodo k a
  · rcases hother g hg with rfl | ⟨hg, hapart⟩
    · rw [hok'.not_checked_of_committed rfl] at hck
      cases hck
    · have hgne : g.todo ≠ [] := by
        intro hnil
        rw [Thread.checked, hnil] at hck
        cases hck
      rw [htotal, total_inserted_of_apart hok (hapart hgne a x hx), add_zero]
      exact h.checked g hg hck a x hx
  · rcases hother g hg with rfl | ⟨hg, hapart⟩
    · cases hgc
    · rw [hpending] at he'
      rcases mem_append.1 he' with he' | he'
      · exact h.newest g hg hgc a x hx e he e' he' hea
      · by_cases hgne : g.todo = []
        · rcases hi.flights g hg with hr | hgok
          · rw [hr.inserted] at he
            cases he
          · have hcommits := hgok.commits
            rw [hgne, hgc] at hcommits
            cases hcommits
        · exact absurd hea (hok.inserted_address (hapart hgne a x hx) he')

end

/-! ## batches -/

lemma LedgerExact.exists_cut (h : LedgerExact s) (n : Nat) :
    ∃ k, ((s.pending.insertionSort fun e e' => e.id ≤ e'.id).take n).Perm
      (s.pending.filter fun e => decide (e.id < k)) :=
  Keyset.take_sorted_perm
    (h.ids.nodup.sublist ((filter_sublist.trans (sublist_append_left _ _)).map _))
    (fun e he => h.ids.lt e (mem_rows_of_pending he)) n

theorem LedgerExact.validated_eq (h : LedgerExact s) (hrule : ∀ e ∈ s.pending, rule e = true) :
    s.validated rule = (s.batch, []) := by
  refine validateEvents_all rule s.batch (fun e he => hrule e (mem_batch he)) _ s.projected
    s.tracks_batch fun n a => ?_
  obtain ⟨k, hk⟩ := h.exists_cut (min n 50)
  rw [← map_take, batch, take_take, total_perm (hk.map _)]
  exact h.covered k a

lemma pending_project (hv : s.validated rule = (s.batch, [])) {k : Nat}
    (hk : s.batch.Perm (s.pending.filter fun e => decide (e.id < k))) :
    (s.project rule).pending = s.pending.filter fun e => !decide (e.id < k) := by
  have hbatch : ∀ e ∈ s.events, isPending e = true → (e ∈ s.batch ↔ e.id < k) := by
    intro e he hp
    rw [hk.mem_iff, mem_filter, decide_eq_true_eq]
    exact and_iff_right (mem_filter.2 ⟨he, hp⟩)
  have hproject : (s.project rule).events = s.events.map fun e =>
      if e ∈ s.batch then { e with status := .processed } else e := by
    show s.events.map _ = _
    rw [hv]
    exact map_congr_left fun e _ => if_neg not_mem_nil
  rw [pending, pending, hproject]
  generalize s.events = l at hbatch
  induction l with
  | nil => rfl
  | cons e l ih =>
    have ih := ih fun e' he' => hbatch e' (mem_cons_of_mem e he')
    rw [map_cons, filter_cons, filter_cons, ih]
    by_cases hp : isPending e = true
    · by_cases hlt : e.id < k
      · have hin := (hbatch e mem_cons_self hp).2 hlt
        have hno : isPending { e with status := .processed } = false := rfl
        simp [hin, hno, hp, hlt]
      · have hout : e ∉ s.batch := fun hin => hlt ((hbatch e mem_cons_self hp).1 hin)
        simp [hout, hp, hlt]
    · have hout : isPending (if e ∈ s.batch then { e with status := .processed } else e) = false := by
        split
        · rfl
        · exact Bool.eq_false_of_not_eq_true hp
      simp [hout, hp]

lemma total_filter_add (p : RelayAccountEvent → Bool) (l : List RelayAccountEvent) (a : Text) :
    total ((l.filter p).map (·.posting)) a + total ((l.filter fun e => !p e).map (·.posting)) a =
      total (l.map (·.posting)) a := by
  rw [← total_append, ← map_append]
  exact total_perm ((filter_append_perm p l).map _) a

/-- **a batch moves events from pending to projected.** -/
theorem LedgerExact.project (h : LedgerExact s)
    (hrule : ∀ e ∈ s.pending, rule e = true) : LedgerExact (s.project rule) := by
  have hv := h.validated_eq hrule
  obtain ⟨k, hk⟩ := h.exists_cut 50
  have hpending := pending_project hv hk
  have hprojected : ∀ a, (s.project rule).projected a = s.projected a +
      total ((s.pending.filter fun e => decide (e.id < k)).map (·.posting)) a := by
    intro a
    show s.projected a + total ((s.validated rule).1.map (·.posting)) a = _
    rw [hv]
    exact congrArg _ (total_perm (hk.map _) a)
  have hsum : ∀ a, (s.project rule).projected a + (s.project rule).pendingTotal a =
      s.projected a + s.pendingTotal a := by
    intro a
    rw [hprojected, pendingTotal, hpending, add_assoc, total_filter_add]
    rfl
  have hsub : ∀ e ∈ (s.project rule).pending, e ∈ s.pending := by
    intro e he
    rw [hpending] at he
    exact (mem_filter.1 he).1
  refine ⟨h.apart, fun a b hb => ?_, fun a ha e he => h.unused a ha e (hsub e he),
    fun a ha f hf hne => ?_, fun j a => ?_, fun f hf hc a x hx => ?_,
    fun f hf hc a x hx e he e' he' => h.newest f hf hc a x hx e he e' (hsub e' he'), ?_⟩
  · rw [hsum]
    exact h.balance a b hb
  · have hnone : total ((s.pending.filter fun e => decide (e.id < k)).map (·.posting)) a = 0 := by
      refine total_of_not_mem fun p hp he => ?_
      obtain ⟨e, hmem, rfl⟩ := List.mem_map.1 hp
      exact h.unused a ha e (mem_filter.1 hmem).1 he
    rw [hprojected, hnone, add_zero]
    exact h.snapshot a ha f hf hne
  · rw [hprojected, hpending, List.filter_filter]
    by_cases hj : j ≤ k
    · have hnil : (s.pending.filter fun e => decide (e.id < j) && !decide (e.id < k)) = [] := by
        refine filter_eq_nil_iff.2 fun e _ => ?_
        simp only [Bool.and_eq_true, decide_eq_true_eq, Bool.not_eq_true', decide_eq_false_iff_not]
        omega
      rw [hnil, map_nil, total_nil, add_zero]
      exact h.covered k a
    · have hlow : (s.pending.filter fun e => decide (e.id < k)) =
          (s.pending.filter fun e => decide (e.id < j)).filter fun e => decide (e.id < k) := by
        rw [List.filter_filter]
        refine filter_congr fun e _ => ?_
        by_cases hlt : e.id < k
        · rw [decide_eq_true hlt, decide_eq_true (show e.id < j by omega)]
          rfl
        · rw [decide_eq_false hlt, Bool.false_and]
      have hhigh : (s.pending.filter fun e => decide (e.id < j) && !decide (e.id < k)) =
          (s.pending.filter fun e => decide (e.id < j)).filter fun e => !decide (e.id < k) := by
        rw [List.filter_filter]
        exact filter_congr fun e _ => Bool.and_comm _ _
      rw [hhigh, hlow, add_assoc, total_filter_add]
      exact h.covered j a
  · rw [hsum]
    exact h.checked f hf hc a x hx
  · have hids : (s.project rule).rows.map (·.id) = s.rows.map (·.id) := by
      show ((s.events.map _) ++ _).map _ = (s.events ++ _).map _
      rw [map_append, map_append, List.map_map]
      refine congrArg (· ++ _) (map_congr_left fun e _ => ?_)
      rw [comp_apply]
      split
      · rfl
      · split
        · rfl
        · rfl
    refine ⟨hids ▸ h.ids.nodup, fun e he => ?_⟩
    have hmem : e.id ∈ s.rows.map (·.id) := hids ▸ List.mem_map_of_mem he
    obtain ⟨e', he', hid⟩ := List.mem_map.1 hmem
    exact hid ▸ h.ids.lt e' he'

/-! ## steps -/

/-- transactions start apart from those in flight, and the rows that events refer to are there. -/
def LedgerOp.Orderly (s : LedgerState) : LedgerOp → Prop
  | .start tx => ∀ f ∈ s.flights, f.todo ≠ [] → tx.Apart f.tx ∧ f.tx.Apart tx
  | .project rule => ∀ e ∈ s.pending, rule e = true
  | _ => True

lemma LedgerExact.start (h : LedgerExact s) {tx : LedgerTx} (hop : ∀ f ∈ s.flights, f.todo ≠ [] →
    tx.Apart f.tx ∧ f.tx.Apart tx) : LedgerExact ((LedgerOp.start tx).exec s) := by
  have hmem : ∀ g ∈ s.flights ++ [⟨tx, tx.program, s.projected, [], [], false⟩],
      g ∈ s.flights ∨ g = ⟨tx, tx.program, s.projected, [], [], false⟩ := fun g hg =>
    (mem_append.1 hg).imp_right mem_singleton.1
  have hat : ∀ (j : Nat) (g : Thread),
      (s.flights ++ [⟨tx, tx.program, s.projected, [], [], false⟩])[j]? = some g →
      s.flights[j]? = some g ∨ j = s.flights.length ∧ g.tx = tx := by
    intro j g hg
    rw [getElem?_append] at hg
    split at hg
    · exact .inl hg
    · next hj =>
      have hlt := (List.getElem?_eq_some_iff.1 hg).1
      rw [length_singleton] at hlt
      rw [mem_singleton.1 (mem_of_getElem? hg)]
      exact .inr ⟨by omega, rfl⟩
  refine ⟨fun j k g g' hjk hg hg' hne hne' => ?_, fun a b hb => ?_, h.unused, fun a ha g hg hne => ?_,
    h.covered, fun g hg hc a x hx => ?_, fun g hg hc a x hx e he => ?_, ?_⟩
  · rcases hat j g hg with hg | ⟨rfl, htx⟩
    · rcases hat k g' hg' with hg' | ⟨rfl, htx'⟩
      · exact h.apart j k g g' hjk hg hg' hne hne'
      · rw [htx']
        exact (hop g (mem_of_getElem? hg) hne).2
    · rcases hat k g' hg' with hg' | ⟨rfl, htx'⟩
      · rw [htx]
        exact (hop g' (mem_of_getElem? hg') hne').1
      · exact absurd rfl hjk
  · rw [h.balance a b hb]
    show _ = _ + ((s.flights ++ [_]).map fun g : Thread => g.ahead a).sum
    rw [map_append, sum_append, map_singleton, sum_singleton, ahead_of_untouched rfl rfl, add_zero]
    rfl
  · rcases hmem g hg with hg | rfl
    · exact h.snapshot a ha g hg hne
    · rfl
  · rcases hmem g hg with hg | rfl
    · exact h.checked g hg hc a x hx
    · cases tx with
      | createTask c b fee => cases hc
      | withdraw id b y => cases hc
      | _ => cases hx
  · rcases hmem g hg with hg | rfl
    · exact h.newest g hg hc a x hx e he
    · cases he
  · refine h.ids.of_sublist (l := s.rows) ?_ (List.Sublist.refl _) rfl
    show (s.events ++ (s.flights ++ [_]).flatMap owned).Perm _
    rw [flatMap_append, flatMap_cons, flatMap_nil, append_nil]
    show (s.events ++ (s.flights.flatMap owned ++ [])).Perm _
    rw [append_nil]
    exact List.Perm.refl _

/-- **the balances agree up to what is in flight**, one step. -/
theorem LedgerExact.exec (hi : LedgerInv s) (h : LedgerExact s) {op : LedgerOp}
    (hop : op.Orderly s) : LedgerExact (op.exec s) := by
  cases op with
  | start tx => exact h.start hop
  | project rule => exact h.project hop
  | fail i =>
    rw [LedgerOp.exec]
    split
    · next f hget =>
      rw [abort]
      split
      · next hc => exact h.rollback hi hget hc.1 hc.2 rfl rfl rfl rfl rfl
      · exact h
    · exact h
  | step i fresh =>
    rw [LedgerOp.exec]
    split
    · next f hget =>
      split
      · next instr rest htodo =>
        rcases perform_cases s i f fresh instr rest with heq | ⟨a, x, hcheck, heq⟩ | p
        · rw [heq]
          exact h
        · obtain ⟨happlied, hc, -⟩ := (hi.threadOk hget htodo).before_check htodo hcheck
          rw [heq]
          exact h.rollback hi hget happlied hc rfl rfl rfl rfl rfl
        · by_cases hcommit : instr.isCommit = true
          · cases instr with
            | commit => exact h.commit hi hget htodo fresh
            | _ => cases hcommit
          · exact h.performed hi hget htodo p (Bool.eq_false_of_not_eq_true hcommit)
      · exact h
    · exact h

end CrynuxRelay
