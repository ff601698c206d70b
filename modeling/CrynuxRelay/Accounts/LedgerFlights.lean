import CrynuxRelay.Base.Run
import CrynuxRelay.Tasks.Books

/-!
# Transactions in flight

* `Instr.inserts`, `Instr.posts` -- the events and the cache updates that an instruction still owes;
* `LedgerTx.Before` -- the transactions that an instruction belongs to, and what follows it there;
* `LoadsFirst` -- a program loads an account before it updates it and before it commits an event of it;
* `ThreadOk` -- a transaction does what it owes: together its events and its cache updates are those of
  the transaction, one commit, loads first.
-/

namespace CrynuxRelay

open List Instr

variable {d : EventDraft} {x : Int} {gs : List (List EventDraft)} {instr : Instr}
  {cached cached' : Text → Prop} {inserted ds : List EventDraft} {l rest : List Instr}
    {tx : LedgerTx} {a : Text} {f : Thread}

/-! ## what instructions do -/

def Instr.inserts : Instr → List EventDraft
  | .insert ds => ds
  | _ => []

def Instr.posts : Instr → List (Posting Text Int)
  | .apply ds => increments ds
  | .charge a x | .subtract a x => [⟨a, -x⟩]
  | _ => []

def Instr.isCommit : Instr → Bool
  | .commit => true
  | _ => false

/-- the program loads accounts in time: `cached` are the accounts in the cache, `inserted` the events so
far. -/
def LoadsFirst (cached : Text → Prop) (inserted : List EventDraft) : List Instr → Prop
  | [] => True
  | .load a :: l => LoadsFirst (fun b => cached b ∨ b = a) inserted l
  | .precheck _ _ :: l => LoadsFirst cached inserted l
  | .insert ds :: l => LoadsFirst cached (inserted ++ ds) l
  | .apply ds :: l => (∀ d ∈ ds, cached d.address) ∧ LoadsFirst cached inserted l
  | .charge a _ :: l => cached a ∧ LoadsFirst cached inserted l
  | .lockCheck a _ :: l => cached a ∧ LoadsFirst cached inserted l
  | .commit :: l => (∀ d ∈ inserted, cached d.address) ∧ LoadsFirst cached inserted l
  | .subtract a _ :: l => cached a ∧ LoadsFirst cached inserted l

lemma LoadsFirst.mono (h : ∀ a, cached a → cached' a) (hl : LoadsFirst cached inserted l) :
    LoadsFirst cached' inserted l := by
  induction l generalizing cached cached' inserted with
  | nil => exact trivial
  | cons instr l ih =>
    cases instr with
    | load a => exact ih (fun b hb => hb.imp_left (h b)) hl
    | precheck a x => exact ih h hl
    | insert ds => exact ih h hl
    | apply ds => exact ⟨fun d hd => h _ (hl.1 d hd), ih h hl.2⟩
    | commit => exact ⟨fun d hd => h _ (hl.1 d hd), ih h hl.2⟩
    | _ => exact ⟨h _ hl.1, ih h hl.2⟩

def Instr.loads : Instr → List Text
  | .load a => [a]
  | _ => []

section
variable (h : LoadsFirst cached inserted (instr :: rest))
include h

lemma LoadsFirst.next (hc : ∀ b, cached b ∨ b ∈ instr.loads → cached' b) :
    LoadsFirst cached' (inserted ++ instr.inserts) rest := by
  have hmono : ∀ b, cached b → cached' b := fun b hb => hc b (.inl hb)
  cases instr with
  | insert ds => exact LoadsFirst.mono hmono h
  | load a =>
    simp only [inserts, append_nil]
    exact LoadsFirst.mono (fun b hb => hc b (hb.imp_right mem_singleton.2)) h
  | precheck a x =>
    simp only [inserts, append_nil]
    exact LoadsFirst.mono hmono h
  | _ =>
    simp only [inserts, append_nil]
    exact LoadsFirst.mono hmono h.2

lemma LoadsFirst.posts_cached {p : Posting Text Int} (hp : p ∈ instr.posts) : cached p.account := by
  cases instr with
  | apply ds =>
    obtain ⟨d, hd, rfl⟩ := mem_map.1 hp
    exact h.1 d hd
  | charge a x | subtract a x =>
    rw [mem_singleton.1 hp]
    exact h.1
  | _ => cases hp

end

/-! ## programs -/

namespace LedgerTx

def Nonneg : LedgerTx → Prop
  | createTask _ _ fee => 0 ≤ fee
  | withdraw _ _ x => 0 ≤ x
  | fulfillWithdraw _ _ fee => 0 ≤ fee
  | rejectWithdraw _ _ x => 0 ≤ x
  | taskRefund _ _ fee => 0 ≤ fee
  | taskIncome _ payments => ∀ p ∈ payments, 0 ≤ p.payment
  | vestingRelease _ _ x y => x ≤ y

lemma Nonneg.amount_nonneg (h : tx.Nonneg) (hd : d ∈ tx.drafts) : 0 ≤ d.amount := by
  cases tx with
  | taskIncome env payments =>
    obtain ⟨g, hg, hd⟩ := mem_flatten.1 hd
    obtain ⟨p, hp, rfl⟩ := mem_map.1 hg
    exact taskIncomeEvents_nonneg (h p hp) hd
  | vestingRelease id a x y =>
    have h : x ≤ y := h
    rw [mem_singleton.1 hd]
    show 0 ≤ y - x
    omega
  | _ => rw [mem_singleton.1 hd]; exact h

lemma drafts_of_charged (h : tx.charged = some (a, x)) :
    ∃ d, tx.drafts = [d] ∧ d.address = a ∧ d.posting = ⟨a, -x⟩ := by
  cases tx with
  | createTask c b fee => cases h; exact ⟨_, rfl, rfl, rfl⟩
  | withdraw id b y => cases h; exact ⟨_, rfl, rfl, rfl⟩
  | _ => cases h

lemma credits_of_not_charged (h : tx.charged = none) (hd : d ∈ tx.drafts) :
    d.type.isDebit = false := by
  cases tx with
  | createTask c a fee => cases h
  | withdraw id a x => cases h
  | taskIncome env payments =>
    obtain ⟨g, hg, hd⟩ := mem_flatten.1 hd
    obtain ⟨p, hp, rfl⟩ := mem_map.1 hg
    rw [settlementEvents, taskIncomeEvents] at hd
    simp only [mem_append, mem_map, mem_cons, not_mem_nil, or_false] at hd
    rcases hd with ⟨q, -, rfl⟩ | rfl | rfl <;> rfl
  | _ => rw [mem_singleton.1 hd]; rfl

lemma program_of_not_charged (h : tx.charged = none) : tx.program = creditProgram tx.groups := by
  cases tx with
  | createTask c a fee => cases h
  | withdraw id a x => cases h
  | _ => rfl

lemma inserts_map {α : Type} {f : α → Instr} (h : ∀ x, (f x).inserts = []) (l : List α) :
    (l.map f).flatMap inserts = [] :=
  flatMap_eq_nil_iff.2 fun i hi => by obtain ⟨x, -, rfl⟩ := mem_map.1 hi; exact h x

lemma inserts_creditProgram (gs : List (List EventDraft)) :
    (creditProgram gs).flatMap inserts = gs.flatten := by
  rw [creditProgram, flatMap_append, flatMap_append, inserts_map fun _ => rfl]
  simp only [flatMap_cons, flatMap_nil, append_nil, inserts]
  induction gs with
  | nil => rfl
  | cons g gs ih =>
    rw [flatMap_cons, flatMap_append, flatMap_cons, inserts_map fun _ => rfl, append_nil, ih]
    rfl

lemma posts_creditProgram (gs : List (List EventDraft)) :
    (creditProgram gs).flatMap posts = increments gs.flatten := by
  have hfirst : (gs.flatMap fun g => insert g :: g.map fun d => load d.address).flatMap
      posts = [] := by
    refine flatMap_eq_nil_iff.2 fun i hi => ?_
    obtain ⟨g, -, hi⟩ := mem_flatMap.1 hi
    rcases mem_cons.1 hi with rfl | hi
    · rfl
    · obtain ⟨d, -, rfl⟩ := mem_map.1 hi
      rfl
  rw [creditProgram, flatMap_append, flatMap_append, hfirst, nil_append]
  simp only [flatMap_cons, flatMap_nil, append_nil, posts]
  clear hfirst
  induction gs with
  | nil => rfl
  | cons g gs ih =>
    rw [map_cons, flatMap_cons, ih, flatten_cons, increments, increments, map_append]
    rfl

/-- **the events of a program** are those of its transaction. -/
theorem inserts_program (tx : LedgerTx) : tx.program.flatMap inserts = tx.drafts := by
  cases h : tx.charged with
  | none => rw [program_of_not_charged h, inserts_creditProgram, drafts]
  | some p =>
    cases tx with
    | createTask c a fee => rfl
    | withdraw id a x => rfl
    | _ => cases h

/-- **the cache updates of a program** are the signed amounts of its events. -/
theorem posts_program (tx : LedgerTx) : tx.program.flatMap posts = tx.drafts.map (·.posting) := by
  cases h : tx.charged with
  | none =>
    rw [program_of_not_charged h, posts_creditProgram]
    refine map_congr_left fun d hd => ?_
    rw [EventDraft.posting, credits_of_not_charged h hd]
    rfl
  | some p =>
    cases tx with
    | createTask c a fee => rfl
    | withdraw id a x => rfl
    | _ => cases h

lemma commits_creditProgram (gs : List (List EventDraft)) :
    (creditProgram gs).countP isCommit = 1 := by
  have hfirst : (gs.flatMap fun g => insert g :: g.map fun d => load d.address).countP
      isCommit = 0 := by
    refine countP_eq_zero.2 fun i hi => ?_
    obtain ⟨g, -, hi⟩ := mem_flatMap.1 hi
    rcases mem_cons.1 hi with rfl | hi
    · exact Bool.false_ne_true
    · obtain ⟨d, -, rfl⟩ := mem_map.1 hi
      exact Bool.false_ne_true
  have happly : (gs.map apply).countP isCommit = 0 := by
    refine countP_eq_zero.2 fun i hi => ?_
    obtain ⟨g, -, rfl⟩ := mem_map.1 hi
    exact Bool.false_ne_true
  rw [creditProgram, countP_append, countP_append, hfirst, happly]
  rfl

lemma commits_program (tx : LedgerTx) : tx.program.countP isCommit = 1 := by
  cases h : tx.charged with
  | none => rw [program_of_not_charged h, commits_creditProgram]
  | some p =>
    cases tx with
    | createTask c a fee => rfl
    | withdraw id a x => rfl
    | _ => cases h

lemma loadsFirst_loads {g : List EventDraft}
    (h : LoadsFirst (fun b => cached b ∨ ∃ d ∈ g, d.address = b) inserted rest) :
    LoadsFirst cached inserted ((g.map fun d => load d.address) ++ rest) := by
  induction g generalizing cached with
  | nil => exact h.mono fun b hb => hb.elim id fun ⟨d, hd, _⟩ => absurd hd not_mem_nil
  | cons d g ih =>
    refine ih (h.mono fun b hb => ?_)
    rcases hb with hb | ⟨d', hd', hb⟩
    · exact .inl (.inl hb)
    · rcases mem_cons.1 hd' with rfl | hd'
      · exact .inl (.inr hb.symm)
      · exact .inr ⟨d', hd', hb⟩

lemma loadsFirst_groups
    (h : LoadsFirst (fun b => cached b ∨ ∃ d ∈ gs.flatten, d.address = b) (inserted ++ gs.flatten) rest) :
    LoadsFirst cached inserted
      ((gs.flatMap fun g => insert g :: g.map fun d => load d.address) ++ rest) := by
  induction gs generalizing cached inserted with
  | nil =>
    rw [flatten_nil, append_nil] at h
    exact h.mono fun b hb => hb.elim id fun ⟨d, hd, _⟩ => absurd hd not_mem_nil
  | cons g gs ih =>
    rw [flatMap_cons, append_assoc]
    refine loadsFirst_loads (ih ?_)
    rw [flatten_cons, ← append_assoc] at h
    refine h.mono fun b hb => ?_
    rcases hb with hb | ⟨d, hd, hb⟩
    · exact .inl (.inl hb)
    · rcases mem_append.1 hd with hd | hd
      · exact .inl (.inr ⟨d, hd, hb⟩)
      · exact .inr ⟨d, hd, hb⟩

lemma loadsFirst_applies (hgs : ∀ g ∈ gs, ∀ d ∈ g, cached d.address)
    (hin : ∀ d ∈ inserted, cached d.address) :
    LoadsFirst cached inserted (gs.map apply ++ [.commit]) := by
  induction gs with
  | nil => exact ⟨hin, trivial⟩
  | cons g gs ih =>
    exact ⟨hgs g mem_cons_self, ih fun g' hg' => hgs g' (mem_cons_of_mem g hg')⟩

/-- **a program loads first**, whatever is in the cache. -/
theorem loadsFirst_program (cached : Text → Prop) (tx : LedgerTx) :
    LoadsFirst cached [] tx.program := by
  cases h : tx.charged with
  | none =>
    rw [program_of_not_charged h, creditProgram, append_assoc]
    refine loadsFirst_groups (loadsFirst_applies (fun g hg d hd => ?_) fun d hd => ?_)
    · exact .inr ⟨d, mem_flatten.2 ⟨g, hg, hd⟩, rfl⟩
    · exact .inr ⟨d, hd, rfl⟩
  | some p =>
    cases tx with
    | createTask c a fee =>
      refine ⟨.inr rfl, fun d hd => ?_, .inr rfl, trivial⟩
      rw [mem_singleton.1 hd]
      exact .inr rfl
    | withdraw id a x =>
      refine ⟨.inr rfl, fun d hd => ?_, trivial⟩
      rw [mem_singleton.1 hd]
      exact .inr rfl
    | _ => cases h

lemma suffix_createTask {c : Text} {fee : Int} (h : l <:+ (createTask c a fee).program) :
    l = (createTask c a fee).program ∨
      l = [.lockCheck a fee, .insert (createTask c a fee).drafts, .commit, .subtract a fee] ∨
      l = [.insert (createTask c a fee).drafts, .commit, .subtract a fee] ∨
      l = [.commit, .subtract a fee] ∨ l = [.subtract a fee] ∨ l = [] := by
  simp only [program, suffix_cons_iff, suffix_nil] at h
  exact h

/-- `tx` has an instruction that is followed by `rest`. -/
def Before (tx : LedgerTx) (rest : List Instr) : Instr → Prop
  | .load _ => True
  | .precheck a x => ∃ id, tx = withdraw id a x ∧ rest = [.insert tx.drafts, .charge a x, .commit]
  | .insert _ => Instr.commit ∈ rest
  | .apply _ => tx.charged = none
  | .charge a x => ∃ id, tx = withdraw id a x ∧ rest = [.commit]
  | .lockCheck a x =>
    ∃ c, tx = createTask c a x ∧ rest = [.insert tx.drafts, .commit, .subtract a x]
  | .commit => tx.charged = none ∨ rest = [] ∨ ∃ a x, rest = [.subtract a x]
  | .subtract a x => ∃ c, tx = createTask c a x ∧ rest = []

/-- **an instruction tells its transaction.** -/
theorem before_of_suffix (h : instr :: rest <:+ tx.program) : tx.Before rest instr := by
  cases hc : tx.charged with
  | none =>
    rw [program_of_not_charged hc] at h
    have hmem := h.subset mem_cons_self
    simp only [creditProgram, mem_append, mem_flatMap, mem_cons, mem_map, not_mem_nil, or_false] at hmem
    rcases hmem with (⟨g, -, rfl | ⟨d, -, rfl⟩⟩ | ⟨g, -, rfl⟩) | rfl
    · obtain ⟨before, hb⟩ := h
      have hlast := congrArg getLast? hb
      rw [creditProgram, getLast?_append, getLast?_concat] at hlast
      cases rest with
      | nil => cases hlast
      | cons i l => exact mem_of_getLast? hlast
    · trivial
    · exact hc
    · exact .inl hc
  | some p =>
    cases tx with
    | createTask c a fee =>
      rcases suffix_createTask h with h | h | h | h | h | h <;> cases h
      · trivial
      · exact ⟨c, rfl, rfl⟩
      · exact mem_cons_self
      · exact .inr (.inr ⟨a, fee, rfl⟩)
      · exact ⟨c, rfl, rfl⟩
    | withdraw id a x =>
      simp only [program, suffix_cons_iff, suffix_nil] at h
      rcases h with h | h | h | h | h | h <;> cases h
      · trivial
      · exact ⟨id, rfl, rfl⟩
      · exact mem_cons_of_mem _ mem_cons_self
      · exact ⟨id, rfl, rfl⟩
      · exact .inr (.inl rfl)
    | _ => cases hc

end LedgerTx

/-! ## flights -/

/-- a transaction in flight, with respect to the accounts in the cache. -/
structure ThreadOk (cached : Text → Prop) (f : Thread) : Prop where
  suffix : f.todo <:+ f.tx.program
  drafts : f.inserted.map (·.draft) ++ f.todo.flatMap Instr.inserts = f.tx.drafts
  posts : f.applied ++ f.todo.flatMap Instr.posts = f.tx.drafts.map (·.posting)
  commits : f.todo.countP Instr.isCommit + f.committed.toNat = 1
  loads : LoadsFirst cached (f.inserted.map (·.draft)) f.todo
  applied_cached : ∀ p ∈ f.applied, cached p.account
  committed_cached : f.committed = true → ∀ e ∈ f.inserted, cached e.address
  pending : ∀ e ∈ f.inserted, e.status = .pending

structure Thread.RolledBack (f : Thread) : Prop where
  todo : f.todo = []
  inserted : f.inserted = []
  applied : f.applied = []
  committed : f.committed = false

lemma Thread.rolledBack_rollback (f : Thread) : f.rollback.RolledBack := ⟨rfl, rfl, rfl, rfl⟩

/-- what a transaction has added to the cache and not yet to the visible events. -/
def Thread.ahead (f : Thread) (a : Text) : Int :=
  total f.applied a - if f.committed then total (f.inserted.map (·.posting)) a else 0

lemma Thread.RolledBack.ahead_eq (h : f.RolledBack) (a : Text) : f.ahead a = 0 := by
  rw [ahead, h.applied, h.committed]
  rfl

/-- **a finished transaction is not ahead**: its cache updates are its events. -/
theorem ThreadOk.ahead_of_finished (h : ThreadOk cached f) (hf : f.todo = []) (a : Text) :
    f.ahead a = 0 := by
  have hd := h.drafts
  have hp := h.posts
  have hc := h.commits
  rw [hf, flatMap_nil, append_nil] at hd hp
  rw [hf, countP_nil] at hc
  have hcommitted : f.committed = true := by
    cases hb : f.committed with
    | false => rw [hb] at hc; simp at hc
    | true => rfl
  rw [Thread.ahead, hp, ← hd, map_map, hcommitted, if_pos rfl]
  exact sub_self _

lemma ThreadOk.ahead_of_not_cached (h : ThreadOk cached f) (ha : ¬ cached a) : f.ahead a = 0 := by
  have happlied : total f.applied a = 0 :=
    total_of_not_mem fun p hp he => ha (he ▸ h.applied_cached p hp)
  rw [Thread.ahead, happlied]
  split
  · next hc =>
    have hin : total (f.inserted.map (·.posting)) a = 0 := by
      refine total_of_not_mem fun p hp he => ?_
      obtain ⟨e, hmem, rfl⟩ := mem_map.1 hp
      exact ha (he ▸ h.committed_cached hc e hmem)
    rw [hin, sub_zero]
  · rfl

lemma ThreadOk.mono (hc : ∀ a, cached a → cached' a) (h : ThreadOk cached f) :
    ThreadOk cached' f where
  suffix := h.suffix
  drafts := h.drafts
  posts := h.posts
  commits := h.commits
  loads := h.loads.mono hc
  applied_cached := fun p hp => hc _ (h.applied_cached p hp)
  committed_cached := fun hb e he => hc _ (h.committed_cached hb e he)
  pending := h.pending

lemma threadOk_start (cached : Text → Prop) (tx : LedgerTx) (snapshot : Text → Int) :
    ThreadOk cached ⟨tx, tx.program, snapshot, [], [], false⟩ where
  suffix := suffix_refl _
  drafts := tx.inserts_program
  posts := tx.posts_program
  commits := by
    show tx.program.countP _ + 0 = 1
    rw [tx.commits_program]
  loads := tx.loadsFirst_program cached
  applied_cached := nofun
  committed_cached := fun h => absurd h Bool.false_ne_true
  pending := nofun

def Thread.next (f : Thread) (instr : Instr) (rest : List Instr) (first : Nat) : Thread :=
  { f with
    todo := rest
    inserted := f.inserted ++ newEvents first instr.inserts
    applied := f.applied ++ instr.posts
    committed := f.committed || instr.isCommit }

lemma Thread.next_of_skip (hin : instr.inserts = []) (hpost : instr.posts = [])
    (hc : instr.isCommit = false) (first : Nat) : f.next instr rest first = { f with todo := rest } := by
  simp [next, hin, hpost, hc, newEvents]

lemma Thread.next_of_post (hin : instr.inserts = []) (hc : instr.isCommit = false) (first : Nat) :
    f.next instr rest first = { f with todo := rest, applied := f.applied ++ instr.posts } := by
  simp [next, hin, hc, newEvents]

lemma map_draft_newEvents (first : Nat) (ds : List EventDraft) :
    (newEvents first ds).map (·.draft) = ds := by
  rw [newEvents, map_map]
  have hfun : (RelayAccountEvent.draft ∘ fun p : EventDraft × Nat =>
      (⟨first + p.2, p.1.address, p.1.amount, .pending, p.1.reason, p.1.type⟩ :
        RelayAccountEvent)) = Prod.fst := rfl
  rw [hfun, zipIdx_map_fst]

lemma mem_newEvents {first : Nat} {e : RelayAccountEvent} (h : e ∈ newEvents first ds) :
    e.status = .pending ∧ first ≤ e.id ∧ e.id < first + ds.length := by
  obtain ⟨p, hp, rfl⟩ := mem_map.1 h
  have hlt := snd_lt_of_mem_zipIdx hp
  refine ⟨rfl, ?_, ?_⟩
  · show first ≤ first + p.2
    omega
  · show first + p.2 < first + ds.length
    omega

section
variable (h : ThreadOk cached f)
include h

lemma ThreadOk.not_committed (hmem : commit ∈ f.todo) : f.committed = false := by
  have hcount := h.commits
  have hpos : 0 < f.todo.countP isCommit := countP_pos_iff.2 ⟨_, hmem, rfl⟩
  cases hb : f.committed with
  | false => rfl
  | true =>
    rw [hb, Bool.toNat_true] at hcount
    omega

variable (htodo : f.todo = instr :: rest)
include htodo

lemma ThreadOk.before : f.tx.Before rest instr := LedgerTx.before_of_suffix (htodo ▸ h.suffix)

lemma ThreadOk.inserts_of_committed (hc : f.committed = true) : instr.inserts = [] := by
  have hb := h.before htodo
  cases instr with
  | insert ds =>
    rw [h.not_committed (htodo ▸ mem_cons_of_mem _ hb)] at hc
    cases hc
  | _ => rfl

theorem ThreadOk.next (hc : ∀ b, cached b ∨ b ∈ instr.loads → cached' b) (first : Nat) :
    ThreadOk cached' (f.next instr rest first) where
  suffix := (suffix_cons instr rest).trans (htodo ▸ h.suffix)
  drafts := by
    have hd := h.drafts
    rw [htodo, flatMap_cons, ← append_assoc] at hd
    rwa [Thread.next, map_append, map_draft_newEvents]
  posts := by
    have hp := h.posts
    rwa [htodo, flatMap_cons, ← append_assoc] at hp
  commits := by
    have hcount := h.commits
    rw [htodo, countP_cons] at hcount
    show rest.countP isCommit + (f.committed || instr.isCommit).toNat = 1
    revert hcount
    cases f.committed <;> cases instr.isCommit <;> simp
  loads := by
    have hl := h.loads
    rw [htodo] at hl
    rw [Thread.next, map_append, map_draft_newEvents]
    exact hl.next hc
  applied_cached := fun p hp => by
    rcases mem_append.1 hp with hp | hp
    · exact hc _ (.inl (h.applied_cached p hp))
    · exact hc _ (.inl (LoadsFirst.posts_cached (htodo ▸ h.loads) hp))
  committed_cached := fun hb e he => by
    rcases Bool.or_eq_true_iff.1 hb with hb | hb
    · rw [Thread.next, h.inserts_of_committed htodo hb] at he
      exact hc _ (.inl (h.committed_cached hb e (by simpa [newEvents] using he)))
    · cases instr with
      | commit =>
        have hl : LoadsFirst cached _ (.commit :: rest) := htodo ▸ h.loads
        have he : e ∈ f.inserted := by simpa [Thread.next, inserts, newEvents] using he
        exact hc _ (.inl (hl.1 e.draft (mem_map_of_mem he)))
      | _ => cases hb
  pending := fun e he => by
    rcases mem_append.1 he with he | he
    · exact h.pending e he
    · exact (mem_newEvents he).1

end

end CrynuxRelay
