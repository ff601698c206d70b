import CrynuxRelay.Base.Run
import CrynuxRelay.Base.Totals
import CrynuxRelay.Base.Text

/-!
# The maximum of the stakes

The store behind the staking scores keeps the largest recorded stake and rescans its map only when the
stake of the maximal address goes down.

* `MaxStaking` -- the store;
* `MaxExact` -- the maximum is that of the map: kept by `see` and `update`;
* `lastStake` -- the stake given last for an address; `get_run` -- it is the one in the map;
* `maxStaking_exact` -- **the maximum is that of the last stakes, after every sequence of updates.**
-/

namespace CrynuxRelay

open List Table

/-! ## the store -/

structure MaxStaking where
  maxStaking : Int := 0
  maxAddress : Text := []
  stakingMap : Table (Prod.fst : Text × Int → Text) := Table.empty

namespace MaxStaking

def record (g : MaxStaking) (p : Text × Int) : MaxStaking := { g with stakingMap := g.stakingMap.put p }

def see (g : MaxStaking) (p : Text × Int) : MaxStaking :=
  if g.maxStaking < p.2 then { g with maxStaking := p.2, maxAddress := p.1 } else g

def init (g : MaxStaking) (stakingMap : Table (Prod.fst : Text × Int → Text)) (it : Iteration (Text × Int)) : MaxStaking :=
  (it.order stakingMap.rows).foldl (fun g p => (g.record p).see p) g

def rescan (g : MaxStaking) (it : Iteration (Text × Int)) : MaxStaking :=
  (it.order g.stakingMap.rows).foldl see { g with maxStaking := 0, maxAddress := [] }

def update (g : MaxStaking) (address : Text) (staking : Int) (it : Iteration (Text × Int)) : MaxStaking :=
  let g := g.record (address, staking)
  if g.maxStaking < staking then { g with maxStaking := staking, maxAddress := address }
  else if address = g.maxAddress ∧ staking < g.maxStaking then g.rescan it
  else g

/-- the configured amount is converted to an `int64`. -/
def get (g : MaxStaking) (stakeAmount : Nat) : Int :=
  if g.maxStaking = 0 then Int.bmod stakeAmount (2 ^ 64) * 10 ^ 18 else g.maxStaking

end MaxStaking

structure StakeUpdate where
  address : Text
  staking : Int
  nonneg : 0 ≤ staking
  it : Iteration (Text × Int)

def StakeUpdate.exec (u : StakeUpdate) (g : MaxStaking) : MaxStaking := g.update u.address u.staking u.it

/-! ## the invariant -/

structure MaxExact (g : MaxStaking) : Prop where
  nonneg : 0 ≤ g.maxStaking
  bound : ∀ a p, g.stakingMap.get a = some p → 0 ≤ p.2 ∧ p.2 ≤ g.maxStaking
  held : g.stakingMap.get g.maxAddress = some (g.maxAddress, g.maxStaking) ∨ g.maxAddress = [] ∧ g.maxStaking = 0

variable {g : MaxStaking} {p : Text × Int} {l : List (Text × Int)} {it : Iteration (Text × Int)}

lemma MaxExact.see (h : MaxExact g) (hp : 0 ≤ p.2) (hlow : ¬ (p.1 = g.maxAddress ∧ p.2 < g.maxStaking)) :
    MaxExact ((g.record p).see p) := by
  obtain ⟨hnonneg, hbound, hheld⟩ := h
  constructor
  · grind [MaxStaking.see, MaxStaking.record]
  · grind [MaxStaking.see, MaxStaking.record, get_put]
  · -- the maximal address is recorded again with the maximum only
    grind [MaxStaking.see, MaxStaking.record, get_put]

/-- what a walk over entries leaves: their maximum, if it exceeds the one before. -/
lemma foldl_see (l : List (Text × Int)) (g : MaxStaking) : let g' := l.foldl MaxStaking.see g
    g'.stakingMap = g.stakingMap ∧ g.maxStaking ≤ g'.maxStaking ∧ (∀ p ∈ l, p.2 ≤ g'.maxStaking) ∧
      ((g'.maxAddress, g'.maxStaking) ∈ l ∨ g'.maxAddress = g.maxAddress ∧ g'.maxStaking = g.maxStaking) := by
  induction l generalizing g with
  | nil => simp
  | cons p l ih =>
    have h := ih (g.see p)
    grind [MaxStaking.see]

lemma map_see (g : MaxStaking) (p : Text × Int) : ((g.record p).see p).stakingMap = g.stakingMap.put p :=
  (foldl_see [p] (g.record p)).1

lemma MaxExact.rescan (h : ∀ a p, g.stakingMap.get a = some p → 0 ≤ p.2) : MaxExact (g.rescan it) := by
  obtain ⟨hmap, hle, hall, hheld⟩ :=
    foldl_see (it.order g.stakingMap.rows) { g with maxStaking := 0, maxAddress := [] }
  refine ⟨hle, fun a p hp => ?_, hheld.imp_left fun hm => ?_⟩
  · rw [MaxStaking.rescan, hmap] at hp
    have hrow : p ∈ it.order g.stakingMap.rows := (it.perm _).mem_iff.2 (mem_rows.2 (key_of_get hp ▸ hp))
    exact ⟨h a p hp, hall p hrow⟩
  · rw [MaxStaking.rescan, hmap]
    exact mem_rows.1 ((it.perm _).mem_iff.1 hm)

lemma MaxExact.update (h : MaxExact g) (u : StakeUpdate) : MaxExact (u.exec g) := by
  have hnonneg : ∀ a p, (g.record (u.address, u.staking)).stakingMap.get a = some p → 0 ≤ p.2 := by
    have hu := u.nonneg
    have hold := h.bound
    grind [MaxStaking.record, get_put]
  have hsee := h.see (p := (u.address, u.staking)) u.nonneg
  have hrescan : MaxExact ((g.record (u.address, u.staking)).rescan u.it) := MaxExact.rescan hnonneg
  grind [StakeUpdate.exec, MaxStaking.update, MaxStaking.see, MaxStaking.record]

/-- the entries of a map come with different addresses, so none of them lowers a maximum. -/
lemma MaxExact.init (h : MaxExact g) (hl : (l.map Prod.fst).Nodup) (hp : ∀ p ∈ l, 0 ≤ p.2)
    (hnew : ∀ p ∈ l, g.stakingMap.get p.1 = none) :
    MaxExact (l.foldl (fun g p => (g.record p).see p) g) := by
  induction l generalizing g with
  | nil => exact h
  | cons p l ih =>
    obtain ⟨hne, hl⟩ := nodup_cons.1 hl
    refine ih (h.see (hp p mem_cons_self) ?_) hl (fun q hq => hp q (mem_cons_of_mem _ hq)) fun q hq => ?_
    · rintro ⟨ha, hlt⟩
      rcases h.held with hheld | ⟨-, hzero⟩
      · rw [← ha, hnew p mem_cons_self] at hheld
        cases hheld
      · exact absurd (hp p mem_cons_self) (by omega)
    · rw [map_see, get_put, if_neg, hnew q (mem_cons_of_mem _ hq)]
      exact fun e => hne (e ▸ mem_map_of_mem hq)

def MaxStaking.recordedMax (g : MaxStaking) : Int := (g.stakingMap.rows.map Prod.snd).max?.getD 0

lemma MaxExact.eq_max (h : MaxExact g) : g.maxStaking = g.recordedMax := by
  have hbound : ∀ p ∈ g.stakingMap.rows, 0 ≤ p.2 ∧ p.2 ≤ g.maxStaking := fun p hp => h.bound _ p (mem_rows.1 hp)
  unfold MaxStaking.recordedMax
  cases hr : g.stakingMap.rows with
  | nil =>
    rcases h.held with hheld | ⟨-, hzero⟩
    · have hmem := (mem_rows (v := (g.maxAddress, g.maxStaking))).2 hheld
      rw [hr] at hmem
      cases hmem
    · exact hzero
  | cons q rows =>
    have hmax : ((q :: rows).map Prod.snd).max? = some g.maxStaking := by
      rw [max?_eq_some_iff, ← hr]
      refine ⟨?_, fun x hx => ?_⟩
      · rcases h.held with hheld | ⟨-, hzero⟩
        · exact mem_map_of_mem ((mem_rows (v := (g.maxAddress, g.maxStaking))).2 hheld)
        · -- no recorded stake is positive: the first one is 0
          have hq := hbound q (hr ▸ mem_cons_self)
          have hq0 : q.2 = g.maxStaking := by omega
          exact hq0 ▸ mem_map_of_mem (hr ▸ mem_cons_self)
      · obtain ⟨p, hp, rfl⟩ := mem_map.1 hx
        exact (hbound p hp).2
    rw [hmax]
    rfl

/-! ## the stakes in the map -/

def lastStake (m : Table (Prod.fst : Text × Int → Text)) (updates : List StakeUpdate) (a : Text) : Option (Text × Int) :=
  ((updates.map fun u => (u.address, u.staking)).reverse.find? fun p => p.1 = a).or (m.get a)

lemma get_foldl_put (l : List (Text × Int)) (t : Table (Prod.fst : Text × Int → Text)) (a : Text) :
    (l.foldl Table.put t).get a = (l.reverse.find? fun p => p.1 = a).or (t.get a) := by
  induction l generalizing t with
  | nil => rfl
  | cons p l ih =>
    rw [foldl_cons, ih, get_put, reverse_cons, find?_append, Option.or_assoc]
    by_cases h : p.1 = a
    · simp [h]
    · simp [h, Ne.symm h]

lemma map_init (l : List (Text × Int)) (g : MaxStaking) :
    (l.foldl (fun g p => (g.record p).see p) g).stakingMap = l.foldl Table.put g.stakingMap := by
  induction l generalizing g with
  | nil => rfl
  | cons p l ih => rw [foldl_cons, ih, map_see, foldl_cons]

lemma map_exec (u : StakeUpdate) (g : MaxStaking) : (u.exec g).stakingMap = g.stakingMap.put (u.address, u.staking) := by
  have hmap := (foldl_see (u.it.order (g.record (u.address, u.staking)).stakingMap.rows)
    { g.record (u.address, u.staking) with maxStaking := 0, maxAddress := [] }).1
  grind [StakeUpdate.exec, MaxStaking.update, MaxStaking.rescan, MaxStaking.record]

lemma map_run (updates : List StakeUpdate) (g : MaxStaking) : (run StakeUpdate.exec updates g).stakingMap =
    (updates.map fun u => (u.address, u.staking)).foldl Table.put g.stakingMap := by
  induction updates generalizing g with
  | nil => rfl
  | cons u updates ih => rw [run_cons, ih, map_exec, map_cons, foldl_cons]

lemma find?_rows (m : Table (Prod.fst : Text × Int → Text)) (hl : l.Perm m.rows) (a : Text) :
    l.find? (fun p => p.1 = a) = m.get a := by
  cases hf : l.find? (fun p => p.1 = a) with
  | some q =>
    have hq := mem_rows.1 (hl.mem_iff.1 (mem_of_find?_eq_some hf))
    have hk : q.1 = a := by simpa using find?_some hf
    rw [← hk, hq]
  | none =>
    cases hg : m.get a with
    | none => rfl
    | some p =>
      have hp : p ∈ l := hl.mem_iff.2 (mem_rows.2 (key_of_get hg ▸ hg))
      exact absurd (key_of_get hg) (by simpa using find?_eq_none.1 hf p hp)

/-- **the map holds the stake given last for each address.** -/
theorem get_run (m : Table (Prod.fst : Text × Int → Text)) (it : Iteration (Text × Int))
    (updates : List StakeUpdate) (a : Text) :
    (run StakeUpdate.exec updates (MaxStaking.init {} m it)).stakingMap.get a = lastStake m updates a := by
  have hrows : (it.order m.rows).reverse.Perm m.rows := (reverse_perm _).trans (it.perm _)
  rw [map_run, get_foldl_put, MaxStaking.init, map_init, get_foldl_put, find?_rows m hrows, get_empty, Option.or_none]
  rfl

/-- **the maximum is exact**: after one initialisation and every sequence of updates, whatever the orders in
which the maps are walked through, it is the maximum of the stakes given last. -/
theorem maxStaking_exact (m : Table (Prod.fst : Text × Int → Text)) (hm : ∀ p ∈ m.rows, 0 ≤ p.2)
    (it : Iteration (Text × Int)) (updates : List StakeUpdate) :
    let g := run StakeUpdate.exec updates (MaxStaking.init {} m it)
    (∀ a, g.stakingMap.get a = lastStake m updates a) ∧ g.maxStaking = g.recordedMax ∧
      (g.maxAddress ≠ [] → g.stakingMap.get g.maxAddress = some (g.maxAddress, g.recordedMax)) ∧
      (g.recordedMax ≠ 0 → g.stakingMap.get g.maxAddress = some (g.maxAddress, g.recordedMax)) ∧
      ∀ stakeAmount : Nat, g.get stakeAmount =
        if g.recordedMax = 0 then Int.bmod stakeAmount (2 ^ 64) * 10 ^ 18 else g.recordedMax := by
  have hinit : MaxExact (MaxStaking.init {} m it) := by
    have hp : (it.order m.rows).Perm m.rows := it.perm m.rows
    refine MaxExact.init ⟨le_refl _, by simp, .inr ⟨rfl, rfl⟩⟩ ?_ (fun p h => hm p (hp.mem_iff.1 h)) fun _ _ => rfl
    exact (hp.map _).nodup_iff.2 (nodup_map_key_rows m)
  have h : MaxExact (run StakeUpdate.exec updates (MaxStaking.init {} m it)) :=
    run_invariant (fun g u hg _ => hg.update u) updates _ (Along.of_forall (fun _ _ => trivial) _ _) hinit
  refine ⟨get_run m it updates, h.eq_max, fun ha => ?_, fun hne => ?_, fun n => ?_⟩
  · rw [← h.eq_max]
    exact h.held.resolve_right fun hnone => ha hnone.1
  · rw [← h.eq_max] at hne ⊢
    exact h.held.resolve_right fun hnone => hne hnone.2
  · rw [← h.eq_max]
    rfl

/-- the stake 9 of `b` is lowered to 3, and the maximum is the stake 7 that `c` was given before. -/
theorem maxStaking_exact_after_decrease :
    let given (a : Char) (staking : Nat) : StakeUpdate := ⟨[a], staking, Int.natCast_nonneg _, ⟨id, Perm.refl⟩⟩
    let g := run StakeUpdate.exec [given 'c' 7, given 'b' 9, given 'b' 3]
      (MaxStaking.init {} (Table.empty.put (['a'], 5)) ⟨id, Perm.refl⟩)
    g.maxStaking = 7 ∧ g.maxAddress = ['c'] ∧ g.stakingMap.get ['b'] = some (['b'], 3) := by
  intro given g
  obtain ⟨hmap, hmax, -⟩ := maxStaking_exact (Table.empty.put (['a'], 5)) (by decide) ⟨id, Perm.refl⟩
    [given 'c' 7, given 'b' 9, given 'b' 3]
  exact ⟨hmax.trans (by decide), by decide, hmap ['b']⟩

end CrynuxRelay
