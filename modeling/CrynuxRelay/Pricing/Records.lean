import Mathlib.Data.List.Perm.Basic
import CrynuxRelay.Model.Calibration

/-!
# The records of calibrations

* `Folded` -- the history of a record: which samples are folded into it, over any number of restarts;
* `vramHull` -- what becomes of its bounds on memory; 0 stands for "no sample yet", so that a sample with
  0 is forgotten by the next one: `vram_hull_iff`.
-/

namespace CrynuxRelay

open List

variable {cfg : PricingConfig} {r : GPUExecutionCalibration} {l : List Nat}

/-! ## bounds on memory -/

/-- `r` was created, calibrated with the requirements `l` and stored and loaded in between. -/
inductive Folded (cfg : PricingConfig) : GPUExecutionCalibration → List Nat → Prop
  | created (key : GPUCalibrationKey) : Folded cfg (cfg.createExactCalibration key) []
  | sample {r r' : GPUExecutionCalibration} {l : List Nat} {x : List Rat} {m : Nat} (h : Folded cfg r l)
    (hr : cfg.calibrated r x m = some r') : Folded cfg r' (l ++ [m])
  | reload {r : GPUExecutionCalibration} {l : List Nat} (h : Folded cfg r l) : Folded cfg (cfg.loaded r) l

def lowest (lo m : Nat) : Nat := if lo = 0 ∨ m < lo then m else lo

def vramHull (l : List Nat) : Nat × Nat := (l.foldl lowest 0, l.foldl max 0)

lemma range_calibrated {r' : GPUExecutionCalibration} {x : List Rat} {m : Nat}
    (h : cfg.calibrated r x m = some r') : r'.minVRAMRequirement = lowest r.minVRAMRequirement m ∧
      r'.maxVRAMRequirement = max r.maxVRAMRequirement m := by
  unfold PricingConfig.calibrated at h
  split at h
  · obtain ⟨p, -, rfl⟩ := Option.map_eq_some_iff.1 h
    exact ⟨rfl, by grind [updateVRAMRequirement]⟩
  · obtain ⟨p, -, rfl⟩ := Option.map_eq_some_iff.1 h
    exact ⟨rfl, by grind [updateVRAMRequirement]⟩
  · cases h

lemma range_loaded : (cfg.loaded r).minVRAMRequirement = r.minVRAMRequirement ∧
    (cfg.loaded r).maxVRAMRequirement = r.maxVRAMRequirement := by
  unfold PricingConfig.loaded
  split <;> split <;> exact ⟨rfl, rfl⟩

lemma Folded.range (h : Folded cfg r l) : (r.minVRAMRequirement, r.maxVRAMRequirement) = vramHull l := by
  induction h with
  | created key => rfl
  | sample h hr ih =>
    obtain ⟨hmin, hmax⟩ := range_calibrated hr
    obtain ⟨ihmin, ihmax⟩ := Prod.mk.inj ih
    rw [hmin, hmax, ihmin, ihmax, vramHull, foldl_append, foldl_append]
    rfl
  | reload h ih => rw [range_loaded.1, range_loaded.2, ih]

/-- without 0 the sentinel is only met at the start. -/
lemma foldl_lowest {lo : Nat} (hlo : lo ≠ 0) (hl : 0 ∉ l) : l.foldl lowest lo = l.foldl min lo := by
  induction l generalizing lo with
  | nil => rfl
  | cons m l ih =>
    have hm : lowest lo m = min lo m := by grind [lowest]
    rw [foldl_cons, foldl_cons, hm, ih]
    · grind
    · exact fun h => hl (mem_cons_of_mem m h)

lemma lowest_ne_zero (lo : Nat) {m : Nat} (hm : m ≠ 0) : lowest lo m ≠ 0 := by grind [lowest]

lemma min_eq_lowest (hl : l ≠ []) (h0 : 0 ∉ l ∨ ∀ m ∈ l, m = 0) : l.min? = some (l.foldl lowest 0) := by
  rcases h0 with h0 | h0
  · cases l with
    | nil => exact absurd rfl hl
    | cons m l =>
      obtain ⟨hm, hl⟩ := not_or.1 (fun h => h0 (mem_cons.2 h))
      rw [min?_cons', foldl_cons, show lowest 0 m = m from if_pos (.inl rfl), foldl_lowest (Ne.symm hm) hl]
  · obtain ⟨n, rfl⟩ : ∃ n, l = replicate n 0 := ⟨l.length, eq_replicate_of_mem h0⟩
    have hn : n ≠ 0 := fun h => hl (by rw [h]; rfl)
    have hfold : (replicate n 0).foldl lowest 0 = 0 := by
      clear hl h0 hn
      induction n with
      | zero => rfl
      | succ n ih => exact ih
    rw [hfold, min?_replicate_of_pos (Nat.pos_of_ne_zero hn)]

lemma max_eq_foldl (hl : l ≠ []) : l.max? = some (l.foldl max 0) := by
  cases l with
  | nil => exact absurd rfl hl
  | cons m l => rw [max?_cons', foldl_cons, Nat.zero_max]

/-- **the bounds of a record are those of its samples**, in every order, exactly if no sample requires 0 or
all do. -/
theorem vram_hull_iff (hl : l ≠ []) :
    (∀ cfg r l', Folded cfg r l' → (r.minVRAMRequirement, r.maxVRAMRequirement) = vramHull l') ∧
      ((∀ l', l'.Perm l → l.min? = some (vramHull l').1 ∧ l.max? = some (vramHull l').2) ↔
        0 ∉ l ∨ ∀ m ∈ l, m = 0) := by
  refine ⟨fun cfg r l' h => h.range, fun h => ?_, fun h l' hp => ?_⟩
  · by_contra hne
    obtain ⟨h0, m, hm, hm0⟩ : 0 ∈ l ∧ ∃ m ∈ l, m ≠ 0 := by simpa using hne
    -- with `m` at the end the lower bound is not 0
    have hp : (l.erase m ++ [m]).Perm l := (perm_append_singleton m _).trans (perm_cons_erase hm).symm
    have hmin := (h _ hp).1
    rw [vramHull, foldl_append] at hmin
    have hle := (min?_eq_some_iff.1 hmin).2 0 h0
    exact lowest_ne_zero _ hm0 (Nat.le_zero.1 hle)
  · have hl' : l' ≠ [] := fun e => hl (by rw [e] at hp; exact hp.symm.eq_nil)
    have hmem : 0 ∉ l' ∨ ∀ m ∈ l', m = 0 := by simpa only [vramHull, hp.mem_iff] using h
    refine ⟨min?_eq_some_iff.2 ?_, max?_eq_some_iff.2 ?_⟩
    · simpa only [vramHull, hp.mem_iff] using min?_eq_some_iff.1 (min_eq_lowest hl' hmem)
    · simpa only [vramHull, hp.mem_iff] using max?_eq_some_iff.1 (max_eq_foldl hl')

theorem vram_hull_two : [16, 8].min? = some (vramHull [8, 16]).1 ∧ [16, 8].max? = some (vramHull [8, 16]).2 :=
  (vram_hull_iff (by decide)).2.2 (by decide) _ (Perm.swap 16 8 [])

def flatPricing : PricingConfig := ⟨⟨0, 0, fun _ => 0⟩, fun r _ => some ([], r.parameters)⟩

/-- a sample that requires nothing and one that requires 8: the lower bound is 8. -/
theorem zero_requirement_forgotten :
    ((flatPricing.calibrated (flatPricing.createExactCalibration ⟨.sd, [], 24, [], [], 0, 0⟩) [] 0).bind
      fun r => flatPricing.calibrated r [] 8).map (fun r => (r.minVRAMRequirement, r.maxVRAMRequirement)) =
        some (8, 8) ∧ [0, 8].min? = some 0 := ⟨rfl, rfl⟩

end CrynuxRelay
