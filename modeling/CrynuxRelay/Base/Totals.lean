import Mathlib.Algebra.BigOperators.Group.List.Basic
import Mathlib.Algebra.Order.Group.Int
import Mathlib.Algebra.Ring.Int.Defs
import CrynuxRelay.Base.Table

/-!
# Rows that come and go, and their totals

* `Table.erase`, `Table.put`, `Table.filter` -- delete a row, write it whether it is there or not,
  keep the rows with a property;
* `Table.total` -- the sum of a weight over the rows; each write moves it by the rows it touches;
* `Table.total_foldl_put`, `Table.get_foldl_put_of_mem` -- many new rows;
* `Iteration` -- an order in which a map is walked through.
-/

set_option linter.unusedSectionVars false

/-- an order in which the entries of a map are walked through. -/
structure Iteration (α : Type) where
  order : List α → List α
  perm : ∀ l, (order l).Perm l

namespace Table

open Function List Option

variable {κ α : Type} [DecidableEq κ] {key : α → κ} {t : Table key}

def filter (t : Table key) (p : α → Bool) : Table key where
  keys := t.keys.filter fun k => (t.row k).any p
  row := fun k => (t.row k).filter p
  nodup := t.nodup.filter _
  mem_keys := fun k => by
    rw [List.mem_filter, t.mem_keys]
    cases t.row k with
    | none => simp
    | some v => cases hp : p v <;> simp [hp]
  key_row := fun k v h => t.key_row k v (Option.filter_eq_some_iff.1 h).1

def erase (t : Table key) (k : κ) : Table key := t.filter fun v => key v ≠ k

def put (t : Table key) (v : α) : Table key where
  keys := if (t.row (key v)).isSome then t.keys else t.keys ++ [key v]
  row := Function.update t.row (key v) (some v)
  nodup := by
    split
    · exact t.nodup
    · rename_i h
      exact t.nodup_concat h
  mem_keys := fun j => by
    by_cases hj : j = key v
    · subst hj
      split
      · rename_i h
        simp [t.mem_keys, h]
      · simp
    · split <;> simp [hj, t.mem_keys]
  key_row := t.key_update v

@[simp] lemma get_filter (t : Table key) (p : α → Bool) (k : κ) :
    (t.filter p).get k = (t.get k).filter p := rfl

lemma get_erase (t : Table key) (k j : κ) : (t.erase k).get j = if j = k then none else t.get j := by
  rw [erase, get_filter]
  cases hj : t.get j with
  | none => simp
  | some v =>
    have hv := key_of_get hj
    by_cases h : j = k
    all_goals simp [Option.filter, hv, h]

lemma get_put (t : Table key) (v : α) (j : κ) :
    (t.put v).get j = if j = key v then some v else t.get j := by
  by_cases h : j = key v
  · subst h
    rw [if_pos rfl]
    exact update_self ..
  · rw [if_neg h]
    exact update_of_ne h ..

lemma get_eq_none_of_keys_nil (h : t.keys = []) (k : κ) : t.get k = none := by
  cases hk : t.get k with
  | none => rfl
  | some v =>
    have hm := mem_keys_of_get hk
    rw [h] at hm
    exact absurd hm not_mem_nil

/-! ## totals -/

def total (t : Table key) (f : α → Int) : Int := (t.keys.map fun k => (t.get k).elim 0 f).sum

@[simp] lemma total_empty (f : α → Int) : (empty : Table key).total f = 0 := rfl

lemma total_eq_rows (t : Table key) (f : α → Int) : t.total f = (t.rows.map f).sum := by
  have h : ∀ l : List κ, (l.map fun k => (t.get k).elim 0 f).sum = ((l.filterMap t.row).map f).sum := by
    intro l
    induction l with
    | nil => rfl
    | cons k l ih =>
      rw [map_cons, sum_cons, ih]
      cases hk : t.row k with
      | none =>
        rw [filterMap_cons_none hk, show t.get k = none from hk]
        exact zero_add _
      | some v =>
        rw [filterMap_cons_some hk, show t.get k = some v from hk, map_cons, sum_cons]
        rfl
  exact h t.keys

lemma sum_map_update {l : List κ} (hl : l.Nodup) {k : κ} (hk : k ∈ l) (q q' : κ → Int)
    (h : ∀ j, j ≠ k → q' j = q j) : (l.map q').sum + q k = (l.map q).sum + q' k := by
  induction l with
  | nil => exact absurd hk not_mem_nil
  | cons a l ih =>
    obtain ⟨ha, hl⟩ := nodup_cons.1 hl
    simp only [map_cons, sum_cons]
    by_cases hak : a = k
    · subst hak
      have hc : l.map q' = l.map q := map_congr_left fun j hj => h j fun e => ha (e ▸ hj)
      rw [hc]
      omega
    · have hkl : k ∈ l := (mem_cons.1 hk).resolve_left fun e => hak e.symm
      rw [h a hak]
      have := ih hl hkl
      omega

/-- **a row is written**: the total moves by what stood there before. -/
theorem total_put (t : Table key) (v : α) (f : α → Int) :
    (t.put v).total f = t.total f - (t.get (key v)).elim 0 f + f v := by
  have hne : ∀ j, j ≠ key v → ((t.put v).get j).elim 0 f = (t.get j).elim 0 f := by
    intro j hj
    rw [get_put, if_neg hj]
  have hself : ((t.put v).get (key v)).elim 0 f = f v := by
    rw [get_put, if_pos rfl]
    rfl
  cases hk : t.get (key v) with
  | some w =>
    have hkeys : (t.put v).keys = t.keys := by
      show (if (t.row (key v)).isSome then t.keys else _) = t.keys
      rw [show t.row (key v) = some w from hk]
      rfl
    have hsum := sum_map_update t.nodup (mem_keys_of_get hk) (fun k => (t.get k).elim 0 f)
      (fun k => ((t.put v).get k).elim 0 f) hne
    simp only [hself, hk, elim_some] at hsum
    rw [total, total, hkeys, elim_some]
    omega
  | none =>
    have hkeys : (t.put v).keys = t.keys ++ [key v] := by
      show (if (t.row (key v)).isSome then t.keys else _) = _
      rw [show t.row (key v) = none from hk]
      rfl
    have hout : key v ∉ t.keys := by
      rw [t.mem_keys, show t.row (key v) = none from hk]
      exact Bool.false_ne_true
    have hold : t.keys.map (fun k => ((t.put v).get k).elim 0 f) =
        t.keys.map fun k => (t.get k).elim 0 f :=
      map_congr_left fun j hj => hne j fun e => hout (e ▸ hj)
    rw [total, total, hkeys, map_append, sum_append, hold, map_singleton,
      sum_singleton, hself, elim_none]
    omega

/-- **rows are deleted**: the total is that of the rows that stay. -/
theorem total_filter (t : Table key) (p : α → Bool) (f : α → Int) :
    (t.filter p).total f = t.total fun v => if p v then f v else 0 := by
  have h : ∀ l : List κ,
      ((l.filter fun k => (t.row k).any p).map fun k => ((t.filter p).get k).elim 0 f).sum =
        (l.map fun k => (t.get k).elim 0 fun v => if p v then f v else 0).sum := by
    intro l
    induction l with
    | nil => rfl
    | cons k l ih =>
      rw [map_cons, sum_cons, ← ih, filter_cons]
      cases hk : t.row k with
      | none =>
        rw [show t.get k = none from hk]
        simp
      | some v =>
        have hget : t.get k = some v := hk
        cases hp : p v with
        | true => simp [hp, hget, Option.filter]
        | false => simp [hp, hget]
  exact h t.keys

lemma total_congr {f g : α → Int} (h : ∀ k v, t.get k = some v → f v = g v) :
    t.total f = t.total g := by
  unfold total
  congr 1
  refine map_congr_left fun k _ => ?_
  cases hk : t.get k with
  | none => rfl
  | some v => exact h k v hk

lemma total_eq_zero {f : α → Int} (h : ∀ k v, t.get k = some v → f v = 0) : t.total f = 0 := by
  refine sum_eq_zero fun x hx => ?_
  obtain ⟨k, _, rfl⟩ := List.mem_map.1 hx
  cases hk : t.get k with
  | none => rfl
  | some v => exact h k v hk

lemma total_sub (t : Table key) (f g : α → Int) :
    (t.total fun v => f v - g v) = t.total f - t.total g := by
  unfold total
  generalize t.keys = l
  induction l with
  | nil => rfl
  | cons k l ih =>
    simp only [map_cons, sum_cons]
    cases t.get k with
    | none =>
      simp only [elim_none]
      omega
    | some v =>
      simp only [elim_some]
      omega

lemma total_single {k : κ} {f : α → Int}
    (h : ∀ j v, t.get j = some v → j ≠ k → f v = 0) : t.total f = (t.get k).elim 0 f := by
  have hzero : ∀ l : List κ, k ∉ l → (l.map fun j => (t.get j).elim 0 f).sum = 0 := by
    intro l
    induction l with
    | nil => exact fun _ => rfl
    | cons j l ih =>
      intro hk
      rw [map_cons, sum_cons, ih fun hm => hk (mem_cons_of_mem _ hm)]
      cases hj : t.get j with
      | none => rfl
      | some v =>
        rw [elim_some, h j v hj fun e => hk (e ▸ mem_cons_self ..)]
        rfl
  by_cases hk : k ∈ t.keys
  · have hsum := sum_map_update t.nodup hk (fun j => (t.get j).elim 0 f)
      (fun j => if j = k then 0 else (t.get j).elim 0 f) fun j hj => if_neg hj
    have hrest : (t.keys.map fun j => if j = k then 0 else (t.get j).elim 0 f).sum = 0 := by
      refine sum_eq_zero fun x hx => ?_
      obtain ⟨j, _, rfl⟩ := List.mem_map.1 hx
      by_cases hj : j = k
      · exact if_pos hj
      · rw [if_neg hj]
        cases hg : t.get j with
        | none => rfl
        | some v => exact h j v hg hj
    simp only [if_pos] at hsum
    rw [total]
    omega
  · rw [total, hzero t.keys hk]
    cases hg : t.get k with
    | none => rfl
    | some v => exact absurd (mem_keys_of_get hg) hk

lemma total_erase (t : Table key) (k : κ) (f : α → Int) :
    (t.erase k).total f = t.total f - (t.get k).elim 0 f := by
  have hone : (t.total fun v => f v - if decide (key v ≠ k) then f v else 0) =
      (t.get k).elim 0 fun v => f v - if decide (key v ≠ k) then f v else 0 := by
    refine total_single fun j v hj hne => ?_
    have hv : key v ≠ k := fun e => hne ((key_of_get hj).symm.trans e)
    simp [hv]
  rw [total_sub] at hone
  rw [erase, total_filter]
  cases hk : t.get k with
  | none =>
    rw [hk, elim_none] at hone
    rw [elim_none]
    omega
  | some v =>
    have hv := key_of_get hk
    have hval : (f v - if decide (key v ≠ k) then f v else 0) = f v := by simp [hv]
    rw [hk, elim_some, hval] at hone
    rw [elim_some]
    omega

lemma total_eq_of_get {t t' : Table key} (h : ∀ k, t.get k = t'.get k) (f : α → Int) :
    t.total f = t'.total f := by
  have hp : t.keys.Perm t'.keys := by
    refine (perm_ext_iff_of_nodup t.nodup t'.nodup).2 fun k => ?_
    rw [t.mem_keys, t'.mem_keys, show t.row k = t'.row k from h k]
  unfold total
  rw [(hp.map _).sum_eq]
  refine congrArg List.sum (map_congr_left fun k _ => ?_)
  rw [h]

/-! ## rows written one after the other -/

lemma get_foldl_put_of_not_mem {l : List α} {k : κ} (h : k ∉ l.map key) :
    (l.foldl put t).get k = t.get k := by
  induction l generalizing t with
  | nil => rfl
  | cons v l ih =>
    have hne : k ≠ key v := fun e => h (by rw [e]; exact mem_cons_self ..)
    rw [foldl_cons, ih fun hm => h (mem_cons_of_mem _ hm), get_put, if_neg hne]

lemma get_foldl_put_of_mem {l : List α} (hl : (l.map key).Nodup) {v : α}
    (hv : v ∈ l) : (l.foldl put t).get (key v) = some v := by
  induction l generalizing t with
  | nil => exact absurd hv not_mem_nil
  | cons u l ih =>
    obtain ⟨hu, hl⟩ := nodup_cons.1 hl
    rw [foldl_cons]
    rcases mem_cons.1 hv with rfl | hv
    · rw [get_foldl_put_of_not_mem hu, get_put, if_pos rfl]
    · exact ih hl hv

lemma total_foldl_put {l : List α} (hl : (l.map key).Nodup) (hnew : ∀ v ∈ l, t.get (key v) = none)
    (f : α → Int) : (l.foldl put t).total f = t.total f + (l.map f).sum := by
  induction l generalizing t with
  | nil => simp
  | cons v l ih =>
    obtain ⟨hv, hl⟩ := nodup_cons.1 hl
    have hrest : ∀ u ∈ l, (t.put v).get (key u) = none := by
      intro u hu
      have hne : key u ≠ key v := fun e => hv (e ▸ List.mem_map_of_mem hu)
      rw [get_put, if_neg hne]
      exact hnew u (mem_cons_of_mem _ hu)
    rw [foldl_cons, ih hl hrest, total_put, hnew v (mem_cons_self ..), elim_none, map_cons, sum_cons]
    omega

lemma sum_filter_eq_total (t : Table key) {p : α → Bool} {f : α → Int}
    (h : ∀ v, p v = false → f v = 0) : ((t.rows.filter p).map f).sum = t.total f := by
  rw [total_eq_rows]
  induction t.rows with
  | nil => rfl
  | cons v l ih =>
    rw [filter_cons, map_cons, sum_cons]
    cases hp : p v with
    | true => rw [if_pos rfl, map_cons, sum_cons, ih]
    | false => rw [if_neg Bool.false_ne_true, ih, h v hp, zero_add]

end Table
