import Mathlib.Logic.Function.Basic
import Mathlib.Data.List.Nodup
import Mathlib.Tactic.Common

/-!
# Keyed tables

A table has at most one row for a key, the row knows its key, and the keys are listed in the order
of insertion.

* `Table.insert` -- a new row, refused when its key is taken;
* `Table.modify`, `Table.mapRows` -- updates of one row and of all rows, which keep the keys;
* `Table.count` -- the number of rows with a property, and how the writes change it.
-/

set_option linter.unusedSectionVars false

/-- rows of type `α` under the unique key `key`. -/
structure Table {κ α : Type} (key : α → κ) where
  keys : List κ
  row : κ → Option α
  nodup : keys.Nodup
  mem_keys : ∀ k, k ∈ keys ↔ (row k).isSome
  key_row : ∀ k v, row k = some v → key v = k

namespace Table

open List Option

variable {κ α : Type} [DecidableEq κ] {key : α → κ}

def empty : Table key :=
  ⟨[], fun _ => none, List.nodup_nil, fun k => by simp, fun k v h => by simp at h⟩

def get (t : Table key) (k : κ) : Option α := t.row k

def rows (t : Table key) : List α := t.keys.filterMap t.row

def modify (t : Table key) (k : κ) (f : α → α) (hf : ∀ v, key (f v) = key v) : Table key where
  keys := t.keys
  row := Function.update t.row k ((t.row k).map f)
  nodup := t.nodup
  mem_keys := fun j => by
    rw [t.mem_keys]
    by_cases h : j = k
    · subst h; simp
    · simp [h]
  key_row := fun j v h => by
    by_cases hj : j = k
    · subst hj
      rw [Function.update_self, Option.map_eq_some_iff] at h
      obtain ⟨w, hw, rfl⟩ := h
      rw [hf, t.key_row _ _ hw]
    · rw [Function.update_of_ne hj] at h
      exact t.key_row _ _ h

def mapRows (t : Table key) (f : α → α) (hf : ∀ v, key (f v) = key v) : Table key where
  keys := t.keys
  row := fun k => (t.row k).map f
  nodup := t.nodup
  mem_keys := fun k => by rw [t.mem_keys, Option.isSome_map]
  key_row := fun k v h => by
    obtain ⟨w, hw, rfl⟩ := Option.map_eq_some_iff.1 h
    rw [hf, t.key_row _ _ hw]

lemma nodup_concat (t : Table key) {v : α} (h : ¬ (t.row (key v)).isSome) :
    (t.keys ++ [key v]).Nodup := by
  have hk : key v ∉ t.keys := fun hm => h ((t.mem_keys _).1 hm)
  refine nodup_append.2 ⟨t.nodup, nodup_singleton _, ?_⟩
  intro a ha b hb e
  rw [mem_singleton] at hb
  exact hk (hb ▸ e ▸ ha)

lemma key_update (t : Table key) (v : α) (j : κ) (w : α)
    (hw : Function.update t.row (key v) (some v) j = some w) : key w = j := by
  by_cases hj : j = key v
  · subst hj
    rw [Function.update_self, some.injEq] at hw
    rw [hw]
  · rw [Function.update_of_ne hj] at hw
    exact t.key_row _ _ hw

def insert (t : Table key) (v : α) : Table key :=
  if h : (t.row (key v)).isSome then t else
    { keys := t.keys ++ [key v]
      row := Function.update t.row (key v) (some v)
      nodup := t.nodup_concat h
      mem_keys := fun j => by
        by_cases hj : j = key v
        · subst hj; simp
        · simp [hj, t.mem_keys]
      key_row := t.key_update v }

def count (t : Table key) (p : α → Bool) : Nat := t.keys.countP fun k => (t.row k).any p

lemma ext' {t t' : Table key} (hk : t.keys = t'.keys) (hr : ∀ k, t.get k = t'.get k) : t = t' := by
  have hr' : t.row = t'.row := funext hr
  cases t
  cases t'
  subst hk
  subst hr'
  rfl

/-! ## reading after writing -/

@[simp, grind =] lemma get_empty (k : κ) : (empty : Table key).get k = none := rfl

@[grind →] lemma key_of_get {t : Table key} {k : κ} {v : α} (h : t.get k = some v) : key v = k :=
  t.key_row k v h

section
variable (t : Table key)
include t

@[grind =] lemma get_modify (k j : κ) (f : α → α) (hf : ∀ v, key (f v) = key v) :
    (t.modify k f hf).get j = if j = k then (t.get k).map f else t.get j := by
  by_cases h : j = k
  · subst h; simp [get, modify]
  · simp [get, modify, h]

@[simp] lemma get_modify_self (k : κ) (f : α → α)
    (hf : ∀ v, key (f v) = key v) : (t.modify k f hf).get k = (t.get k).map f := by
  rw [get_modify, if_pos rfl]

@[simp] lemma get_modify_ne {k j : κ} (f : α → α)
    (hf : ∀ v, key (f v) = key v) (h : j ≠ k) : (t.modify k f hf).get j = t.get j := by
  rw [get_modify, if_neg h]

lemma map_get_modify {β : Type*} {g : α → β} {k : κ} {f : α → α} (hf : ∀ v, key (f v) = key v)
    (hg : ∀ v, g (f v) = g v) (j : κ) : ((t.modify k f hf).get j).map g = (t.get j).map g := by
  rw [get_modify]
  split
  · next h =>
    rw [h, Option.map_map]
    congr 1
    exact funext hg
  · rfl

@[simp, grind =] lemma get_mapRows (f : α → α) (hf : ∀ v, key (f v) = key v) (k : κ) :
    (t.mapRows f hf).get k = (t.get k).map f := rfl

@[grind =] lemma get_insert (v : α) (j : κ) (hk : t.get (key v) = none) :
    (t.insert v).get j = if j = key v then some v else t.get j := by
  have h : ¬ (t.row (key v)).isSome := by
    rw [show t.row (key v) = none from hk]; simp
  by_cases hj : j = key v
  · subst hj; simp [get, insert, h]
  · simp [get, insert, h, hj]

@[simp] lemma keys_modify (k : κ) (f : α → α) (hf : ∀ v, key (f v) = key v) :
    (t.modify k f hf).keys = t.keys := rfl

lemma keys_insert (v : α) (hk : t.get (key v) = none) : (t.insert v).keys = t.keys ++ [key v] := by
  have h : ¬ (t.row (key v)).isSome := by
    rw [show t.row (key v) = none from hk]; simp
  simp only [insert, h]
  rfl

end

lemma mem_keys_of_get {t : Table key} {k : κ} {v : α} (h : t.get k = some v) : k ∈ t.keys := by
  rw [t.mem_keys, show t.row k = some v from h]; rfl

lemma mem_rows {t : Table key} {v : α} : v ∈ t.rows ↔ t.get (key v) = some v := by
  simp only [rows, mem_filterMap]
  constructor
  · rintro ⟨k, -, h⟩
    rwa [t.key_row k v h]
  · intro h
    exact ⟨key v, mem_keys_of_get h, h⟩

lemma map_key_rows (t : Table key) : t.rows.map key = t.keys := by
  have h : ∀ l : List κ, (∀ k ∈ l, k ∈ t.keys) → (l.filterMap t.row).map key = l := by
    intro l
    induction l with
    | nil => exact fun _ => rfl
    | cons k l ih =>
      intro hl
      obtain ⟨v, hv⟩ := isSome_iff_exists.1 ((t.mem_keys k).1 (hl k mem_cons_self))
      rw [filterMap_cons_some hv, map_cons, t.key_row k v hv,
        ih fun j hj => hl j (mem_cons_of_mem k hj)]
  exact h t.keys fun _ hk => hk

lemma nodup_map_key_rows (t : Table key) : (t.rows.map key).Nodup := by
  rw [map_key_rows]
  exact t.nodup

/-! ## counting -/

lemma count_congr {t t' : Table key} {p : α → Bool}
    (h : ∀ k, (t.get k).any p = (t'.get k).any p) : t.count p = t'.count p := by
  have hmem : ∀ {t : Table key} {k : κ}, (t.get k).any p = true → k ∈ t.keys := by
    intro t k hk
    cases hv : t.get k with
    | none => rw [hv] at hk; cases hk
    | some v => exact (t.mem_keys k).2 (by rw [show t.row k = some v from hv]; rfl)
  rw [count, count, countP_eq_length_filter, countP_eq_length_filter]
  refine List.Perm.length_eq ((perm_ext_iff_of_nodup (t.nodup.filter _) (t'.nodup.filter _)).2
    fun k => ?_)
  rw [mem_filter, mem_filter]
  constructor
  · intro hk
    have hk' : (t'.get k).any p = true := (h k).symm.trans hk.2
    exact ⟨hmem hk', hk'⟩
  · intro hk
    have hk' : (t.get k).any p = true := (h k).trans hk.2
    exact ⟨hmem hk', hk'⟩

lemma countP_update {l : List κ} (hl : l.Nodup) {k : κ} (hk : k ∈ l) (q q' : κ → Bool)
    (h : ∀ j, j ≠ k → q' j = q j) : l.countP q' + (q k).toNat = l.countP q + (q' k).toNat := by
  induction l with
  | nil => simp at hk
  | cons a l ih =>
    obtain ⟨ha, hl⟩ := nodup_cons.1 hl
    simp only [countP_cons]
    by_cases hak : a = k
    · subst hak
      have hc : l.countP q' = l.countP q :=
        countP_congr fun j hj => by rw [h j fun e => ha (e ▸ hj)]
      rw [hc]
      cases q a <;> cases q' a <;> simp
    · have hkl : k ∈ l := (mem_cons.1 hk).resolve_left fun e => hak e.symm
      rw [h a hak]
      have := ih hl hkl
      omega

lemma count_modify (t : Table key) {k : κ} {v : α} (hk : t.get k = some v) (f : α → α)
    (hf : ∀ v, key (f v) = key v) (p : α → Bool) :
    (t.modify k f hf).count p + (p v).toNat = t.count p + (p (f v)).toNat := by
  have hv : t.row k = some v := hk
  have hv' : (t.modify k f hf).row k = some (f v) := by
    rw [show (t.modify k f hf).row k = (t.row k).map f from get_modify_self t k f hf, hv]; rfl
  have := countP_update t.nodup (mem_keys_of_get hk) (fun j => (t.row j).any p)
    (fun j => ((t.modify k f hf).row j).any p) fun j hj => by
      rw [show (t.modify k f hf).row j = t.row j from get_modify_ne t f hf hj]
  simp only [hv', hv, any_some] at this
  exact this

/-- an update that gives no row the property leaves at most as many with it. -/
lemma count_modify_le (t : Table key) (k : κ) (f : α → α) (hf : ∀ v, key (f v) = key v) {p : α → Bool}
    (hp : ∀ v, p (f v) = true → p v = true) : (t.modify k f hf).count p ≤ t.count p := by
  refine countP_mono_left fun j _ hj => ?_
  have hget : (t.modify k f hf).row j = if j = k then (t.row k).map f else t.row j :=
    get_modify t k j f hf
  rw [hget] at hj
  split at hj
  · next hjk =>
    rw [hjk]
    cases hv : t.row k with
    | none => rw [hv] at hj; exact hj
    | some v => rw [hv] at hj; exact hp v hj
  · exact hj

lemma count_insert (t : Table key) (v : α) (hk : t.get (key v) = none) (p : α → Bool) :
    (t.insert v).count p = t.count p + (p v).toNat := by
  have h : ¬ (t.row (key v)).isSome := by
    rw [show t.row (key v) = none from hk]; simp
  have hm : key v ∉ t.keys := fun hm => h ((t.mem_keys _).1 hm)
  have hrow : ∀ j, (t.insert v).row j = if j = key v then some v else t.row j :=
    fun j => get_insert t v j hk
  have hold : t.keys.countP (fun j => ((t.insert v).row j).any p) = t.count p :=
    countP_congr fun j hj => by
      have hjk : j ≠ key v := fun e => hm (e ▸ hj)
      rw [hrow, if_neg hjk]
  rw [count, keys_insert t v hk, countP_append, hold, countP_singleton, hrow, if_pos rfl, any_some]
  cases p v <;> rfl

lemma count_pos {t : Table key} {k : κ} {v : α} {p : α → Bool} (hk : t.get k = some v)
    (hp : p v = true) : 0 < t.count p :=
  countP_pos_iff.2 ⟨k, mem_keys_of_get hk, by
    rw [show t.row k = some v from hk]; exact hp⟩

end Table
