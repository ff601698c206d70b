import CrynuxRelay.Base.Json
import Mathlib.Data.List.Sort

/-!
# Canonical JSON values

A value is canonical if the fields of its objects are in strict key order.  Decoding gives canonical
values, and on canonical values it acts on the numbers alone.

* `Json.map` -- a function applied to the numbers of a value;
* `Json.Canonical`, `canonical_of_decode` -- decoded values are canonical;
* `decode_isSome` -- decoding fails on numbers only;
* `decode_map` -- **decoding a canonical value keeps its shape**;
* `Json.AllNum`, `map_decode_eq_iff` -- **numbers that are decoded and encoded again leave a value as it
  is exactly if each of them stays.**
-/

namespace Json

open List Option Prod

variable {ν μ κ α β : Type} {l m m' : List (Text × α)} {p : Text × α} {f : ν → Option μ}

/-! ## maps of fields -/

lemma sorted_iff_keys (m : List (Text × α)) : Sorted m ↔ (m.map fst).Pairwise (· < ·) := by
  rw [Sorted, pairwise_map]

lemma Sorted.of_keys {m' : List (Text × β)} (h : Sorted m)
    (hkeys : m'.map fst = m.map fst) : Sorted m' := by
  rwa [sorted_iff_keys, hkeys, ← sorted_iff_keys]

lemma get_eq_some (h : Sorted m) : get p.1 m = some p.2 ↔ p ∈ m := by
  induction m with
  | nil => simp [get]
  | cons q m ih =>
    obtain ⟨hq, hm⟩ := pairwise_cons.1 h
    by_cases hk : p.1 = q.1
    · have hp : p ∉ m := fun hp => (hq p hp).ne hk.symm
      simp [get, hk, get_eq_none hq, hp, Prod.ext_iff, eq_comm]
    · have hp : p ≠ q := fun hp => hk (congrArg fst hp)
      simp [get, hk, ih hm, hp]

lemma Sorted.ext (h : Sorted m) (h' : Sorted m') (hget : ∀ k, get k m = get k m') : m = m' := by
  have : Std.Irrefl fun p q : Text × α => p.1 < q.1 := ⟨fun p => lt_irrefl p.1⟩
  refine Pairwise.eq_of_mem_iff h h' fun p => ?_
  rw [← get_eq_some h, ← get_eq_some h', hget]

lemma mem_of_get {k : Text} {v : α} (h : get k l = some v) : (k, v) ∈ l := by
  induction l with
  | nil => cases h
  | cons p l ih =>
    rcases or_eq_some_iff.1 h with h | ⟨-, h⟩
    · exact mem_cons_of_mem p (ih h)
    · split at h
      · next hk =>
        cases h
        exact hk ▸ mem_cons_self
      · cases h

lemma toMap_of_sorted (h : Sorted l) : toMap l = l :=
  (sorted_toMap l).ext h fun k => get_toMap k l

lemma mem_toMap (h : p ∈ toMap l) : p ∈ l := by
  have hget := (get_eq_some (sorted_toMap l)).2 h
  rw [get_toMap] at hget
  exact mem_of_get hget

/-! ## canonical values -/

mutual

def map (f : ν → μ) : Json ν → Json μ
  | .null => .null
  | .bool b => .bool b
  | .num n => .num (f n)
  | .str s => .str s
  | .arr items => .arr (mapItems f items)
  | .obj fields => .obj (mapFields f fields)

def mapItems (f : ν → μ) : List (Json ν) → List (Json μ)
  | [] => []
  | j :: l => map f j :: mapItems f l

def mapFields (f : ν → μ) : List (Text × Json ν) → List (Text × Json μ)
  | [] => []
  | (k, j) :: l => (k, map f j) :: mapFields f l

end

mutual

def Canonical : Json ν → Prop
  | .arr items => CanonicalItems items
  | .obj fields => Sorted fields ∧ CanonicalFields fields
  | _ => True

def CanonicalItems : List (Json ν) → Prop
  | [] => True
  | j :: l => Canonical j ∧ CanonicalItems l

def CanonicalFields : List (Text × Json ν) → Prop
  | [] => True
  | (_, j) :: l => Canonical j ∧ CanonicalFields l

end

mutual

def AllNum (P : ν → Prop) : Json ν → Prop
  | .num n => P n
  | .arr items => AllNumItems P items
  | .obj fields => AllNumFields P fields
  | _ => True

def AllNumItems (P : ν → Prop) : List (Json ν) → Prop
  | [] => True
  | j :: l => AllNum P j ∧ AllNumItems P l

def AllNumFields (P : ν → Prop) : List (Text × Json ν) → Prop
  | [] => True
  | (_, j) :: l => AllNum P j ∧ AllNumFields P l

end

lemma canonicalFields_iff (l : List (Text × Json ν)) :
    CanonicalFields l ↔ ∀ p ∈ l, Canonical p.2 := by
  induction l with
  | nil => exact ⟨fun _ p hp => absurd hp not_mem_nil, fun _ => trivial⟩
  | cons p l ih =>
    rw [CanonicalFields, ih, forall_mem_cons]

lemma keys_decodeFields {l : List (Text × Json ν)} {m : List (Text × Json μ)}
    (h : decodeFields f l = some m) : m.map fst = l.map fst := by
  induction l generalizing m with
  | nil =>
    cases h
    rfl
  | cons p l ih =>
    obtain ⟨x, -, h⟩ := bind_eq_some_iff.1 h
    obtain ⟨t, ht, rfl⟩ := map_eq_some_iff.1 h
    rw [map_cons, map_cons, ih ht]

lemma keys_mapFields (f : ν → μ) (l : List (Text × Json ν)) :
    (mapFields f l).map fst = l.map fst := by
  induction l with
  | nil => rfl
  | cons p l ih =>
    rw [mapFields, map_cons, map_cons, ih]

mutual

theorem canonical_of_decode : ∀ {j : Json ν} {v : Json μ}, decode f j = some v → Canonical v
  | .null, v, h => by
    rw [decode] at h
    cases h
    trivial
  | .bool b, v, h => by
    rw [decode] at h
    cases h
    trivial
  | .num n, v, h => by
    rw [decode] at h
    obtain ⟨x, -, rfl⟩ := map_eq_some_iff.1 h
    trivial
  | .str s, v, h => by
    rw [decode] at h
    cases h
    trivial
  | .arr items, v, h => by
    rw [decode] at h
    obtain ⟨m, hm, rfl⟩ := map_eq_some_iff.1 h
    exact canonicalItems_of_decode hm
  | .obj fields, v, h => by
    rw [decode] at h
    obtain ⟨m, hm, rfl⟩ := map_eq_some_iff.1 h
    have hall := (canonicalFields_iff m).1 (canonicalFields_of_decode hm)
    exact ⟨sorted_toMap m, (canonicalFields_iff _).2 fun p hp => hall p (mem_toMap hp)⟩

theorem canonicalItems_of_decode : ∀ {l : List (Json ν)} {m : List (Json μ)},
    decodeItems f l = some m → CanonicalItems m
  | [], m, h => by
    rw [decodeItems] at h
    cases h
    trivial
  | j :: l, m, h => by
    rw [decodeItems] at h
    obtain ⟨x, hx, h⟩ := bind_eq_some_iff.1 h
    obtain ⟨t, ht, rfl⟩ := map_eq_some_iff.1 h
    exact ⟨canonical_of_decode hx, canonicalItems_of_decode ht⟩

theorem canonicalFields_of_decode : ∀ {l : List (Text × Json ν)} {m : List (Text × Json μ)},
    decodeFields f l = some m → CanonicalFields m
  | [], m, h => by
    rw [decodeFields] at h
    cases h
    trivial
  | (k, j) :: l, m, h => by
    rw [decodeFields] at h
    obtain ⟨x, hx, h⟩ := bind_eq_some_iff.1 h
    obtain ⟨t, ht, rfl⟩ := map_eq_some_iff.1 h
    exact ⟨canonical_of_decode hx, canonicalFields_of_decode ht⟩

end

mutual

theorem decode_isSome (hf : ∀ n, (f n).isSome = true) :
    ∀ j : Json ν, (decode f j).isSome = true
  | .null => rfl
  | .bool b => rfl
  | .num n => by rw [decode, isSome_map, hf]
  | .str s => rfl
  | .arr items => by rw [decode, isSome_map, decodeItems_isSome hf]
  | .obj fields => by rw [decode, isSome_map, decodeFields_isSome hf]

theorem decodeItems_isSome (hf : ∀ n, (f n).isSome = true) :
    ∀ l : List (Json ν), (decodeItems f l).isSome = true
  | [] => rfl
  | j :: l => by
    obtain ⟨x, hx⟩ := isSome_iff_exists.1 (decode_isSome hf j)
    rw [decodeItems, hx, bind_some, isSome_map, decodeItems_isSome hf]

theorem decodeFields_isSome (hf : ∀ n, (f n).isSome = true) :
    ∀ l : List (Text × Json ν), (decodeFields f l).isSome = true
  | [] => rfl
  | (k, j) :: l => by
    obtain ⟨x, hx⟩ := isSome_iff_exists.1 (decode_isSome hf j)
    rw [decodeFields, hx, bind_some, isSome_map, decodeFields_isSome hf]

end

section
variable {f : μ → Option κ} {g : ν → μ} {h : ν → κ}

mutual

theorem decode_map (hfg : ∀ n, f (g n) = some (h n)) : ∀ {j : Json ν}, Canonical j → decode f (map g j) = some (map h j)
  | .null, hc => rfl
  | .bool b, hc => rfl
  | .num n, hc => by rw [map, map, decode, hfg]; rfl
  | .str s, hc => rfl
  | .arr items, hc => by
    rw [map, map, decode, decodeItems_map hfg hc]
    rfl
  | .obj fields, hc => by
    have hsorted : Sorted (mapFields h fields) := hc.1.of_keys (keys_mapFields h fields)
    rw [map, map, decode, decodeFields_map hfg hc.2, map_some, toMap_of_sorted hsorted]

theorem decodeItems_map (hfg : ∀ n, f (g n) = some (h n)) : ∀ {l : List (Json ν)}, CanonicalItems l →
    decodeItems f (mapItems g l) = some (mapItems h l)
  | [], hc => rfl
  | j :: l, hc => by
    rw [mapItems, mapItems, decodeItems, decode_map hfg hc.1, decodeItems_map hfg hc.2]
    rfl

theorem decodeFields_map (hfg : ∀ n, f (g n) = some (h n)) : ∀ {l : List (Text × Json ν)}, CanonicalFields l →
    decodeFields f (mapFields g l) = some (mapFields h l)
  | [], hc => rfl
  | (k, j) :: l, hc => by
    rw [mapFields, mapFields, decodeFields, decode_map hfg hc.1, decodeFields_map hfg hc.2]
    rfl

end

end

mutual

theorem map_id : ∀ j : Json ν, map (fun n => n) j = j
  | .null => rfl
  | .bool b => rfl
  | .num n => rfl
  | .str s => rfl
  | .arr items => by rw [map, mapItems_id]
  | .obj fields => by rw [map, mapFields_id]

theorem mapItems_id : ∀ l : List (Json ν), mapItems (fun n => n) l = l
  | [] => rfl
  | j :: l => by rw [mapItems, map_id, mapItems_id]

theorem mapFields_id : ∀ l : List (Text × Json ν), mapFields (fun n => n) l = l
  | [] => rfl
  | (k, j) :: l => by rw [mapFields, map_id, mapFields_id]

end

/-! ## numbers that stay -/

variable {g : μ → ν}

mutual

/-- **numbers decoded and encoded again leave a canonical value as it is exactly if each stays.** -/
theorem map_decode_eq_iff : ∀ {j : Json ν}, Canonical j →
    ((decode f j).map (map g) = some j ↔ AllNum (fun n => (f n).map g = some n) j)
  | .null, hc => ⟨fun _ => trivial, fun _ => rfl⟩
  | .bool b, hc => ⟨fun _ => trivial, fun _ => rfl⟩
  | .num n, hc => by
    rw [decode, AllNum]
    cases f n with
    | none => exact ⟨fun h => (by cases h), fun h => (by cases h)⟩
    | some x =>
      show some (Json.num (g x)) = some (.num n) ↔ some (g x) = some n
      rw [some.injEq, some.injEq, Json.num.injEq]
  | .str s, hc => ⟨fun _ => trivial, fun _ => rfl⟩
  | .arr items, hc => by
    rw [AllNum, ← mapItems_decode_eq_iff hc, decode]
    cases decodeItems f items with
    | none => exact ⟨fun h => (by cases h), fun h => (by cases h)⟩
    | some m =>
      show some (Json.arr (mapItems g m)) = some (.arr items) ↔ some (mapItems g m) = some items
      rw [some.injEq, some.injEq, Json.arr.injEq]
  | .obj fields, hc => by
    rw [AllNum, ← mapFields_decode_eq_iff hc.2, decode]
    cases hm : decodeFields f fields with
    | none => exact ⟨fun h => (by cases h), fun h => (by cases h)⟩
    | some m =>
      have hsorted : Sorted m := hc.1.of_keys (keys_decodeFields hm)
      show some (Json.obj (mapFields g (toMap m))) = some (.obj fields) ↔
        some (mapFields g m) = some fields
      rw [toMap_of_sorted hsorted, some.injEq, some.injEq, Json.obj.injEq]

theorem mapItems_decode_eq_iff : ∀ {l : List (Json ν)}, CanonicalItems l →
    ((decodeItems f l).map (mapItems g) = some l ↔ AllNumItems (fun n => (f n).map g = some n) l)
  | [], hc => ⟨fun _ => trivial, fun _ => rfl⟩
  | j :: l, hc => by
    rw [AllNumItems, ← map_decode_eq_iff hc.1, ← mapItems_decode_eq_iff hc.2, decodeItems]
    cases decode f j with
    | none => exact ⟨fun h => (by cases h), fun h => (by cases h.1)⟩
    | some x =>
      cases decodeItems f l with
      | none => exact ⟨fun h => (by cases h), fun h => (by cases h.2)⟩
      | some m =>
        show some (map g x :: mapItems g m) = some (j :: l) ↔
          some (map g x) = some j ∧ some (mapItems g m) = some l
        rw [some.injEq, some.injEq, some.injEq, cons.injEq]

theorem mapFields_decode_eq_iff : ∀ {l : List (Text × Json ν)}, CanonicalFields l →
    ((decodeFields f l).map (mapFields g) = some l ↔ AllNumFields (fun n => (f n).map g = some n) l)
  | [], hc => ⟨fun _ => trivial, fun _ => rfl⟩
  | (k, j) :: l, hc => by
    rw [AllNumFields, ← map_decode_eq_iff hc.1, ← mapFields_decode_eq_iff hc.2, decodeFields]
    cases decode f j with
    | none => exact ⟨fun h => (by cases h), fun h => (by cases h.1)⟩
    | some x =>
      cases decodeFields f l with
      | none => exact ⟨fun h => (by cases h), fun h => (by cases h.2)⟩
      | some m =>
        show some ((k, map g x) :: mapFields g m) = some ((k, j) :: l) ↔
          some (map g x) = some j ∧ some (mapFields g m) = some l
        rw [some.injEq, some.injEq, some.injEq, cons.injEq, mk.injEq, and_iff_right rfl]

end

end Json
