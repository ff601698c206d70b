import CrynuxRelay.Base.Totals

/-!
# Maps of maps with a total for each outer key

An inner map that becomes empty is dropped, and the totals are kept beside the maps.

* `Nested.lookup`, `Nested.store`, `Nested.discard` -- read, write and delete one entry;
* `Nested.Exact` -- the maps hold the entries `live` and the totals are `w`;
* `Nested.Exact.store`, `Nested.Exact.discard`, `Nested.Exact.drop` -- the writes keep it, with the
  totals moved by the entries that go and the one that comes.
-/

set_option linter.unusedSectionVars false

/-- for each outer key a finite map of amounts. -/
abbrev Nested (κ ι : Type) := κ → Option (Table (Prod.fst : ι × Int → ι))

namespace Nested

open Function Option Table

variable {κ ι : Type} [DecidableEq κ] [DecidableEq ι]

def lookup (m : Nested κ ι) (o : κ) (i : ι) : Option Int :=
  ((m o).bind fun a => a.get i).map Prod.snd

/-- write an entry; a missing inner map is made. -/
def store (m : Nested κ ι) (o : κ) (i : ι) (x : Int) : Nested κ ι :=
  Function.update m o (some (((m o).getD Table.empty).put (i, x)))

/-- delete an entry; an empty inner map is deleted as well. -/
def discard (m : Nested κ ι) (o : κ) (i : ι) : Nested κ ι :=
  match m o with
  | none => m
  | some a => Function.update m o (if (a.erase i).keys = [] then none else some (a.erase i))

lemma lookup_of_none {m : Nested κ ι} {o : κ} (h : m o = none) (i : ι) : m.lookup o i = none := by
  rw [lookup, h]
  rfl

lemma lookup_of_some {m : Nested κ ι} {o : κ} {a : Table (Prod.fst : ι × Int → ι)}
    (h : m o = some a) (i : ι) : m.lookup o i = (a.get i).map Prod.snd := by
  rw [lookup, h]
  rfl

lemma lookup_store (m : Nested κ ι) (o o' : κ) (i i' : ι) (x : Int) :
    (m.store o i x).lookup o' i' = if o' = o ∧ i' = i then some x else m.lookup o' i' := by
  by_cases ho : o' = o
  · subst ho
    have hself : m.store o' i x o' = some (((m o').getD Table.empty).put (i, x)) :=
      update_self ..
    rw [lookup_of_some hself, get_put]
    by_cases hi : i' = i
    · simp [hi]
    · rw [if_neg hi, if_neg fun h => hi h.2]
      cases hm : m o' with
      | none => rw [lookup_of_none hm]; rfl
      | some a => rw [lookup_of_some hm]; rfl
  · rw [if_neg fun h => ho h.1, lookup, store, update_of_ne ho]
    rfl

lemma lookup_discard (m : Nested κ ι) (o o' : κ) (i i' : ι) :
    (m.discard o i).lookup o' i' = if o' = o ∧ i' = i then none else m.lookup o' i' := by
  unfold discard
  cases hm : m o with
  | none =>
    by_cases h : o' = o ∧ i' = i
    · rw [if_pos h, h.1]
      exact lookup_of_none hm i'
    · rw [if_neg h]
  | some a =>
    dsimp only
    by_cases ho : o' = o
    · subst ho
      rw [lookup_of_some hm]
      have hget : (if (a.erase i).keys = [] then none else some (a.erase i)).bind
          (fun b => b.get i') = (a.erase i).get i' := by
        split
        · rename_i hnil
          rw [get_eq_none_of_keys_nil hnil]
          rfl
        · rfl
      rw [lookup, update_self, hget, get_erase]
      by_cases hi : i' = i
      · simp [hi]
      · simp [hi]
    · have hne : ¬ (o' = o ∧ i' = i) := fun h => ho h.1
      rw [if_neg hne, lookup, update_of_ne ho]
      rfl

/-- the maps hold the entries `live`, none of them is empty, and the totals are `w`; a total that an
entry counts in is there. -/
structure Exact (live : κ → ι → Option Int) (w : κ → Int) (m : Nested κ ι) (tot : κ → Option Int) :
    Prop where
  lookup : ∀ o i, m.lookup o i = live o i
  nonempty : ∀ o a, m o = some a → a.keys ≠ []
  total : ∀ o, (tot o).getD 0 = w o
  present : ∀ o i x, live o i = some x → (tot o).isSome

variable {live live' : κ → ι → Option Int} {w w' : κ → Int} {m : Nested κ ι} {tot : κ → Option Int}

lemma exact_empty : Exact (fun (_ : κ) (_ : ι) => none) (fun _ => 0) (fun _ => none) fun _ => none where
  lookup := fun _ _ => rfl
  nonempty := fun _ _ h => absurd h (some_ne_none _).symm
  total := fun _ => rfl
  present := fun _ _ _ h => absurd h (some_ne_none _).symm

section
variable (h : Exact live w m tot)
include h

lemma Exact.congr (hl : ∀ o i, live' o i = live o i)
    (hw : ∀ o, w' o = w o) : Exact live' w' m tot where
  lookup := fun o i => (h.lookup o i).trans (hl o i).symm
  nonempty := h.nonempty
  total := fun o => (h.total o).trans (hw o).symm
  present := fun o i x hx => h.present o i x ((hl o i).symm.trans hx)

/-- **one outer key changes**, and its total with it. -/
theorem Exact.change {o : κ} {m' : Nested κ ι} {t : Int} (hm : ∀ o', o' ≠ o → m' o' = m o')
    (hlookup : ∀ i, m'.lookup o i = live' o i) (hne : ∀ a, m' o = some a → a.keys ≠ [])
    (hl : ∀ o' i, o' ≠ o → live' o' i = live o' i) (hw : ∀ o', w' o' = if o' = o then t else w o') :
    Exact live' w' m' (update tot o (some t)) where
  lookup := fun o' i => by
    by_cases ho : o' = o
    · rw [ho, hlookup]
    · rw [hl o' i ho, ← h.lookup, Nested.lookup, hm o' ho]
      rfl
  nonempty := fun o' a ha => by
    by_cases ho : o' = o
    · exact hne a (ho ▸ ha)
    · exact h.nonempty o' a (hm o' ho ▸ ha)
  total := fun o' => by
    rw [hw]
    by_cases ho : o' = o
    · rw [ho, update_self, if_pos rfl]
      rfl
    · rw [update_of_ne ho, if_neg ho, h.total]
  present := fun o' i y hy => by
    by_cases ho : o' = o
    · rw [ho, update_self]
      rfl
    · rw [hl o' i ho] at hy
      rw [update_of_ne ho]
      exact h.present o' i y hy

lemma Exact.store {o : κ} {i : ι} {x : Int}
    (hl : ∀ o' i', live' o' i' = if o' = o ∧ i' = i then some x else live o' i')
    (hw : ∀ o', w' o' = if o' = o then w o - (live o i).getD 0 + x else w o') :
    Exact live' w' (m.store o i x)
      (update tot o (some ((tot o).getD 0 - (live o i).getD 0 + x))) := by
  refine h.change (fun o' ho => update_of_ne ho _ _) (fun i' => ?_) (fun a ha => ?_)
    (fun o' i' ho => ?_) fun o' => ?_
  · rw [lookup_store, hl, h.lookup]
  · rw [Nested.store, update_self] at ha
    cases ha
    intro hnil
    have hget := get_eq_none_of_keys_nil hnil i
    rw [get_put, if_pos rfl] at hget
    exact absurd hget (some_ne_none _)
  · rw [hl, if_neg fun e => ho e.1]
  · rw [hw, h.total]

lemma Exact.discard {o : κ} {i : ι} {t : Int} (ht : tot o = some t)
    (hl : ∀ o' i', live' o' i' = if o' = o ∧ i' = i then none else live o' i')
    (hw : ∀ o', w' o' = if o' = o then w o - (live o i).getD 0 else w o') :
    Exact live' w' (m.discard o i) (update tot o (some (t - (live o i).getD 0))) := by
  refine h.change (fun o' ho => ?_) (fun i' => ?_) (fun a ha => ?_) (fun o' i' ho => ?_) fun o' => ?_
  · unfold Nested.discard
    cases m o with
    | none => rfl
    | some b => exact update_of_ne ho _ _
  · rw [lookup_discard, hl, h.lookup]
  · unfold Nested.discard at ha
    cases hm : m o with
    | none =>
      rw [hm] at ha
      exact h.nonempty o a ha
    | some b =>
      rw [hm] at ha
      dsimp only at ha
      rw [update_self] at ha
      split at ha
      · exact absurd ha (some_ne_none _).symm
      · rename_i hne
        cases ha
        exact hne
  · rw [hl, if_neg fun e => ho e.1]
  · rw [hw, ← h.total o, ht, getD_some]

lemma Exact.drop {o : κ} (hl : ∀ o' i', live' o' i' = if o' = o then none else live o' i')
    (hw : ∀ o', w' o' = if o' = o then 0 else w o') :
    Exact live' w' (update m o none) (update tot o (some 0)) := by
  refine h.change (fun o' ho => update_of_ne ho _ _) (fun i => ?_) (fun a ha => ?_)
    (fun o' i ho => ?_) hw
  · rw [hl, if_pos rfl]
    exact lookup_of_none (update_self ..) i
  · rw [update_self] at ha
    exact absurd ha (some_ne_none _).symm
  · rw [hl, if_neg ho]

end

end Nested
