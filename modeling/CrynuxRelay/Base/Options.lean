import Mathlib.Data.List.Forall2

/-!
# Lists of results that may fail

* `mapM_eq_some_iff` -- a list is mapped if each of its members is;
* `exists_mapM`, `mapM_guard` -- and then there is a result, here the list itself;
* `mem_of_forall₂`, `map_eq_iff_forall₂` -- lists that are related one by one.
-/

lemma mapM_eq_some_iff {α β : Type} {f : α → Option β} {l : List α} {m : List β} :
    l.mapM f = some m ↔ List.Forall₂ (fun a b => f a = some b) l m := by
  induction l generalizing m with
  | nil =>
    constructor
    · intro h
      cases h
      exact .nil
    · intro h
      cases h
      rfl
  | cons a l ih =>
    rw [List.mapM_cons]
    constructor
    · intro h
      obtain ⟨b, hb, h⟩ := Option.bind_eq_some_iff.1 h
      obtain ⟨t, ht, h⟩ := Option.bind_eq_some_iff.1 h
      cases h
      exact .cons hb (ih.1 ht)
    · intro h
      cases h with
      | cons hb ht =>
        rw [hb, ih.2 ht]
        rfl

lemma exists_mapM {α β : Type} {f : α → Option β} {l : List α} (h : ∀ a ∈ l, ∃ b, f a = some b) :
    ∃ m, l.mapM f = some m := by
  induction l with
  | nil => exact ⟨[], rfl⟩
  | cons a l ih =>
    obtain ⟨b, hb⟩ := h a List.mem_cons_self
    obtain ⟨m, hm⟩ := ih fun x hx => h x (List.mem_cons_of_mem a hx)
    exact ⟨b :: m, mapM_eq_some_iff.2 (.cons hb (mapM_eq_some_iff.1 hm))⟩

lemma mapM_guard {α : Type} {p : α → Prop} [DecidablePred p] {l m : List α} :
    l.mapM (fun a => if p a then some a else none) = some m ↔ l = m ∧ ∀ a ∈ l, p a := by
  rw [mapM_eq_some_iff]
  induction l generalizing m with
  | nil => grind [List.Forall₂]
  | cons a l ih =>
    cases m with
    | nil => simp
    | cons b m =>
      rw [List.forall₂_cons, ih]
      grind

lemma mem_of_forall₂ {α β : Type} {R : α → β → Prop} {l : List α} {m : List β}
    (h : List.Forall₂ R l m) : (∀ a ∈ l, ∃ b ∈ m, R a b) ∧ ∀ b ∈ m, ∃ a ∈ l, R a b := by
  induction h with
  | nil => exact ⟨nofun, nofun⟩
  | @cons a b l m hab _ ih =>
    refine ⟨fun x hx => ?_, fun y hy => ?_⟩
    · rcases List.mem_cons.1 hx with rfl | hx
      · exact ⟨b, List.mem_cons_self, hab⟩
      · obtain ⟨y, hy, hxy⟩ := ih.1 x hx
        exact ⟨y, List.mem_cons_of_mem b hy, hxy⟩
    · rcases List.mem_cons.1 hy with rfl | hy
      · exact ⟨a, List.mem_cons_self, hab⟩
      · obtain ⟨x, hx, hxy⟩ := ih.2 y hy
        exact ⟨x, List.mem_cons_of_mem a hx, hxy⟩

lemma map_eq_iff_forall₂ {α β γ : Type} {f : α → γ} {g : β → γ} {l : List α} {m : List β} :
    l.map f = m.map g ↔ List.Forall₂ (fun a b => f a = g b) l m := by
  rw [← List.forall₂_eq_eq_eq, List.forall₂_map_left_iff, List.forall₂_map_right_iff]
