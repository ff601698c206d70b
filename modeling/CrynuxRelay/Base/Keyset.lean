import Mathlib.Data.List.Sort
import Mathlib.Tactic.Common

/-!
# Keyset pagination

A query returns the first `limit` items above a cursor in the order of their keys, and the cursor moves
to the last of them; an empty page resets it.

* `above`, `page` -- the items above a cursor, and the first of them;
* `mem_page_of_le`, `exists_page_eq_cons` -- a page has every item up to its last one, from the least on;
* `ahead`, `ahead_last` -- all items above a cursor in order, and what is left of them after a page;
* `take_sorted_perm` -- a page is the set of items below a bound;
* `cursorAt` -- the cursor before each of infinitely many queries, over items that change in between;
* `mem_page_fixed` -- the first pages of a fixed list have all its items;
* `returned_between` -- **between two empty pages, an item that stays is on a page.**
-/

namespace Keyset

open List Option

variable {n : Nat}
  {α κ : Type} [LinearOrder κ] (key : α → κ)

/-! ## pages -/

def above (cursor : Option κ) (l : List α) : List α :=
  l.filter fun a => cursor.all fun k => decide (k < key a)

/-- the first `limit` items above the cursor, in the order of their keys. -/
def page (limit : Nat) (cursor : Option κ) (l : List α) : List α :=
  ((above key cursor l).insertionSort fun a b => key a ≤ key b).take limit

variable {key} {cursor : Option κ} {limit : Nat} {l : List α} {a : α}

lemma mem_above : a ∈ above key cursor l ↔ a ∈ l ∧ ∀ k, cursor = some k → k < key a := by
  cases cursor with
  | _ => simp [above]

lemma mem_above_of_page (h : a ∈ page key limit cursor l) : a ∈ above key cursor l :=
  (mem_insertionSort _).1 (mem_of_mem_take h)

lemma page_ne_nil (hlimit : 1 ≤ limit) (h : a ∈ above key cursor l) :
    page key limit cursor l ≠ [] := by
  intro hnil
  rcases take_eq_nil_iff.1 hnil with h0 | hsort
  · omega
  · have hmem : a ∈ (above key cursor l).insertionSort fun a b => key a ≤ key b :=
      (mem_insertionSort _).2 h
    rw [hsort] at hmem
    exact absurd hmem not_mem_nil

variable (key) in
lemma pairwise_sorted (l : List α) :
    (l.insertionSort fun a b => key a ≤ key b).Pairwise fun a b => key a ≤ key b := by
  exact pairwise_insertionSort _ l

variable (key) in
def ahead (cursor : Option κ) (l : List α) : List α :=
  (above key cursor l).insertionSort fun a b => key a ≤ key b

lemma pairwise_ahead (hl : (l.map key).Nodup) :
    (ahead key cursor l).Pairwise fun a b => key a < key b := by
  have hperm := perm_insertionSort (fun a b => key a ≤ key b) (above key cursor l)
  have hnd : ((above key cursor l).map key).Nodup := hl.sublist (filter_sublist.map key)
  have hne := pairwise_map.1 ((hperm.map key).nodup_iff.2 hnd)
  exact ((pairwise_sorted key (above key cursor l)).and hne).imp fun h => lt_of_le_of_ne h.1 h.2

lemma pairwise_page (hl : (l.map key).Nodup) : ((page key limit cursor l).map key).Pairwise (· < ·) :=
  (pairwise_map.2 (pairwise_ahead hl)).sublist ((take_sublist _ _).map key)

/-- **a page has every item above the cursor up to its last one**, if the keys tell the items apart. -/
theorem mem_page_of_le {b : α} (hinj : ∀ a ∈ l, ∀ b ∈ l, key a = key b → a = b)
    (h : a ∈ above key cursor l) (hmem : b ∈ page key limit cursor l)
    (hle : key a ≤ key b) : a ∈ page key limit cursor l := by
  have hsorted := pairwise_sorted key (above key cursor l)
  have ha : a ∈ (above key cursor l).insertionSort fun a b => key a ≤ key b :=
    (mem_insertionSort _).2 h
  rw [← take_append_drop limit ((above key cursor l).insertionSort _)] at hsorted ha
  rcases mem_append.1 ha with ha | ha
  · exact ha
  · -- what is cut off is not below the items of the page
    have hge : key b ≤ key a := (pairwise_append.1 hsorted).2.2 b hmem a ha
    have heq := hinj a (mem_above.1 h).1 b (mem_above.1 (mem_above_of_page hmem)).1
      (le_antisymm hle hge)
    rwa [heq]

lemma exists_page_eq_cons (hlimit : 1 ≤ limit) (h : a ∈ above key cursor l) :
    ∃ b t, page key limit cursor l = b :: t ∧ key b ≤ key a := by
  have hsorted := pairwise_sorted key (above key cursor l)
  have ha : a ∈ (above key cursor l).insertionSort fun a b => key a ≤ key b :=
    (mem_insertionSort _).2 h
  obtain ⟨n, rfl⟩ := Nat.exists_eq_add_of_le' hlimit
  rw [page]
  cases hs : (above key cursor l).insertionSort fun a b => key a ≤ key b with
  | nil => rw [hs] at ha; exact absurd ha not_mem_nil
  | cons b t =>
    rw [hs] at ha hsorted
    refine ⟨b, t.take n, take_succ_cons, ?_⟩
    rcases mem_cons.1 ha with rfl | ha
    · exact le_refl _
    · exact (pairwise_cons.1 hsorted).1 a ha

lemma eq_of_pairwise_lt {l' : List α} (h : l.Pairwise fun a b => key a < key b)
    (h' : l'.Pairwise fun a b => key a < key b) (hmem : ∀ a, a ∈ l ↔ a ∈ l') : l = l' := by
  have hnd : ∀ {l : List α}, l.Pairwise (fun a b => key a < key b) → l.Nodup :=
    fun h => h.imp fun hlt e => absurd (congrArg key e) hlt.ne
  have hperm := (perm_ext_iff_of_nodup (hnd h) (hnd h')).2 hmem
  exact hperm.eq_of_pairwise (fun a b _ _ hab hba => absurd hab hba.asymm) h h'

/-- the first items of a list in the order of their keys are those below a bound. -/
lemma take_eq_filter_lt (hl : l.Pairwise fun a b => key a < key b) {m : κ}
    (hm : ∀ a ∈ l, key a < m) (n : Nat) : ∃ k, l.take n = l.filter fun a => decide (key a < k) := by
  have hsplit := take_append_drop n l
  cases hd : l.drop n with
  | nil =>
    rw [hd, append_nil] at hsplit
    refine ⟨m, ?_⟩
    rw [hsplit, filter_eq_self.2 fun a ha => decide_eq_true (hm a ha)]
  | cons b t =>
    rw [hd] at hsplit
    rw [← hsplit] at hl
    obtain ⟨-, hcons, hbefore⟩ := pairwise_append.1 hl
    refine ⟨key b, ?_⟩
    conv_rhs => rw [← hsplit]
    rw [filter_append, filter_eq_self.2 fun a ha =>
      decide_eq_true (hbefore a ha b mem_cons_self), filter_eq_nil_iff.2, append_nil]
    intro a ha
    rw [decide_eq_true_eq, not_lt]
    rcases mem_cons.1 ha with rfl | ha
    · exact le_rfl
    · exact ((pairwise_cons.1 hcons).1 a ha).le

/-- **a page is the set of items below a bound.** -/
theorem take_sorted_perm (hl : (l.map key).Nodup) {m : κ} (hm : ∀ a ∈ l, key a < m)
    (n : Nat) : ∃ k, ((l.insertionSort fun a b => key a ≤ key b).take n).Perm
      (l.filter fun a => decide (key a < k)) := by
  have hperm := perm_insertionSort (fun a b => key a ≤ key b) l
  have hne := pairwise_map.1 ((hperm.map key).nodup_iff.2 hl)
  have hlt := ((pairwise_sorted key l).and hne).imp fun h => lt_of_le_of_ne h.1 h.2
  obtain ⟨k, hk⟩ := take_eq_filter_lt hlt (fun a ha => hm a (hperm.mem_iff.1 ha)) n
  exact ⟨k, hk ▸ hperm.filter _⟩

/-- **the next pages**: above the last item of a page is what the page has left out. -/
theorem ahead_last (hl : (l.map key).Nodup) {done rest : List α}
    (hsplit : ahead key cursor l = done ++ a :: rest) : ahead key (some (key a)) l = rest := by
  have hsorted : (ahead key cursor l).Pairwise fun a b => key a < key b := pairwise_ahead hl
  rw [hsplit] at hsorted
  obtain ⟨-, hcons, hbefore⟩ := pairwise_append.1 hsorted
  obtain ⟨hafter, hrest⟩ := pairwise_cons.1 hcons
  refine eq_of_pairwise_lt (pairwise_ahead hl) hrest fun b => ?_
  have hmem : ∀ {cursor : Option κ} {b : α}, b ∈ ahead key cursor l ↔ b ∈ above key cursor l :=
    mem_insertionSort _
  have ha : a ∈ above key cursor l := by
    rw [← hmem, hsplit]
    exact mem_append_right _ mem_cons_self
  rw [hmem, mem_above]
  constructor
  · rintro ⟨hb, hlt⟩
    have hlt := hlt (key a) rfl
    have hin : b ∈ done ++ a :: rest := by
      rw [← hsplit, hmem, mem_above]
      exact ⟨hb, fun k hk => ((mem_above.1 ha).2 k hk).trans hlt⟩
    rcases mem_append.1 hin with hin | hin
    · exact absurd (hbefore b hin a mem_cons_self) hlt.asymm
    · rcases mem_cons.1 hin with rfl | hin
      · exact absurd hlt (lt_irrefl _)
      · exact hin
  · intro hb
    have hin : b ∈ ahead key cursor l := by
      rw [hsplit]
      exact mem_append_right _ (mem_cons_of_mem a hb)
    exact ⟨(mem_above.1 (hmem.1 hin)).1, fun k hk => some.inj hk ▸ hafter b hb⟩

/-- what is taken from a page while a condition holds has every item of the page up to its last one. -/
lemma mem_takeWhile_of_le {p : α → Bool} {b : α} (hl : l.Pairwise fun a b => key a < key b)
    (hb : b ∈ l.takeWhile p) (ha : a ∈ l) (hle : key a ≤ key b) : a ∈ l.takeWhile p := by
  induction l with
  | nil => exact absurd ha not_mem_nil
  | cons x l ih =>
    obtain ⟨hx, hl⟩ := pairwise_cons.1 hl
    cases hp : p x with
    | false =>
      rw [takeWhile_cons_of_neg (by rw [hp]; exact Bool.false_ne_true)] at hb
      exact absurd hb not_mem_nil
    | true =>
      rw [takeWhile_cons_of_pos hp] at hb ⊢
      rcases mem_cons.1 ha with rfl | hmem
      · exact mem_cons_self
      · rcases mem_cons.1 hb with rfl | hb
        · exact absurd (hx a hmem) (not_lt.2 hle)
        · exact mem_cons_of_mem x (ih hl hb hmem)

/-! ## infinitely many queries -/

variable (key) in
/-- the cursor before query `n`; a query that fails leaves it as it is. -/
def cursorAt (limit : Nat) (items : Nat → List α) (failed : Nat → Bool) : Nat → Option κ
  | 0 => none
  | n + 1 =>
    if failed n then cursorAt limit items failed n
    else (page key limit (cursorAt limit items failed n) (items n)).getLast?.map key

section scan
variable {items : Nat → List α} {failed : Nat → Bool}

def Passed (cursor : Option κ) (k : κ) : Prop := ∃ c, cursor = some c ∧ k ≤ c

lemma passed_of_not_mem_above (hl : a ∈ l) (h : a ∉ above key cursor l) : Passed cursor (key a) := by
  rw [mem_above, not_and] at h
  have hcur := h hl
  push Not at hcur
  exact hcur

lemma returned_of_passing (hinj : ∀ a ∈ items n, ∀ b ∈ items n, key a = key b → a = b)
    (ha : a ∈ items n) (hbefore : ¬ Passed (cursorAt key limit items failed n) (key a))
    (hafter : Passed (cursorAt key limit items failed (n + 1)) (key a)) :
    failed n = false ∧ a ∈ page key limit (cursorAt key limit items failed n) (items n) := by
  obtain ⟨k, hk, hle⟩ := hafter
  rw [cursorAt] at hk
  cases hf : failed n with
  | true =>
    rw [if_pos hf] at hk
    exact absurd ⟨k, hk, hle⟩ hbefore
  | false =>
    rw [if_neg (by rw [hf]; exact Bool.false_ne_true)] at hk
    obtain ⟨last, hlast, rfl⟩ := map_eq_some_iff.1 hk
    have habove : a ∈ above key (cursorAt key limit items failed n) (items n) := by
      by_contra h
      exact hbefore (passed_of_not_mem_above ha h)
    exact ⟨rfl, mem_page_of_le hinj habove (mem_of_getLast? hlast) hle⟩

/-- **every item of a fixed list is on one of the first pages**, as many as have room for all. -/
theorem mem_page_fixed (hl : (l.map key).Nodup) (ha : a ∈ l) (hn : l.length ≤ n * limit) :
    ∃ m < n, a ∈ page key limit (cursorAt key limit (fun _ => l) (fun _ => false) m) l := by
  by_contra hnone
  push Not at hnone
  have hpos := length_pos_of_mem ha
  have hlimit : 1 ≤ limit := by
    by_contra h
    rw [Nat.lt_one_iff.1 (not_le.1 h), Nat.mul_zero] at hn
    omega
  -- as long as the item is not returned, it is ahead, and every page takes `limit` items from what is ahead
  have hleft : ∀ m ≤ n, a ∈ ahead key (cursorAt key limit (fun _ => l) (fun _ => false) m) l ∧
      (ahead key (cursorAt key limit (fun _ => l) (fun _ => false) m) l).length + m * limit ≤ l.length := by
    intro m hm
    induction m with
    | zero =>
      refine ⟨(mem_insertionSort _).2 (mem_above.2 ⟨ha, nofun⟩), ?_⟩
      rw [ahead, length_insertionSort, Nat.zero_mul]
      exact length_filter_le _ _
    | succ m ih =>
      obtain ⟨hmem, hlen⟩ := ih (by omega)
      have hpage := hnone m (by omega)
      rw [cursorAt, if_neg Bool.false_ne_true]
      generalize cursorAt key limit (fun _ => l) (fun _ => false) m = c at hmem hlen hpage ⊢
      have hsplit : ahead key c l = page key limit c l ++ (ahead key c l).drop limit :=
        (take_append_drop limit _).symm
      obtain ⟨done, b, hb⟩ := (eq_nil_or_concat (page key limit c l)).resolve_left
        (page_ne_nil hlimit ((mem_insertionSort _).1 hmem))
      have hrest : a ∈ (ahead key c l).drop limit := by
        rw [hsplit] at hmem
        exact (mem_append.1 hmem).resolve_left hpage
      have hdrop := length_pos_of_mem hrest
      rw [concat_eq_append] at hb
      rw [hb, append_assoc, singleton_append] at hsplit
      rw [hb, getLast?_concat, Option.map_some, ahead_last hl hsplit]
      rw [length_drop] at hdrop ⊢
      rw [Nat.succ_mul]
      exact ⟨hrest, by omega⟩
  have hend := hleft n le_rfl
  have hmem := length_pos_of_mem hend.1
  omega

/-- **an item that stays, with a key that never decreases, is on a page between two empty ones.** -/
theorem returned_between {m m' : Nat} (item : Nat → α)
    (hinj : ∀ n, ∀ a ∈ items n, ∀ b ∈ items n, key a = key b → a = b)
    (hitem : ∀ n, m < n → item n ∈ items n) (hmono : ∀ n, m < n → key (item n) ≤ key (item (n + 1)))
    (hm : above key (cursorAt key limit items failed m) (items m) = []) (hf : failed m = false)
    (hm' : above key (cursorAt key limit items failed m') (items m') = []) (hlt : m < m') :
    ∃ n, m < n ∧ n < m' ∧ failed n = false ∧
      item n ∈ page key limit (cursorAt key limit items failed n) (items n) := by
  by_contra hnone
  push Not at hnone
  -- as long as the item is not returned, the cursor stays below it
  have hbelow : ∀ n, m + 1 ≤ n → n ≤ m' →
      ¬ Passed (cursorAt key limit items failed n) (key (item n)) := by
    intro n hn
    induction n, hn using Nat.le_induction with
    | base =>
      intro _ hp
      obtain ⟨k, hk, -⟩ := hp
      rw [cursorAt, hf, page, hm] at hk
      simp at hk
    | succ n hn ih =>
      intro hle hp
      obtain ⟨k, hk, hkle⟩ := hp
      have hstay := hmono n (by omega)
      obtain ⟨hfn, hmem⟩ := returned_of_passing (hinj n) (hitem n (by omega)) (ih (by omega))
        ⟨k, hk, le_trans hstay hkle⟩
      exact hnone n (by omega) (by omega) hfn hmem
  refine hbelow m' hlt (Nat.le_refl m') (passed_of_not_mem_above (hitem m' hlt) ?_)
  rw [hm']
  exact not_mem_nil

end scan

end Keyset
