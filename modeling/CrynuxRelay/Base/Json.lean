import CrynuxRelay.Base.Text
import Mathlib.Data.Char
import Mathlib.Data.List.Lex

/-!
# JSON values and their texts

Values with numbers of any type, objects as lists of fields.

* `Json.toMap`, `Json.get` -- fields as a map in the order of its keys, where a field that is repeated
  counts once, with its last value;
* `Json.decode` -- decoding into maps; numbers may fail to decode;
* `Json.Alike` -- values that decode alike: objects have the same fields (`Json.Alike.get`);
* `Json.render` -- the text of a value without insignificant whitespace, with a given text for numbers
  and a given escape for characters;
* `EscapeCode`, `NumberText` -- what is needed of the two for texts to be unambiguous;
* `escapeWith`, `EscapeTable` -- escapes by letters and by codes, and when they are unambiguous;
* `NumberLit` -- a number as its text;
* `Json.render_inj` -- the text of a value determines the value.
-/

open List (cons.inj cons_append append_assoc append_cancel_left mem_cons mem_cons_self mem_cons_of_mem
  flatMap_cons pairwise_cons nil_append)

inductive Json (ν : Type)
  | null
  | bool (b : Bool)
  | num (n : ν)
  | str (s : Text)
  | arr (items : List (Json ν))
  | obj (fields : List (Text × Json ν))

namespace Json

open Option

variable {ν μ κ α β : Type}

/-! ## maps -/

/-- set a field of a map that is kept in the order of its keys. -/
def setField (k : Text) (v : α) : List (Text × α) → List (Text × α)
  | [] => [(k, v)]
  | (k', v') :: l =>
    if k < k' then (k, v) :: (k', v') :: l
    else if k = k' then (k, v) :: l
    else (k', v') :: setField k v l

def toMap (fields : List (Text × α)) : List (Text × α) :=
  fields.foldl (fun m p => setField p.1 p.2 m) []

/-- the value of a key, the last one if it is repeated. -/
def get (k : Text) : List (Text × α) → Option α
  | [] => none
  | (k', v) :: l => (get k l).or (if k = k' then some v else none)

def Sorted (m : List (Text × α)) : Prop := m.Pairwise fun p q => p.1 < q.1

variable {k : Text} {v : α} {m : List (Text × α)}

lemma get_append (k : Text) (l l' : List (Text × α)) : get k (l ++ l') = (get k l').or (get k l) := by
  induction l with
  | nil => exact (or_none).symm
  | cons p l ih =>
    rw [cons_append, get, get, ih, Option.or_assoc]

lemma get_eq_none (h : ∀ p ∈ m, k < p.1) : get k m = none := by
  induction m with
  | nil => rfl
  | cons p m ih =>
    obtain ⟨k', v⟩ := p
    have hk : k < k' := h _ mem_cons_self
    rw [get, ih fun q hq => h q (mem_cons_of_mem _ hq), if_neg hk.ne]
    rfl

lemma mem_setField {p : Text × α} (h : p ∈ setField k v m) : p = (k, v) ∨ p ∈ m := by
  induction m with
  | nil => exact .inl (List.mem_singleton.1 h)
  | cons q m ih =>
    rw [setField] at h
    split at h
    · exact mem_cons.1 h
    · split at h
      · exact (mem_cons.1 h).imp_right (mem_cons_of_mem _)
      · rcases mem_cons.1 h with rfl | h
        · exact .inr mem_cons_self
        · exact (ih h).imp_right (mem_cons_of_mem _)

lemma Sorted.setField (h : Sorted m) (k : Text) (v : α) : Sorted (setField k v m) := by
  induction m with
  | nil => exact List.pairwise_singleton _ _
  | cons q m ih =>
    obtain ⟨hhead, htail⟩ := pairwise_cons.1 h
    rw [Json.setField]
    split
    · next hlt =>
      refine pairwise_cons.2 ⟨fun p hp => ?_, h⟩
      rcases mem_cons.1 hp with rfl | hp
      · exact hlt
      · exact hlt.trans (hhead p hp)
    · next hlt =>
      split
      · next heq => exact pairwise_cons.2 ⟨fun p hp => heq ▸ hhead p hp, htail⟩
      · next hne =>
        refine pairwise_cons.2 ⟨fun p hp => ?_, ih htail⟩
        rcases mem_setField hp with rfl | hp
        · exact lt_of_le_of_ne (not_lt.1 hlt) (Ne.symm hne)
        · exact hhead p hp

lemma get_setField (h : Sorted m) (k k' : Text) (v : α) :
    get k (Json.setField k' v m) = if k = k' then some v else get k m := by
  induction m with
  | nil => rfl
  | cons q m ih =>
    obtain ⟨k1, v1⟩ := q
    obtain ⟨hhead, htail⟩ := pairwise_cons.1 h
    rw [Json.setField]
    split
    · next hlt =>
      rw [get]
      split
      · next heq =>
        subst heq
        have hnone : get k ((k1, v1) :: m) = none := by
          refine get_eq_none fun p hp => ?_
          rcases mem_cons.1 hp with rfl | hp
          · exact hlt
          · exact hlt.trans (hhead p hp)
        rw [hnone]
        rfl
      · exact or_none
    · split
      · next heq =>
        subst heq
        rw [get, get]
        split
        · next hk =>
          subst hk
          rw [get_eq_none hhead]
          rfl
        · rfl
      · next hne =>
        rw [get, get, ih htail]
        split
        · rfl
        · rfl

lemma foldl_setField (l m : List (Text × α)) (h : Sorted m) :
    Sorted (l.foldl (fun m p => Json.setField p.1 p.2 m) m) ∧
      ∀ k, get k (l.foldl (fun m p => Json.setField p.1 p.2 m) m) = (get k l).or (get k m) := by
  induction l generalizing m with
  | nil => exact ⟨h, fun k => rfl⟩
  | cons p l ih =>
    obtain ⟨hs, hget⟩ := ih _ (h.setField p.1 p.2)
    refine ⟨hs, fun k => ?_⟩
    rw [List.foldl_cons, hget, get_setField h, get, Option.or_assoc]
    split <;> rfl

lemma sorted_toMap (l : List (Text × α)) : Sorted (toMap l) :=
  (foldl_setField l [] List.Pairwise.nil).1

lemma get_toMap (k : Text) (l : List (Text × α)) : get k (toMap l) = get k l := by
  rw [toMap, (foldl_setField l [] List.Pairwise.nil).2 k]
  exact or_none

/-! ## decoding -/

mutual

def decode (f : ν → Option μ) : Json ν → Option (Json μ)
  | .null => some .null
  | .bool b => some (.bool b)
  | .num n => (f n).map .num
  | .str s => some (.str s)
  | .arr items => (decodeItems f items).map .arr
  | .obj fields => (decodeFields f fields).map fun l => .obj (toMap l)

def decodeItems (f : ν → Option μ) : List (Json ν) → Option (List (Json μ))
  | [] => some []
  | j :: l => (decode f j).bind fun j' => (decodeItems f l).map (j' :: ·)

def decodeFields (f : ν → Option μ) : List (Text × Json ν) → Option (List (Text × Json μ))
  | [] => some []
  | (k, j) :: l => (decode f j).bind fun j' => (decodeFields f l).map ((k, j') :: ·)

end

variable {f : ν → Option μ} {R : α → β → Prop} {a a' : Option α} {b b' : Option β}

lemma rel_or (h : Option.Rel R a b) (h' : Option.Rel R a' b') : Option.Rel R (a.or a') (b.or b') := by
  cases h with
  | none => exact h'
  | some h => exact .some h

lemma get_decodeFields {l : List (Text × Json ν)} {l' : List (Text × Json μ)}
    (h : decodeFields f l = some l') (k : Text) :
    Option.Rel (fun j x => decode f j = some x) (get k l) (get k l') := by
  induction l generalizing l' with
  | nil =>
    cases h
    exact .none
  | cons p l ih =>
    obtain ⟨x, hx, h⟩ := bind_eq_some_iff.1 h
    obtain ⟨l1, hl1, rfl⟩ := map_eq_some_iff.1 h
    refine rel_or (ih hl1) ?_
    split
    · exact .some hx
    · exact .none

lemma forall₂_decodeItems {l : List (Json ν)} {m : List (Json μ)}
    (h : decodeItems f l = some m) : List.Forall₂ (fun j x => decode f j = some x) l m := by
  induction l generalizing m with
  | nil =>
    cases h
    exact .nil
  | cons j l ih =>
    obtain ⟨x, hx, h⟩ := bind_eq_some_iff.1 h
    obtain ⟨t, ht, rfl⟩ := map_eq_some_iff.1 h
    exact .cons hx (ih ht)

lemma rel_join (h : Option.Rel R a b) (h' : Option.Rel R a' b) : Option.Rel (fun x y => ∃ z, R x z ∧ R y z) a a' := by
  cases h with
  | none =>
    cases h'
    exact .none
  | some h =>
    cases h' with
    | some h' => exact .some ⟨_, h, h'⟩

lemma forall₂_join {l l' : List α} {m : List β} (h : List.Forall₂ R l m)
    (h' : List.Forall₂ R l' m) : List.Forall₂ (fun x y => ∃ z, R x z ∧ R y z) l l' := by
  induction h generalizing l' with
  | nil =>
    cases h'
    exact .nil
  | cons hx _ ih =>
    cases h' with
    | cons hx' h' => exact .cons ⟨_, hx, hx'⟩ (ih h')

/-- two values that decode to the same one. -/
def Alike (f : ν → Option μ) (j j' : Json ν) : Prop := ∃ x, decode f j = some x ∧ decode f j' = some x

/-- **objects that decode alike have the same fields**, which decode alike. -/
theorem Alike.get {l l' : List (Text × Json ν)} (h : Alike f (.obj l) (.obj l'))
    (k : Text) : Option.Rel (Alike f) (get k l) (get k l') := by
  obtain ⟨v, h, h'⟩ := h
  obtain ⟨m, hm, rfl⟩ := map_eq_some_iff.1 h
  obtain ⟨m', hm', heq⟩ := map_eq_some_iff.1 h'
  have hget : Json.get k m' = Json.get k m := by
    rw [← get_toMap k m', ← get_toMap k m, Json.obj.inj heq]
  have hrel' := get_decodeFields hm' k
  rw [hget] at hrel'
  exact rel_join (get_decodeFields hm k) hrel'

lemma Alike.str {s s' : Text} (h : Alike f (.str s) (.str s')) : s = s' := by
  obtain ⟨x, h, h'⟩ := h
  rw [← h] at h'
  exact (Json.str.inj (some.inj h')).symm

lemma Alike.num {n n' : ν} (h : Alike f (.num n) (.num n')) : (f n).isSome = true ∧ f n = f n' := by
  obtain ⟨x, h, h'⟩ := h
  obtain ⟨y, hy, rfl⟩ := map_eq_some_iff.1 h
  obtain ⟨y', hy', heq⟩ := map_eq_some_iff.1 h'
  rw [hy, hy', Json.num.inj heq]
  exact ⟨rfl, rfl⟩

lemma Alike.arr {l l' : List (Json ν)} (h : Alike f (.arr l) (.arr l')) :
    List.Forall₂ (Alike f) l l' := by
  obtain ⟨x, h, h'⟩ := h
  obtain ⟨m, hm, rfl⟩ := map_eq_some_iff.1 h
  obtain ⟨m', hm', heq⟩ := map_eq_some_iff.1 h'
  rw [Json.arr.inj heq] at hm'
  exact forall₂_join (forall₂_decodeItems hm) (forall₂_decodeItems hm')

lemma decodeFields_append (f : ν → Option μ) (l l' : List (Text × Json ν)) :
    decodeFields f (l ++ l') = (decodeFields f l).bind fun m => (decodeFields f l').map (m ++ ·) := by
  induction l with
  | nil =>
    show decodeFields f l' = (decodeFields f l').map fun m' => m'
    exact Option.map_id'.symm
  | cons p l ih =>
    obtain ⟨k, j⟩ := p
    rw [cons_append, decodeFields, decodeFields, ih]
    cases decode f j with
    | none => rfl
    | some x =>
      cases decodeFields f l with
      | none => rfl
      | some m =>
        show ((decodeFields f l').map (m ++ ·)).map (fun t => (k, x) :: t) = _
        rw [Option.map_map]
        rfl

/-! ## texts -/

def quote (esc : Char → Text) (s : Text) : Text := '"' :: (s.flatMap esc ++ ['"'])

mutual

def render (number : ν → Text) (esc : Char → Text) : Json ν → Text
  | .null => ['n', 'u', 'l', 'l']
  | .bool true => ['t', 'r', 'u', 'e']
  | .bool false => ['f', 'a', 'l', 's', 'e']
  | .num n => number n
  | .str s => quote esc s
  | .arr [] => ['[', ']']
  | .arr (j :: l) => '[' :: (render number esc j ++ renderItems number esc l)
  | .obj [] => ['{', '}']
  | .obj ((k, j) :: l) =>
    '{' :: (quote esc k ++ ':' :: (render number esc j ++ renderFields number esc l))

def renderItems (number : ν → Text) (esc : Char → Text) : List (Json ν) → Text
  | [] => [']']
  | j :: l => ',' :: (render number esc j ++ renderItems number esc l)

def renderFields (number : ν → Text) (esc : Char → Text) : List (Text × Json ν) → Text
  | [] => ['}']
  | (k, j) :: l =>
    ',' :: (quote esc k ++ ':' :: (render number esc j ++ renderFields number esc l))

end

end Json

/-! ## characters -/

def numberChar (c : Char) : Bool :=
  c.isDigit || c == '-' || c == '+' || c == '.' || c == 'e' || c == 'E'

/-- numbers have different texts, of characters of numbers. -/
structure NumberText {ν : Type} (number : ν → Text) : Prop where
  injective : ∀ n n', number n = number n' → n = n'
  ne_nil : ∀ n, number n ≠ []
  chars : ∀ n, ∀ c ∈ number n, numberChar c = true

/-- no escaped character begins like another one, or with a quotation mark. -/
structure EscapeCode (esc : Char → Text) : Prop where
  inj : ∀ {c c' : Char} {r r' : Text}, esc c ++ r = esc c' ++ r' → c = c' ∧ r = r'
  head : ∀ c, ∃ h t, esc c = h :: t ∧ h ≠ '"'

/-! ## escapes -/

def hex4 (n : Nat) : Text :=
  [Nat.digitChar (n / 4096 % 16), Nat.digitChar (n / 256 % 16), Nat.digitChar (n / 16 % 16),
    Nat.digitChar (n % 16)]

lemma digitChar_inj_all : ∀ a : Fin 16, ∀ b : Fin 16, Nat.digitChar a = Nat.digitChar b → a = b := by
  decide

lemma digitChar_mod_inj {a b : Nat} (h : Nat.digitChar (a % 16) = Nat.digitChar (b % 16)) :
    a % 16 = b % 16 := by
  have := digitChar_inj_all ⟨a % 16, Nat.mod_lt a (by decide)⟩ ⟨b % 16, Nat.mod_lt b (by decide)⟩ h
  exact congrArg Fin.val this

lemma hex4_inj {n m : Nat} (hn : n < 65536) (hm : m < 65536) (h : hex4 n = hex4 m) : n = m := by
  simp only [hex4, List.cons.injEq, and_true] at h
  obtain ⟨h1, h2, h3, h4⟩ := h
  have h1 := digitChar_mod_inj h1
  have h2 := digitChar_mod_inj h2
  have h3 := digitChar_mod_inj h3
  have h4 := digitChar_mod_inj h4
  omega

/-- a character as a backslash and a letter, by its code, or as it is. -/
def escapeWith (letter : Char → Option Char) (coded : Char → Bool) (c : Char) : Text :=
  match letter c with
  | some l => ['\\', l]
  | none => if coded c then '\\' :: 'u' :: hex4 c.toNat else [c]

/-- letters are given to different characters, also to the backslash and the quotation mark, and codes
have four digits. -/
structure EscapeTable (letter : Char → Option Char) (coded : Char → Bool) : Prop where
  inj : ∀ c c' l, letter c = some l → letter c' = some l → c = c'
  ne_u : ∀ c, letter c ≠ some 'u'
  quote : letter '"' ≠ none
  backslash : letter '\\' ≠ none
  code : ∀ c, coded c = true → c.toNat < 65536

section escape

variable {letter : Char → Option Char} {coded : Char → Bool}

lemma escapeWith_cases (letter : Char → Option Char) (coded : Char → Bool) (c : Char) :
    (∃ l, letter c = some l ∧ escapeWith letter coded c = ['\\', l]) ∨
      (coded c = true ∧ escapeWith letter coded c = '\\' :: 'u' :: hex4 c.toNat) ∨
      letter c = none ∧ escapeWith letter coded c = [c] := by
  cases hl : letter c with
  | some l =>
    refine .inl ⟨l, rfl, ?_⟩
    rw [escapeWith, hl]
  | none =>
    cases hc : coded c with
    | true =>
      refine .inr (.inl ⟨rfl, ?_⟩)
      simp only [escapeWith, hl, hc, if_true]
    | false =>
      refine .inr (.inr ⟨rfl, ?_⟩)
      simp only [escapeWith, hl, hc, Bool.false_eq_true, if_false]

/-- **an escape table gives an unambiguous code.** -/
theorem EscapeTable.escapeCode (h : EscapeTable letter coded) :
    EscapeCode (escapeWith letter coded) where
  inj := by
    intro c c' r r' heq
    have hplain : ∀ {c : Char}, letter c = none → c ≠ '\\' := by
      rintro c hc rfl
      exact h.backslash hc
    rcases escapeWith_cases letter coded c with ⟨l, hl, he⟩ | ⟨hc, he⟩ | ⟨hl, he⟩ <;>
      rcases escapeWith_cases letter coded c' with ⟨l', hl', he'⟩ | ⟨hc', he'⟩ | ⟨hl', he'⟩ <;>
      rw [he, he'] at heq
    · obtain ⟨-, heq⟩ := cons.inj heq
      obtain ⟨rfl, hr⟩ := cons.inj heq
      exact ⟨h.inj c c' l hl hl', hr⟩
    · obtain ⟨-, heq⟩ := cons.inj heq
      obtain ⟨rfl, -⟩ := cons.inj heq
      exact absurd hl (h.ne_u c)
    · exact absurd (cons.inj heq).1.symm (hplain hl')
    · obtain ⟨-, heq⟩ := cons.inj heq
      obtain ⟨rfl, -⟩ := cons.inj heq
      exact absurd hl' (h.ne_u c')
    · obtain ⟨-, heq⟩ := cons.inj heq
      obtain ⟨-, heq⟩ := cons.inj heq
      obtain ⟨hhex, hr⟩ := List.append_inj heq rfl
      exact ⟨Char.toNat_inj.1 (hex4_inj (h.code c hc) (h.code c' hc') hhex), hr⟩
    · exact absurd (cons.inj heq).1.symm (hplain hl')
    · exact absurd (cons.inj heq).1 (hplain hl)
    · exact absurd (cons.inj heq).1 (hplain hl)
    · obtain ⟨hc, hr⟩ := cons.inj heq
      exact ⟨hc, hr⟩
  head := by
    intro c
    rcases escapeWith_cases letter coded c with ⟨l, hl, he⟩ | ⟨hc, he⟩ | ⟨hl, he⟩
    · exact ⟨_, _, he, by decide⟩
    · exact ⟨_, _, he, by decide⟩
    · refine ⟨_, _, he, ?_⟩
      rintro rfl
      exact h.quote hl

end escape

/-! ## literals -/

structure NumberLit where
  text : Text
  ne_nil : text ≠ []
  chars : ∀ c ∈ text, numberChar c = true

@[ext] lemma NumberLit.ext' {l l' : NumberLit} (h : l.text = l'.text) : l = l' := by
  cases l
  cases l'
  cases h
  rfl

lemma numberText_text : NumberText NumberLit.text where
  injective := fun _ _ h => NumberLit.ext' h
  ne_nil := NumberLit.ne_nil
  chars := NumberLit.chars

lemma numberChar_of_digit {c : Char} (h : c.isDigit = true) : numberChar c = true := by
  simp only [numberChar, h, Bool.true_or]

def NumberLit.ofInt (n : Int) : NumberLit where
  text := Text.ofInt n
  ne_nil := by
    rw [Text.ofInt]
    split
    · exact List.cons_ne_nil _ _
    · exact Text.decimal_ne_nil _
  chars := fun c hc => by
    rw [Text.ofInt] at hc
    split at hc
    · rcases mem_cons.1 hc with rfl | hc
      · rfl
      · exact numberChar_of_digit (Text.decimal_isDigit hc)
    · exact numberChar_of_digit (Text.decimal_isDigit hc)

namespace Json

open Option

variable {ν : Type} {number : ν → Text} {esc : Char → Text} {s s' r r' : Text} {j j' : Json ν}

/-! ## unambiguous texts -/

lemma flatMap_esc_inj (he : EscapeCode esc)
    (h : s.flatMap esc ++ '"' :: r = s'.flatMap esc ++ '"' :: r') : s = s' ∧ r = r' := by
  induction s generalizing s' with
  | nil =>
    cases s' with
    | nil => exact ⟨rfl, (cons.inj h).2⟩
    | cons c s' =>
      obtain ⟨a, t, ha, hne⟩ := he.head c
      rw [flatMap_cons, ha] at h
      exact absurd (cons.inj h).1.symm hne
  | cons c s ih =>
    cases s' with
    | nil =>
      obtain ⟨a, t, ha, hne⟩ := he.head c
      rw [flatMap_cons, ha] at h
      exact absurd (cons.inj h).1 hne
    | cons c' s' =>
      rw [flatMap_cons, flatMap_cons, append_assoc, append_assoc] at h
      obtain ⟨hc, htail⟩ := he.inj h
      obtain ⟨hs, hr⟩ := ih htail
      exact ⟨by rw [hc, hs], hr⟩

lemma quote_inj (he : EscapeCode esc) (h : quote esc s ++ r = quote esc s' ++ r') : s = s' ∧ r = r' := by
  simp only [quote, cons_append, append_assoc, nil_append] at h
  exact flatMap_esc_inj he (cons.inj h).2

/-- what follows a value does not go on like a number. -/
def Ends (r : Text) : Prop := ∀ c t, r = c :: t → numberChar c = false

lemma ends_renderItems (l : List (Json ν)) (r : Text) : Ends (renderItems number esc l ++ r) := by
  intro c t h
  cases l with
  | _ => cases h; rfl

lemma ends_renderFields (l : List (Text × Json ν)) (r : Text) :
    Ends (renderFields number esc l ++ r) := by
  intro c t h
  cases l with
  | _ => cases h; rfl

lemma number_append_inj {a a' : Text} (ha : ∀ c ∈ a, numberChar c = true)
    (ha' : ∀ c ∈ a', numberChar c = true) (hr : Ends r) (hr' : Ends r') (h : a ++ r = a' ++ r') :
    a = a' ∧ r = r' := by
  induction a generalizing a' with
  | nil =>
    cases a' with
    | nil => exact ⟨rfl, h⟩
    | cons c a' =>
      have hc := ha' c mem_cons_self
      rw [hr c _ h] at hc
      cases hc
  | cons c a ih =>
    cases a' with
    | nil =>
      have hc := ha c mem_cons_self
      rw [hr' c _ h.symm] at hc
      cases hc
    | cons c' a' =>
      obtain ⟨hc, htail⟩ := cons.inj h
      obtain ⟨hs, hr⟩ := ih (fun d hd => ha d (mem_cons_of_mem c hd))
        (fun d hd => ha' d (mem_cons_of_mem c' hd)) htail
      exact ⟨by rw [hc, hs], hr⟩

/-- the kind of a value, and of a text by its first character. -/
def kind : Json ν → Nat
  | .null => 0
  | .bool _ => 1
  | .num _ => 2
  | .str _ => 3
  | .arr _ => 4
  | .obj _ => 5

def charKind (c : Char) : Nat :=
  if c = 'n' then 0 else if c = 'f' then 1 else if c = 't' then 1 else if numberChar c then 2
  else if c = '"' then 3 else if c = '[' then 4 else if c = '{' then 5 else 6

lemma charKind_of_number {c : Char} (h : numberChar c = true) : charKind c = 2 := by
  have hn : c ≠ 'n' := fun e => by rw [e] at h; revert h; decide
  have hf : c ≠ 'f' := fun e => by rw [e] at h; revert h; decide
  have ht : c ≠ 't' := fun e => by rw [e] at h; revert h; decide
  rw [charKind, if_neg hn, if_neg hf, if_neg ht, if_pos h]

variable (esc) in
lemma render_head (hnum : NumberText number) (j : Json ν) :
    ∃ c t, render number esc j = c :: t ∧ charKind c = kind j := by
  cases j with
  | null => exact ⟨_, _, by rw [render], rfl⟩
  | bool b =>
    cases b with
    | _ => exact ⟨_, _, by rw [render], rfl⟩
  | num n =>
    cases hn : number n with
    | nil => exact absurd hn (hnum.ne_nil n)
    | cons c t =>
      refine ⟨c, t, by rw [render, hn], ?_⟩
      exact charKind_of_number (hnum.chars n c (hn ▸ mem_cons_self))
  | str s => exact ⟨_, _, by rw [render, quote], rfl⟩
  | arr items =>
    cases items with
    | _ => exact ⟨_, _, by rw [render], rfl⟩
  | obj fields =>
    cases fields with
    | _ => exact ⟨_, _, by rw [render], rfl⟩

lemma kind_eq (hnum : NumberText number)
    (h : render number esc j ++ r = render number esc j' ++ r') : kind j = kind j' := by
  obtain ⟨c, t, hc, hk⟩ := render_head esc hnum j
  obtain ⟨c', t', hc', hk'⟩ := render_head esc hnum j'
  rw [hc, hc'] at h
  rw [← hk, ← hk', (cons.inj h).1]

lemma render_ne_close (hnum : NumberText number)
    (h : render number esc j ++ r = ']' :: r') : False := by
  obtain ⟨c, t, hc, hk⟩ := render_head esc hnum j
  rw [hc] at h
  rw [(cons.inj h).1] at hk
  cases j with
  | _ => cases hk

mutual

/-- **the text of a value determines the value**, also at the beginning of a longer text. -/
theorem render_inj (hnum : NumberText number) (he : EscapeCode esc) : ∀ (j j' : Json ν) (r r' : Text),
    (∀ n, j = .num n → Ends r) → (∀ n, j' = .num n → Ends r') →
      render number esc j ++ r = render number esc j' ++ r' → j = j' ∧ r = r'
  | .null, j', r, r', hr, hr', h => by
    cases j' with
    | null => exact ⟨rfl, append_cancel_left h⟩
    | _ => cases kind_eq hnum h
  | .bool b, j', r, r', hr, hr', h => by
    cases j' with
    | bool b' =>
      cases b <;> cases b'
      · exact ⟨rfl, append_cancel_left h⟩
      · cases (cons.inj h).1
      · cases (cons.inj h).1
      · exact ⟨rfl, append_cancel_left h⟩
    | _ => cases kind_eq hnum h
  | .num n, j', r, r', hr, hr', h => by
    cases j' with
    | num n' =>
      rw [render, render] at h
      obtain ⟨hn, htail⟩ :=
        number_append_inj (hnum.chars n) (hnum.chars n') (hr n rfl) (hr' n' rfl) h
      exact ⟨congrArg _ (hnum.injective n n' hn), htail⟩
    | _ => cases kind_eq hnum h
  | .str s, j', r, r', hr, hr', h => by
    cases j' with
    | str s' =>
      obtain ⟨hs, htail⟩ := quote_inj he h
      exact ⟨congrArg _ hs, htail⟩
    | _ => cases kind_eq hnum h
  | .arr [], j', r, r', hr, hr', h => by
    cases j' with
    | arr items =>
      cases items with
      | nil => exact ⟨rfl, append_cancel_left h⟩
      | cons j l =>
        simp only [render, cons_append, nil_append, append_assoc] at h
        exact (render_ne_close hnum (cons.inj h).2.symm).elim
    | _ => cases kind_eq hnum h
  | .arr (j :: l), j', r, r', hr, hr', h => by
    cases j' with
    | arr items =>
      cases items with
      | nil =>
        rw [render, render, cons_append, cons_append, append_assoc] at h
        exact (render_ne_close hnum (cons.inj h).2).elim
      | cons j' l' =>
        rw [render, render] at h
        have hl := renderItems_inj hnum he (j :: l) (j' :: l') r r' (by
          exact congrArg (',' :: ·) (cons.inj h).2)
        exact hl.imp_left (congrArg _)
    | _ => cases kind_eq hnum h
  | .obj [], j', r, r', hr, hr', h => by
    cases j' with
    | obj fields =>
      cases fields with
      | nil => exact ⟨rfl, append_cancel_left h⟩
      | cons p l =>
        cases (cons.inj (cons.inj h).2).1
    | _ => cases kind_eq hnum h
  | .obj ((k, j) :: l), j', r, r', hr, hr', h => by
    cases j' with
    | obj fields =>
      cases fields with
      | nil =>
        rw [render, render] at h
        cases (cons.inj (cons.inj h).2).1
      | cons p l' =>
        obtain ⟨k', j'⟩ := p
        have hl := renderFields_inj hnum he ((k, j) :: l) ((k', j') :: l') r r' (by
          exact congrArg (',' :: ·) (cons.inj h).2)
        exact hl.imp_left (congrArg _)
    | _ => cases kind_eq hnum h

theorem renderItems_inj (hnum : NumberText number) (he : EscapeCode esc) :
    ∀ (l l' : List (Json ν)) (r r' : Text),
      renderItems number esc l ++ r = renderItems number esc l' ++ r' → l = l' ∧ r = r'
  | [], l', r, r', h => by
    cases l' with
    | nil => exact ⟨rfl, append_cancel_left h⟩
    | cons j' l' =>
      rw [renderItems, renderItems] at h
      cases (cons.inj h).1
  | j :: l, l', r, r', h => by
    cases l' with
    | nil =>
      cases (cons.inj h).1
    | cons j' l' =>
      rw [renderItems, renderItems, cons_append, cons_append, append_assoc, append_assoc] at h
      obtain ⟨hj, htail⟩ := render_inj hnum he j j' _ _ (fun _ _ => ends_renderItems l r)
        (fun _ _ => ends_renderItems l' r') (cons.inj h).2
      obtain ⟨hl, hrest⟩ := renderItems_inj hnum he l l' r r' htail
      exact ⟨by rw [hj, hl], hrest⟩

theorem renderFields_inj (hnum : NumberText number) (he : EscapeCode esc) :
    ∀ (l l' : List (Text × Json ν)) (r r' : Text),
      renderFields number esc l ++ r = renderFields number esc l' ++ r' → l = l' ∧ r = r'
  | [], l', r, r', h => by
    cases l' with
    | nil => exact ⟨rfl, append_cancel_left h⟩
    | cons p l' =>
      rw [renderFields, renderFields] at h
      cases (cons.inj h).1
  | (k, j) :: l, l', r, r', h => by
    cases l' with
    | nil =>
      cases (cons.inj h).1
    | cons p l' =>
      obtain ⟨k', j'⟩ := p
      rw [renderFields, renderFields, cons_append, cons_append, append_assoc, append_assoc] at h
      obtain ⟨hk, htail⟩ := quote_inj he (cons.inj h).2
      rw [cons_append, cons_append, append_assoc, append_assoc] at htail
      obtain ⟨hj, htail⟩ := render_inj hnum he j j' _ _ (fun _ _ => ends_renderFields l r)
        (fun _ _ => ends_renderFields l' r') (cons.inj htail).2
      obtain ⟨hl, hrest⟩ := renderFields_inj hnum he l l' r r' htail
      exact ⟨by rw [hk, hj, hl], hrest⟩

end

end Json
