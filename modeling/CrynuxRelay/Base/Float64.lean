import CrynuxRelay.Base.Json
import Mathlib.Algebra.Order.Group.Int

/-!
# Numbers as double precision floats

* `roundNat`, `roundInt` -- integers rounded to 53 significant bits, half to even;
* `FloatCodec` -- how numbers are read as floats and floats are written: what is written is read back,
  and integers are rounded;
* `integerCodec` -- a codec that is exact up to the rounding of integers.
-/

/-! ## rounding -/

/-- round to a multiple of `2 ^ e`, half to even. -/
def roundTo (e m : Nat) : Nat :=
  let q := m / 2 ^ e
  let r := m % 2 ^ e
  (if 2 ^ e < 2 * r ∨ 2 * r = 2 ^ e ∧ q % 2 = 1 then q + 1 else q) * 2 ^ e

def roundNat (m : Nat) : Nat := if m < 2 ^ 53 then m else roundTo (m.log2 - 52) m

def roundInt (n : Int) : Int := n.sign * roundNat n.natAbs

lemma roundTo_mul (e k : Nat) : roundTo e (k * 2 ^ e) = k * 2 ^ e := by
  have hpos : 0 < 2 ^ e := Nat.two_pow_pos e
  have hdiv : k * 2 ^ e / 2 ^ e = k := Nat.mul_div_cancel k hpos
  have hmod : k * 2 ^ e % 2 ^ e = 0 := Nat.mul_mod_left k _
  simp only [roundTo, hdiv, hmod]
  rw [if_neg (by omega)]

lemma roundNat_mul {k e : Nat} (hlow : 2 ^ 52 ≤ k) (hhigh : k < 2 ^ 53) :
    roundNat (k * 2 ^ e) = k * 2 ^ e := by
  have hpos : 0 < 2 ^ e := Nat.two_pow_pos e
  rw [roundNat]
  split
  · rfl
  · have hlog : (k * 2 ^ e).log2 = 52 + e := by
      refine (Nat.log2_eq_iff (Nat.mul_ne_zero (by omega) (by omega))).2 ⟨?_, ?_⟩
      · rw [Nat.pow_add]
        exact Nat.mul_le_mul_right _ hlow
      · rw [show 52 + e + 1 = 53 + e by omega, Nat.pow_add]
        exact Nat.mul_lt_mul_of_pos_right hhigh hpos
    rw [hlog, Nat.add_sub_cancel_left, roundTo_mul]

lemma roundNat_roundNat (m : Nat) : roundNat (roundNat m) = roundNat m := by
  by_cases hm : m < 2 ^ 53
  · rw [show roundNat m = m from if_pos hm]
    exact if_pos hm
  · have hround : roundNat m = roundTo (m.log2 - 52) m := if_neg hm
    have hne : m ≠ 0 := by omega
    obtain ⟨hlow, hhigh⟩ := (Nat.log2_eq_iff hne).1 rfl
    have hlog : 53 ≤ m.log2 := (Nat.le_log2 hne).2 (by omega)
    obtain ⟨e, he⟩ : ∃ e, m.log2 = 52 + e := ⟨m.log2 - 52, by omega⟩
    rw [he, Nat.pow_add] at hlow
    rw [he, show 52 + e + 1 = 53 + e by omega, Nat.pow_add] at hhigh
    have hpos : 0 < 2 ^ e := Nat.two_pow_pos e
    have hq : 2 ^ 52 ≤ m / 2 ^ e := (Nat.le_div_iff_mul_le hpos).2 hlow
    have hq' : m / 2 ^ e < 2 ^ 53 := (Nat.div_lt_iff_lt_mul hpos).2 hhigh
    rw [hround, he, Nat.add_sub_cancel_left, roundTo]
    split
    · -- rounded up, maybe to the next power of two
      by_cases hk : m / 2 ^ e + 1 < 2 ^ 53
      · exact roundNat_mul (by omega) hk
      · have hk : m / 2 ^ e + 1 = 2 ^ 53 := by omega
        have hsplit : (2 : Nat) ^ 53 * 2 ^ e = 2 ^ 52 * 2 ^ (e + 1) := by
          rw [← Nat.pow_add, ← Nat.pow_add]
          exact congrArg _ (by omega)
        rw [hk, hsplit]
        exact roundNat_mul (Nat.le_refl _) (by decide)
    · exact roundNat_mul hq hq'

lemma roundNat_pos {m : Nat} (h : 0 < m) : 0 < roundNat m := by
  rw [roundNat]
  split
  · exact h
  · next hm =>
    have hne : m ≠ 0 := by omega
    have hle : 2 ^ (m.log2 - 52) ≤ m :=
      (Nat.pow_le_pow_right (by decide) (Nat.sub_le _ _)).trans ((Nat.log2_eq_iff hne).1 rfl).1
    have hq : 0 < m / 2 ^ (m.log2 - 52) := Nat.div_pos hle (Nat.two_pow_pos _)
    rw [roundTo]
    split
    · exact Nat.mul_pos (Nat.succ_pos _) (Nat.two_pow_pos _)
    · exact Nat.mul_pos hq (Nat.two_pow_pos _)

lemma roundInt_roundInt (n : Int) : roundInt (roundInt n) = roundInt n := by
  have habs : (roundInt n).natAbs = roundNat n.natAbs := by
    rw [roundInt, Int.natAbs_mul, Int.natAbs_natCast, Int.natAbs_sign]
    split
    · next hz =>
      rw [hz]
      rfl
    · rw [Nat.one_mul]
  have hsign : (roundInt n).sign = n.sign := by
    rcases Int.lt_trichotomy n 0 with hn | rfl | hn
    · have hpos : 0 < roundNat n.natAbs := roundNat_pos (by omega)
      have hneg : roundInt n < 0 := by
        rw [roundInt, Int.sign_eq_neg_one_of_neg hn]
        omega
      rw [Int.sign_eq_neg_one_of_neg hn, Int.sign_eq_neg_one_of_neg hneg]
    · rfl
    · have hpos : 0 < roundNat n.natAbs := roundNat_pos (by omega)
      have hpos' : 0 < roundInt n := by
        rw [roundInt, Int.sign_eq_one_of_pos hn]
        omega
      rw [Int.sign_eq_one_of_pos hn, Int.sign_eq_one_of_pos hpos']
  rw [roundInt, habs, hsign, roundNat_roundNat]
  rfl

lemma roundNat_eq_zero {m : Nat} : roundNat m = 0 ↔ m = 0 := by
  constructor
  · intro h
    by_contra hm
    exact absurd h (roundNat_pos (Nat.pos_of_ne_zero hm)).ne'
  · rintro rfl
    rfl

lemma roundInt_natCast (m : Nat) : roundInt m = roundNat m := by
  rcases Nat.eq_zero_or_pos m with rfl | hm
  · rfl
  · rw [roundInt, Int.sign_natCast_of_ne_zero hm.ne', Int.natAbs_natCast, Int.one_mul]

/-! ## codecs -/

/-- floats as texts: `parse` fails on numbers that are out of range. -/
structure FloatCodec where
  Value : Type
  parse : NumberLit → Option Value
  format : Value → NumberLit
  parse_format : ∀ x, parse (format x) = some x
  parse_int : ∀ n : Int, n.natAbs < 2 ^ 1023 → (parse (NumberLit.ofInt n)).isSome = true
  parse_round : ∀ n m : Int, roundInt n = roundInt m →
    parse (NumberLit.ofInt n) = parse (NumberLit.ofInt m)
  round_parse : ∀ n m : Int, (parse (NumberLit.ofInt n)).isSome = true →
    parse (NumberLit.ofInt n) = parse (NumberLit.ofInt m) → roundInt n = roundInt m

namespace FloatCodec

def text (codec : FloatCodec) (x : codec.Value) : Text := (codec.format x).text

lemma numberText (codec : FloatCodec) : NumberText codec.text where
  injective := fun x y h => by
    have hlit : codec.format x = codec.format y := NumberLit.ext' h
    have hx := codec.parse_format x
    rw [hlit, codec.parse_format y] at hx
    exact (Option.some.inj hx).symm
  ne_nil := fun x => (codec.format x).ne_nil
  chars := fun x => (codec.format x).chars

end FloatCodec

def roundLit (l : NumberLit) : NumberLit :=
  match Text.parseInt l.text with
  | some n => NumberLit.ofInt (roundInt n)
  | none => l

lemma roundLit_ofInt (n : Int) : roundLit (NumberLit.ofInt n) = NumberLit.ofInt (roundInt n) := by
  have h : Text.parseInt (NumberLit.ofInt n).text = some n := Text.parseInt_ofInt n
  rw [roundLit, h]

lemma roundLit_roundLit (l : NumberLit) : roundLit (roundLit l) = roundLit l := by
  cases h : Text.parseInt l.text with
  | some n =>
    have hl : roundLit l = NumberLit.ofInt (roundInt n) := by rw [roundLit, h]
    rw [hl, roundLit_ofInt, roundInt_roundInt]
  | none =>
    have hl : roundLit l = l := by rw [roundLit, h]
    rw [hl, hl]

lemma NumberLit.ofInt_inj {n m : Int} (h : ofInt n = ofInt m) : n = m :=
  Text.ofInt_inj (congrArg NumberLit.text h)

def integerCodec : FloatCodec where
  Value := { l : NumberLit // roundLit l = l }
  parse := fun l => some ⟨roundLit l, roundLit_roundLit l⟩
  format := Subtype.val
  parse_format := fun x => congrArg some (Subtype.ext x.2)
  parse_int := fun _ _ => rfl
  parse_round := fun n m h => by
    rw [Option.some.injEq, Subtype.mk.injEq, roundLit_ofInt, roundLit_ofInt, h]
  round_parse := fun n m _ h => by
    rw [Option.some.injEq, Subtype.mk.injEq, roundLit_ofInt, roundLit_ofInt] at h
    exact NumberLit.ofInt_inj h
