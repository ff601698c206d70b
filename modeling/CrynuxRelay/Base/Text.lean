import Mathlib.Algebra.Group.Nat.Defs
import Mathlib.Data.Int.Basic
import Mathlib.Tactic.Common

/-!
# Texts: cutting at a separator, decimal numerals

Texts are lists of characters.

* `Text.splitN` -- at most `n` pieces, the last one with the separators that are left;
* `Text.decimal` / `Text.parseUint` -- numerals of an unsigned number of a bounded width;
* `Text.ofInt` / `Text.parseInt` -- numerals with an optional sign.
-/

abbrev Text := List Char

instance : LawfulBEq Text := inferInstanceAs (LawfulBEq (List Char))

namespace Text

open List Option

/-! ## cutting -/

/-- the parts before and after the first `sep`. -/
def cut (sep : Char) : Text → Option (Text × Text)
  | [] => none
  | c :: s => if c = sep then some ([], s) else (cut sep s).map fun p => (c :: p.1, p.2)

/-- split at the first `n - 1` separators. -/
def splitN (sep : Char) : Nat → Text → List Text
  | 0, _ => []
  | 1, s => [s]
  | n + 2, s =>
    match cut sep s with
    | none => [s]
    | some (a, b) => a :: splitN sep (n + 1) b

lemma cut_append {sep : Char} {a : Text} (h : sep ∉ a) (b : Text) :
    cut sep (a ++ sep :: b) = some (a, b) := by
  induction a with
  | nil => simp [cut]
  | cons c a ih =>
    have hc : c ≠ sep := fun e => h (e ▸ mem_cons_self)
    have ha : sep ∉ a := fun hm => h (mem_cons_of_mem c hm)
    simp [cut, hc, ih ha]

lemma splitN_one (sep : Char) (s : Text) : splitN sep 1 s = [s] := rfl

lemma splitN_append {sep : Char} {a : Text} (h : sep ∉ a) (b : Text) (n : Nat) :
    splitN sep (n + 2) (a ++ sep :: b) = a :: splitN sep (n + 1) b := by
  rw [splitN, cut_append h]

/-! ## unsigned numerals -/

def decimal (n : Nat) : Text := Nat.toDigits 10 n

/-- a nonempty text of digits, as a number below `2 ^ w`. -/
def parseUint (w : Nat) (s : Text) : Option Nat :=
  if s ≠ [] ∧ s.all Char.isDigit ∧ Nat.ofDigitChars 10 s 0 < 2 ^ w then
    some (Nat.ofDigitChars 10 s 0)
  else none

lemma decimal_isDigit {n : Nat} {c : Char} (h : c ∈ decimal n) : c.isDigit = true :=
  Nat.isDigit_of_mem_toDigits (by decide) (by decide) h

lemma decimal_all_isDigit (n : Nat) : (decimal n).all Char.isDigit = true :=
  all_eq_true.2 fun _ h => decimal_isDigit h

lemma ofDigitChars_decimal (n : Nat) : Nat.ofDigitChars 10 (decimal n) 0 = n :=
  Nat.ofDigitChars_ten_toDigits

lemma decimal_ne_nil (n : Nat) : decimal n ≠ [] := by
  intro h
  have hz := ofDigitChars_decimal n
  rw [h, Nat.ofDigitChars_nil] at hz
  subst hz
  exact absurd h (by decide)

lemma decimal_injective {n m : Nat} (h : decimal n = decimal m) : n = m := by
  rw [← ofDigitChars_decimal n, h, ofDigitChars_decimal]

lemma dash_not_mem_decimal (n : Nat) : '-' ∉ decimal n :=
  fun h => absurd (decimal_isDigit h) (by decide)

theorem parseUint_decimal {w n : Nat} (h : n < 2 ^ w) : parseUint w (decimal n) = some n := by
  have hn := ofDigitChars_decimal n
  rw [parseUint, hn, if_pos ⟨decimal_ne_nil n, decimal_all_isDigit n, h⟩]

/-! ## signed numerals -/

def ofInt (z : Int) : Text := if z < 0 then '-' :: decimal z.natAbs else decimal z.natAbs

def parseNat (s : Text) : Option Nat :=
  if s ≠ [] ∧ s.all Char.isDigit then some (Nat.ofDigitChars 10 s 0) else none

/-- an optional sign and at least one digit. -/
def parseInt : Text → Option Int
  | '-' :: s => (parseNat s).map fun n : Nat => -(n : Int)
  | '+' :: s => (parseNat s).map fun n : Nat => (n : Int)
  | s => (parseNat s).map fun n : Nat => (n : Int)

lemma parseNat_decimal (n : Nat) : parseNat (decimal n) = some n := by
  have hn := ofDigitChars_decimal n
  rw [parseNat, hn, if_pos ⟨decimal_ne_nil n, decimal_all_isDigit n⟩]

lemma parseInt_decimal (n : Nat) : parseInt (decimal n) = some (n : Int) := by
  have hp := parseNat_decimal n
  unfold parseInt
  split
  · next s h => exact absurd (h ▸ mem_cons_self) (dash_not_mem_decimal n)
  · next s h =>
    have hd : ('+' : Char).isDigit = true := decimal_isDigit (h ▸ mem_cons_self)
    exact absurd hd (by decide)
  · rw [hp]; rfl

theorem parseInt_ofInt (z : Int) : parseInt (ofInt z) = some z := by
  unfold ofInt
  split
  · next h =>
    show (parseNat (decimal z.natAbs)).map (fun n : Nat => -(n : Int)) = some z
    have hz : -(z.natAbs : Int) = z := by omega
    rw [parseNat_decimal, map_some, hz]
  · next h =>
    have hz : (z.natAbs : Int) = z := by omega
    rw [parseInt_decimal, hz]

lemma ofInt_inj {n m : Int} (h : ofInt n = ofInt m) : n = m := by
  have hn := parseInt_ofInt n
  rw [h, parseInt_ofInt] at hn
  exact (some.inj hn).symm

lemma dash_not_mem_ofInt {z : Int} (h : 0 ≤ z) : '-' ∉ ofInt z := by
  rw [ofInt, if_neg (by omega)]
  exact dash_not_mem_decimal _

end Text
