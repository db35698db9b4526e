import Mathlib.Algebra.Order.Field.Rat
import Mathlib.Data.Nat.Log
import Mathlib.Tactic.FieldSimp
import Mathlib.Tactic.NormNum
import PgpInspect.Binary64

/-!
# Whole numbers are exact

Below `2 ^ 53` every natural number is a binary64 number, so that sums and products of natural
numbers that stay below it are not rounded (`Binary64.natCast_add_natCast`,
`Binary64.scaleBy_natCast`), and numbers compare as the natural numbers do. The strict order is one
on all numbers, whole or not.
-/

namespace PgpInspect.Binary64

/-! ## The strict order -/

/-- No number is less than itself. -/
theorem lt_irrefl (a : Binary64) : ¬ a < a := by
  show ¬ a.lt a = true
  cases a with
  | finite value => simp [lt]
  | infinite negative => cases negative <;> decide
  | undefined => decide

/-- The strict order is transitive. -/
theorem lt_trans {a b c : Binary64} (hab : a < b) (hbc : b < c) : a < c := by
  change a.lt b = true at hab
  change b.lt c = true at hbc
  show a.lt c = true
  cases b with
  | finite middle =>
    cases a with
    | finite low =>
      cases c with
      | finite high =>
        simp only [lt, decide_eq_true_eq] at hab hbc ⊢
        exact hab.trans hbc
      | infinite negative => exact hbc
      | undefined => cases hbc
    | infinite negative =>
      cases c with
      | finite high => exact hab
      | infinite negative' =>
        simp only [lt] at hab hbc ⊢
        rw [hab, hbc]
        rfl
      | undefined => cases hbc
    | undefined => cases hab
  | infinite middle =>
    -- Only numbers less than positive infinity, and greater than negative infinity, are left.
    cases middle with
    | true => cases a <;> simp_all [lt]
    | false => cases c <;> simp_all [lt]
  | undefined => cases hbc

/-- Equal numbers are the same number. -/
theorem eq_of_equal {a b : Binary64} (h : a.equal b = true) : a = b := by
  cases a with
  | finite value => exact of_decide_eq_true h
  | infinite negative => exact of_decide_eq_true h
  | undefined => cases h

/-- What is less than a number is less than any that is not less than it. -/
protected theorem lt_of_lt_of_le {a b c : Binary64} (hab : a < b) (hbc : b ≤ c) : a < c := by
  change (b.lt c || b.equal c) = true at hbc
  rcases Bool.or_eq_true _ _ ▸ hbc with hlt | hequal
  · exact lt_trans hab hlt
  · rw [← eq_of_equal hequal]
    exact hab

/-! ## Natural numbers -/

/-- A whole number is the nearest one to itself. -/
theorem roundQuotient_one (n : Nat) : roundQuotient n 1 = n := by
  simp [roundQuotient, Nat.mod_one]

/-- The exponent of a natural number is its logarithm. -/
theorem binaryExponent_one {n : Nat} (h : n ≠ 0) : binaryExponent n 1 = (n.log2 : Int) := by
  have hle : 2 ^ n.log2 ≤ n := Nat.log2_self_le h
  have hone : Nat.log2 1 = 0 := by decide
  unfold binaryExponent
  simp [hone, hle]

/-- A natural number below `2 ^ 53` is the magnitude nearest to itself. -/
theorem roundMagnitude_one {n : Nat} (h : n < 2 ^ 53) : roundMagnitude n 1 = (n : Rat) := by
  unfold roundMagnitude
  split
  · next hzero => simp [hzero]
  · next hne =>
    have hlog : n.log2 < 53 := (Nat.log2_lt hne).mpr h
    -- The last of the 53 significant bits stands for one or for a fraction.
    have hunit : unitExponent n 1 = (n.log2 : Int) - 52 := by
      unfold unitExponent
      rw [binaryExponent_one hne]
      omega
    rw [hunit]
    dsimp only
    split
    · have hlast : (n.log2 : Int) - 52 = 0 := by omega
      rw [hlast]
      simp [roundQuotient_one, scale]
    · have hneg : ¬ 0 ≤ (n.log2 : Int) - 52 := by assumption
      rw [roundQuotient_one, scale, if_neg hneg, Rat.mkRat_eq_div]
      generalize (-((n.log2 : Int) - 52)).toNat = places
      have hpos : ((2 : Rat) ^ places) ≠ 0 := by positivity
      push_cast
      rw [Nat.pow_eq]
      push_cast
      field_simp

/-- A natural number below `2 ^ 53` is not rounded. -/
theorem ofRat_natCast {n : Nat} (h : n < 2 ^ 53) : ofRat (n : Rat) = (n : Binary64) := by
  have hnum : ((n : Rat)).num.natAbs = n := by simp
  have hden : ((n : Rat)).den = 1 := by simp
  have hpow (places : Nat) (hplaces : 53 ≤ places) : n < Nat.pow 2 places :=
    lt_of_lt_of_le h (Nat.pow_le_pow_right (by decide) hplaces)
  have hsign : ¬ ((n : Rat)).num < 0 := by simp
  unfold ofRat
  rw [hnum, hden, roundMagnitude_one h]
  -- The bound of all finite numbers is compared, not computed.
  generalize hplaces : 1024 = places
  have hlimit : ¬ ((Nat.pow 2 places : Nat) : Rat) ≤ (n : Rat) :=
    not_le.mpr (Nat.cast_lt.mpr (hpow places (by omega)))
  rw [if_neg hlimit, if_neg hsign]
  rfl

/-- The sum of natural numbers is exact below `2 ^ 53`. -/
theorem natCast_add_natCast {a b : Nat} (h : a + b < 2 ^ 53) :
    (a : Binary64) + (b : Binary64) = ((a + b : Nat) : Binary64) := by
  have hsum : (a : Rat) + (b : Rat) = ((a + b : Nat) : Rat) := by push_cast; rfl
  show ofRat ((a : Rat) + (b : Rat)) = _
  rw [hsum, ofRat_natCast h]

/-- A multiple of a natural number is exact below `2 ^ 53`. -/
theorem scaleBy_natCast {a factor : Nat} (h : a * factor < 2 ^ 53) :
    scaleBy factor (a : Binary64) = ((a * factor : Nat) : Binary64) := by
  have hproduct : (a : Rat) * (factor : Rat) = ((a * factor : Nat) : Rat) := by push_cast; rfl
  show ofRat ((a : Rat) * (factor : Rat)) = _
  rw [hproduct, ofRat_natCast h]

/-- Different natural numbers are different numbers. -/
theorem natCast_inj {a b : Nat} : (a : Binary64) = (b : Binary64) ↔ a = b := by
  constructor
  · intro h
    exact_mod_cast Binary64.finite.inj h
  · rintro rfl
    rfl

/-- A natural number is zero exactly if its number is. -/
theorem natCast_eq_zero {n : Nat} : (n : Binary64) = 0 ↔ n = 0 := natCast_inj (b := 0)

/-- A natural number is positive exactly if its number is. -/
theorem zero_lt_natCast {n : Nat} : (0 : Binary64) < (n : Binary64) ↔ 0 < n :=
  natCast_lt_natCast (a := 0)

/-- Natural numbers are the same number exactly if they are equal. -/
theorem equal_natCast {a b : Nat} :
    equal (a : Binary64) (b : Binary64) = true ↔ a = b := by
  show decide ((a : Binary64) = (b : Binary64)) = true ↔ a = b
  rw [decide_eq_true_iff, natCast_inj]

/-- A natural number is zero exactly if its number is not positive. -/
theorem natCast_le_zero {n : Nat} : (n : Binary64) ≤ 0 ↔ n = 0 := by
  have hlt : ¬ (n : Binary64) < 0 := by
    intro h
    exact absurd (natCast_lt_natCast (b := 0) |>.mp h) (Nat.not_lt_zero n)
  have hle : (n : Binary64) ≤ 0 ↔
      ((n : Binary64).lt 0 || (n : Binary64).equal 0) = true := Iff.rfl
  rw [hle, Bool.or_eq_true]
  constructor
  · rintro (h | h)
    · exact absurd h hlt
    · exact equal_natCast (b := 0) |>.mp h
  · intro h
    exact .inr (equal_natCast (b := 0) |>.mpr h)

end PgpInspect.Binary64
