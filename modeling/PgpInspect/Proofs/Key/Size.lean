import Mathlib.Algebra.Order.Round
import Mathlib.Data.Rat.Floor
import Mathlib.Tactic.NormNum
import PgpInspect.Key.Size
import PgpInspect.Proofs.Binary64.Quotient
import PgpInspect.Proofs.Octets.Hexadecimal

/-!
# How good the estimate of a key size is

The size of a key with a modulus is estimated from the number `d` of hexadecimal digits that the
value of the modulus has, by two roundings one after the other. The digits that are counted are
those of the value, whatever zeros are written in front of them (`hexLength_eq`), and the two
roundings are at most one bit off: the estimate is `4 * d` or `4 * d - 1`, and it is `4 * d` where
32 divides `d` (`estimatesSize_sizeOfModulus`). Nothing else is rounded: binary64 numbers give the
same estimate (`sizeInBinary64?_eq`).
-/

namespace PgpInspect

open Binary64 (divideBy floor? round? scaleBy)

/-! ## The estimate -/

/-- The number of hexadecimal digits of a number; zero has one. -/
def hexDigitCount (value : Nat) : Nat := max 1 (Nat.digits 16 value).length

/-- The digits that are counted are those of the value. -/
theorem hexLength_eq (octets : Octets) : hexLength octets = hexDigitCount octets.toNat := by
  rw [hexLength, hexDigitCount, Octets.length_dropWhile_hexDigits]

/-- A greater number does not have fewer digits. -/
theorem hexDigitCount_mono {value value' : Nat} (h : value ≤ value') :
    hexDigitCount value ≤ hexDigitCount value' :=
  max_le_max_left 1 (Nat.le_length_digits_le 16 _ _ h)

/-- The size that a number of digits indicates. -/
def sizeOfDigits (digits : Nat) : Nat := (2 * (digits * 125) + 32) / 64 * 1024 / 1000

/-- The size that a modulus indicates is that of the digits of its value. -/
theorem sizeOfModulus_eq (modulus : Octets) :
    sizeOfModulus modulus = sizeOfDigits (hexDigitCount modulus.toNat) := by
  rw [sizeOfModulus, hexLength_eq]
  rfl

/-- The quotient by `0.256` is rounded to the nearest integer, halves up. -/
theorem round_div (digits : Nat) :
    round ((digits : Rat) / 0.256) = ((2 * (digits * 125) + 32) / 64 : Nat) := by
  have hquotient : (digits : Rat) / 0.256 + 1 / 2 =
      ((2 * (digits * 125) + 32 : Nat) : Rat) / ((64 : Nat) : Rat) := by
    push_cast
    norm_num
    ring
  rw [round_eq, hquotient, Binary64.floor_natCast_div]

/-- The size of a number of digits is computed without any rounding but the two that it is defined
by: to the nearest unit, halves up, and down. -/
theorem sizeOfDigits_eq_floor (digits : Nat) :
    (sizeOfDigits digits : Int) = ⌊(1.024 : Rat) * round ((digits : Rat) / 0.256)⌋ := by
  have hproduct (units : Nat) : (1.024 : Rat) * ((units : Int) : Rat) =
      ((units * 1024 : Nat) : Rat) / ((1000 : Nat) : Rat) := by
    push_cast
    norm_num
    ring
  rw [round_div, hproduct, Binary64.floor_natCast_div]
  rfl

/-- The size of a number of digits, computed with binary64 numbers. -/
def sizeInBinary64? (digits : Nat) : Option Int := do
  let units ← round? (divideBy 32 (scaleBy 125 (digits : Binary64)))
  floor? (divideBy 1000 (scaleBy 1024 (units : Binary64)))

/-- Binary64 numbers give the same size. -/
theorem sizeInBinary64?_eq {digits : Nat} (h : digits < 2 ^ 32) :
    sizeInBinary64? digits = some (sizeOfDigits digits : Int) := by
  have hquotient : divideBy 32 (scaleBy 125 (digits : Binary64)) =
      .finite ((digits : Rat) / 0.256) := by
    rw [Binary64.scaleBy_natCast (by omega),
      Binary64.divideBy_of_dvd 39 (by omega) (by decide) (by decide)]
    congr 1
    push_cast
    norm_num
    ring
  have hunits : round? (.finite ((digits : Rat) / 0.256)) =
      some (((2 * (digits * 125) + 32) / 64 : Nat) : Int) := congrArg some (round_div digits)
  have hcast (units : Nat) : (((units : Nat) : Int) : Binary64) = (units : Binary64) :=
    congrArg Binary64.finite (Int.cast_natCast units)
  have hsize : floor? (divideBy 1000 (scaleBy 1024
      (((2 * (digits * 125) + 32) / 64 : Nat) : Binary64))) = some (sizeOfDigits digits : Int) := by
    rw [Binary64.scaleBy_natCast (by omega),
      Binary64.floor?_divideBy 44 (by omega) (by decide) (by decide) (by decide)]
    rfl
  unfold sizeInBinary64?
  rw [hquotient, hunits]
  show floor? (divideBy 1000 (scaleBy 1024
    ((((2 * (digits * 125) + 32) / 64 : Nat) : Int) : Binary64))) = _
  rw [hcast, hsize]

/-- The size of a number of digits is four bits for each, or one bit less. -/
theorem sizeOfDigits_bounds {digits : Nat} (h : 1 ≤ digits) :
    sizeOfDigits digits = 4 * digits - 1 ∨ sizeOfDigits digits = 4 * digits := by
  unfold sizeOfDigits
  omega

/-- Of a multiple of 32 digits the size is four bits for each. -/
theorem sizeOfDigits_of_dvd {digits : Nat} (h : 32 ∣ digits) :
    sizeOfDigits digits = 4 * digits := by
  unfold sizeOfDigits
  omega

/-- More digits do not indicate a smaller size. -/
theorem sizeOfDigits_mono {digits digits' : Nat} (h : digits ≤ digits') :
    sizeOfDigits digits ≤ sizeOfDigits digits' := by
  unfold sizeOfDigits
  omega

/-- A size estimates the bits of a modulus. -/
structure EstimatesSize (modulus : Octets) (size : Nat) : Prop where
  /-- It is `1.024` times the quotient of the number of digits and `0.256`, which is rounded to the
  nearest integer, halves up, and it is rounded down. -/
  eq_floor : (size : Int) =
    ⌊(1.024 : Rat) * round ((hexDigitCount modulus.toNat : Rat) / 0.256)⌋
  /-- Binary64 numbers give the same size, unless the digits are more than there are in memory. -/
  binary64 : hexDigitCount modulus.toNat < 2 ^ 32 →
    sizeInBinary64? (hexDigitCount modulus.toNat) = some (size : Int)
  /-- It is off by one bit at most. -/
  near : size = 4 * hexDigitCount modulus.toNat - 1 ∨ size = 4 * hexDigitCount modulus.toNat
  /-- It is right for a multiple of 32 digits. -/
  exact_of_dvd : 32 ∣ hexDigitCount modulus.toNat → size = 4 * hexDigitCount modulus.toNat
  /-- Zeros in front do not change it. -/
  zeros : ∀ count, sizeOfModulus (List.replicate count 0 ++ modulus) = size
  /-- A modulus of no smaller value does not have a smaller one. -/
  mono : ∀ greater : Octets, modulus.toNat ≤ greater.toNat → size ≤ sizeOfModulus greater

/-- The size that a modulus indicates estimates its bits. -/
theorem estimatesSize_sizeOfModulus (modulus : Octets) :
    EstimatesSize modulus (sizeOfModulus modulus) where
  eq_floor := by
    rw [sizeOfModulus_eq, sizeOfDigits_eq_floor]
  binary64 h := by
    rw [sizeOfModulus_eq, sizeInBinary64?_eq h]
  near := by
    rw [sizeOfModulus_eq]
    exact sizeOfDigits_bounds (le_max_left _ _)
  exact_of_dvd h := by
    rw [sizeOfModulus_eq]
    exact sizeOfDigits_of_dvd h
  zeros count := by
    rw [sizeOfModulus_eq, sizeOfModulus_eq, Octets.toNat_replicate_append]
  mono greater h := by
    rw [sizeOfModulus_eq, sizeOfModulus_eq]
    exact sizeOfDigits_mono (hexDigitCount_mono h)

end PgpInspect
