import Mathlib.Tactic.Positivity
import Mathlib.Tactic.Ring
import PgpInspect.Octets

/-!
# Reading and writing numbers in base 256

`Octets.toNat` and `Octets.ofNat` undo each other: every sequence of octets is the only one of its
length that writes its number, and every number below `256 ^ width` is written in `width` octets.
-/

namespace PgpInspect.Octets

/-- Reading on from a number shifts it by the octets that follow. -/
theorem foldl_eq_toNat (octets : Octets) (value : Nat) :
    octets.foldl (fun value octet => 256 * value + octet.toNat) value =
      value * 256 ^ octets.length + octets.toNat := by
  unfold toNat
  induction octets generalizing value with
  | nil => simp
  | cons octet rest ih =>
    rw [List.foldl_cons, List.foldl_cons, ih, ih (256 * 0 + octet.toNat), List.length_cons]
    ring

/-- The first octet counts for as many powers of 256 as octets follow. -/
theorem toNat_cons (octet : UInt8) (rest : Octets) :
    toNat (octet :: rest) = octet.toNat * 256 ^ rest.length + toNat rest := by
  have h := foldl_eq_toNat rest (256 * 0 + octet.toNat)
  rw [Nat.mul_zero, Nat.zero_add] at h
  rw [← h]
  simp [toNat]

/-- A number is below the power of 256 that its octets have room for. -/
theorem toNat_lt (octets : Octets) : octets.toNat < 256 ^ octets.length := by
  induction octets with
  | nil => simp [toNat]
  | cons octet rest ih =>
    have hoctet : octet.toNat ≤ 255 := by
      have := octet.toNat_lt
      omega
    have hmul : octet.toNat * 256 ^ rest.length ≤ 255 * 256 ^ rest.length :=
      Nat.mul_le_mul_right _ hoctet
    rw [toNat_cons, List.length_cons, Nat.pow_succ]
    omega

/-- Only the last `width` digits of a number are written. -/
theorem toNat_ofNat (width value : Nat) : (ofNat width value).toNat = value % 256 ^ width := by
  induction width with
  | zero => simp [ofNat, toNat, Nat.mod_one]
  | succ width ih =>
    have hmod : value % (256 ^ width * 256) =
        value % 256 ^ width + 256 ^ width * (value / 256 ^ width % 256) := Nat.mod_mul
    rw [ofNat, toNat_cons, length_ofNat, ih, UInt8.toNat_ofNat', Nat.pow_succ 256 width, hmod,
      Nat.pow_eq]
    ring

/-- A number below `256 ^ width` is read back from its `width` octets. -/
theorem toNat_ofNat_of_lt {width value : Nat} (h : value < 256 ^ width) :
    (ofNat width value).toNat = value := by
  rw [toNat_ofNat, Nat.mod_eq_of_lt h]

/-- The last digits of a number do not depend on the digits in front of them. -/
theorem ofNat_add_mul_pow (width high low : Nat) :
    ofNat width (high * 256 ^ width + low) = ofNat width low := by
  induction width generalizing high with
  | zero => rfl
  | succ width ih =>
    have hpow : high * 256 ^ (width + 1) = high * 256 * 256 ^ width := by ring
    have hdiv : (high * 256 * 256 ^ width + low) / 256 ^ width =
        high * 256 + low / 256 ^ width := by
      rw [Nat.add_comm, Nat.add_mul_div_right _ _ (by positivity), Nat.add_comm]
    rw [ofNat, ofNat, hpow, ih, Nat.pow_eq, hdiv]
    congr 1
    apply UInt8.toNat_inj.mp
    rw [UInt8.toNat_ofNat', UInt8.toNat_ofNat']
    omega

/-- Octets are written back from the number that they write. -/
theorem ofNat_toNat (octets : Octets) : ofNat octets.length octets.toNat = octets := by
  induction octets with
  | nil => rfl
  | cons octet rest ih =>
    have hdiv : (octet.toNat * 256 ^ rest.length + toNat rest) / 256 ^ rest.length =
        octet.toNat := by
      rw [Nat.add_comm, Nat.add_mul_div_right _ _ (by positivity),
        Nat.div_eq_of_lt (toNat_lt rest), Nat.zero_add]
    rw [List.length_cons, ofNat, toNat_cons, ofNat_add_mul_pow, ih, Nat.pow_eq, hdiv]
    simp

end PgpInspect.Octets
