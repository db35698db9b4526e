/-!
# Octet sequences

Key material is a list of octets. This module gives the two readings of such a list that the rest
of the library needs: the natural number it writes in base 256, most significant octet first, and
its hexadecimal text.
-/

namespace PgpInspect

/-- A sequence of octets. -/
abbrev Octets := List UInt8

namespace Octets

/-- The natural number that `octets` writes in base 256, most significant octet first. -/
def toNat (octets : Octets) : Nat :=
  octets.foldl (fun value octet => 256 * value + octet.toNat) 0

/-- The last `width` base-256 digits of `value`, most significant first. -/
def ofNat : (width value : Nat) → Octets
  | 0, _ => []
  | width + 1, value => UInt8.ofNat (value / Nat.pow 256 width) :: ofNat width value

/-- Two lower-case hexadecimal digits for each octet. -/
def hexDigits (octets : Octets) : List Char :=
  octets.flatMap fun octet => [Nat.digitChar (octet.toNat / 16), Nat.digitChar (octet.toNat % 16)]

/-- The lower-case hexadecimal text of `octets`. -/
def hex (octets : Octets) : String :=
  String.ofList octets.hexDigits

/-- As many digits are written as are asked for. -/
@[simp] theorem length_ofNat (width value : Nat) : (ofNat width value).length = width := by
  induction width with
  | zero => rfl
  | succ width ih => simp [ofNat, ih]

/-- There are two hexadecimal digits for each octet. -/
@[simp] theorem length_hexDigits (octets : Octets) :
    octets.hexDigits.length = 2 * octets.length := by
  induction octets with
  | nil => rfl
  | cons octet rest ih => simp [hexDigits] at ih ⊢; omega

end Octets

end PgpInspect
