import PgpInspect.Packet.PublicKey

/-!
# Key sizes

The size of a key with a modulus is estimated from the number of hexadecimal digits of the modulus:
`1.024` times the rounded quotient of that number and `0.256`, rounded down. It is exact for
multiples of 32 digits. Other keys have the size of their curve or of their algorithm.
-/

namespace PgpInspect

/-- The number of hexadecimal digits of a number, without leading zeros; at least one. -/
def hexLength (octets : Octets) : Nat :=
  max 1 (octets.hexDigits.dropWhile (· == '0')).length

/-- The key size that a modulus indicates. -/
def sizeOfModulus (modulus : Octets) : Nat :=
  -- The quotient by `0.256` is `125 / 32` of the digits, with halves rounded up.
  let units := (2 * (hexLength modulus * 125) + 32) / 64
  units * 1024 / 1000

/-- The size of a key: by its modulus, else by its curve, else by its algorithm. An empty curve
identifier counts as none. -/
def PublicKey.size (key : PublicKey) : Nat :=
  match key.modulus with
  | some modulus => sizeOfModulus modulus
  | none =>
    match key.curve with
    | some identifier =>
      if identifier.isEmpty then Algorithm.fixedBits key.algorithm else Curve.bits identifier
    | none => Algorithm.fixedBits key.algorithm

end PgpInspect
