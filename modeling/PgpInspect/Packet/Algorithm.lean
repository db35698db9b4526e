import PgpInspect.Binary64

/-!
# Public-key algorithms

What the library knows of a public-key algorithm by its number: its label, how the public fields of
its keys are laid out, and the key size where every key of the algorithm has the same.
-/

namespace PgpInspect.Algorithm

/-- How the public fields of a key are laid out. -/
inductive Layout where
  /-- Modulus and exponent. -/
  | rsa
  /-- Prime, group order, generator and public value. -/
  | dsa
  /-- Prime, generator and public value. -/
  | elgamal
  /-- Curve identifier and point. -/
  | curvePoint
  /-- Curve identifier, point and key derivation parameters. -/
  | curvePointDerivation
  /-- A fixed number of octets. -/
  | native (length : Nat)
  /-- Not known. -/
  | unknown
  deriving DecidableEq

/-- The layout of the public fields. A native Ed448 key has one octet in front. -/
def layout : (algorithm : Nat) → Layout
  | 1 | 2 | 3 => .rsa
  | 16 | 20 => .elgamal
  | 17 => .dsa
  | 18 => .curvePointDerivation
  | 19 | 22 => .curvePoint
  | 25 | 27 => .native 32
  | 26 => .native 56
  | 28 => .native 57
  | _ => .unknown

/-- The label of an algorithm. -/
def label (algorithm : Binary64) : String :=
  match algorithm.toInt? with
  | some 1 => "RSA Encrypt or Sign"
  | some 2 => "RSA Encrypt-Only"
  | some 3 => "RSA Sign-Only"
  | some 16 => "ElGamal Encrypt-Only"
  | some 17 => "DSA Digital Signature Algorithm"
  | some 18 => "ECDH public key algorithm"
  | some 19 => "ECDSA public key algorithm"
  | some 20 => "Formerly ElGamal Encrypt or Sign"
  | some 22 => "EdDSA"
  | some 25 => "X25519"
  | some 26 => "X448"
  | some 27 => "Ed25519"
  | some 28 => "Ed448"
  | _ => "unknown"

/-- The size in bits of every key of the algorithm, 0 if it has no fixed size. -/
def fixedBits (algorithm : Binary64) : Nat :=
  match algorithm.toInt? with
  | some 25 | some 27 => 256
  | some 26 | some 28 => 448
  | _ => 0

end PgpInspect.Algorithm
