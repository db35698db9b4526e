import PgpInspect.Digest.Md5
import PgpInspect.Digest.Sha1
import PgpInspect.Digest.Sha256
import PgpInspect.Fingerprint
import PgpInspect.Packet.Algorithm
import PgpInspect.Packet.Cursor
import PgpInspect.Packet.Curve
import PgpInspect.Packet.Framing

/-!
# Public-key packets

The view of a public or secret key packet. Only its public part is read: a header with version,
creation time and algorithm, and the public fields of the algorithm. Fields that cannot be read
leave modulus and curve unset but do not fail the packet; the fingerprint then covers the whole
body, or as much as the header states. The parts are read once (`PublicKey.readParts`), and the view
is made of them, with or without a check of the form of the fingerprint.
-/

namespace PgpInspect

/-- The view of a public or secret key packet. -/
structure PublicKey where
  /-- The packet tag. -/
  tag : Binary64
  /-- Whether it is a subkey. -/
  subkey : Bool
  /-- Whether it carries secret material. -/
  secret : Bool
  /-- The key version. -/
  version : Nat
  /-- The fingerprint. -/
  fingerprint : String
  /-- The number of the public-key algorithm. -/
  algorithm : Binary64
  /-- The creation time in seconds since the epoch. -/
  created : Binary64
  /-- The days of validity that versions 2 and 3 state, 0 for none. -/
  daysValid : Binary64
  /-- The number that determines the key size. -/
  modulus : Option Octets
  /-- The object identifier of the curve. -/
  curve : Option String

namespace PublicKey

/-- The public fields that matter beyond their extent. -/
structure Material where
  /-- The RSA modulus, or the prime of DSA and Elgamal. -/
  modulus : Option Octets := none
  /-- The RSA exponent. -/
  exponent : Option Octets := none
  /-- The object identifier of the curve. -/
  curve : Option String := none

/-- A curve identifier after its length, which may not be 0 or 255. -/
def readCurve : Reading String := do
  let length ← Reading.u8 "curve OID length"
  if length = 0 ∨ length = 255 then Reading.fail .reservedCurveLength
  else return Curve.dotted (← Reading.bytes length "curve OID")

/-- The public fields of a key of the given algorithm. -/
def readMaterial (algorithm : Nat) : Reading Material :=
  match Algorithm.layout algorithm with
  | .rsa => do
    let modulus ← Reading.mpi "RSA n"
    let exponent ← Reading.mpi "RSA e"
    return { modulus := some modulus, exponent := some exponent }
  | .dsa => do
    let modulus ← Reading.mpi "DSA p"
    let _ ← Reading.mpi "DSA q"
    let _ ← Reading.mpi "DSA g"
    let _ ← Reading.mpi "DSA y"
    return { modulus := some modulus }
  | .elgamal => do
    let modulus ← Reading.mpi "Elgamal p"
    let _ ← Reading.mpi "Elgamal g"
    let _ ← Reading.mpi "Elgamal y"
    return { modulus := some modulus }
  | .curvePoint => do
    let curve ← readCurve
    let _ ← Reading.mpi "EC point"
    return { curve := some curve }
  | .curvePointDerivation => do
    let curve ← readCurve
    let _ ← Reading.mpi "EC point"
    let length ← Reading.u8 "KDF length"
    let _ ← Reading.bytes length "KDF parameters"
    return { curve := some curve }
  | .native length => do
    let _ ← Reading.bytes length "native public key"
    return {}
  | .unknown => Reading.fail (.unknownAlgorithm algorithm)

/-- The digest that makes the fingerprint of a key with the given public part: of modulus and
exponent for versions 2 and 3, else of the public part after a version octet and its length. -/
def digest (tag version : Binary64) (publicPart : Octets) (material : Material) :
    Except FieldFault Octets :=
  match version.toInt? with
  | some 2 | some 3 =>
    match material.modulus, material.exponent with
    | some modulus, some exponent => .ok (Digest.Md5.digest (modulus ++ exponent))
    | _, _ => .error ⟨tag, .materialMissing⟩
  | some 4 => .ok (Digest.Sha1.digest (0x99 :: Octets.ofNat 2 publicPart.length ++ publicPart))
  | some 5 => .ok (Digest.Sha256.digest (0x9A :: Octets.ofNat 4 publicPart.length ++ publicPart))
  | some 6 => .ok (Digest.Sha256.digest (0x9B :: Octets.ofNat 4 publicPart.length ++ publicPart))
  | _ => .error ⟨tag, .unsupportedKeyVersion version⟩

/-- What stands in front of the public fields. -/
structure Header where
  /-- The key version. -/
  version : Nat
  /-- The creation time. -/
  created : Nat
  /-- The days of validity, 0 for versions after 3. -/
  daysValid : Nat
  /-- The number of the algorithm. -/
  algorithm : Nat
  /-- The number of octets of the public fields, which versions 5 and 6 state. -/
  materialLength : Option Nat

/-- What stands behind the days of validity in a header. -/
def readHeaderEnd (version created daysValid : Nat) : Reading Header := do
  let algorithm ← Reading.u8 "algorithm"
  if version = 5 ∨ version = 6 then
    let length ← Reading.u32 "key material length"
    return ⟨version, created, daysValid, algorithm, some length⟩
  else if version = 2 ∨ version = 3 ∨ version = 4 then
    return ⟨version, created, daysValid, algorithm, none⟩
  else Reading.fail (.unsupportedKeyVersion (version : Binary64))

/-- The header of a key packet. -/
def readHeader : Reading Header := do
  let version ← Reading.u8 "version"
  let created ← Reading.u32 "creation time"
  let daysValid ←
    if version = 2 ∨ version = 3 then Reading.u16 "validity days" else pure 0
  readHeaderEnd version created daysValid

/-- The public fields of a body after its header and the number of octets of the public part. A
stated length decides, as far as the body reaches; else the fields that were read do; else all of
the body is public. -/
def publicPart (header : Header) (afterHeader : Cursor) (body : Octets) : Material × Nat :=
  let (outcome, afterFields) := (readMaterial header.algorithm).runAt afterHeader
  let (material, readEnd) : Material × Nat :=
    match outcome with
    | .ok material => (material, afterFields.position)
    | .error _ => ({}, body.length)
  match header.materialLength with
  -- A stated length decides about the extent alone: the fields may have reached beyond it.
  | some length => (material, min body.length (afterHeader.position + length))
  | none => (material, readEnd)

/-- What is read of a key packet. -/
structure Parts where
  /-- What stands in front of the public fields. -/
  header : Header
  /-- The public fields. -/
  material : Material
  /-- The digest that makes the fingerprint. -/
  digest : Octets

/-- Reads the parts of a key packet. It fails for an unsupported version, a header that is cut
short, and a key of version 2 or 3 without readable RSA fields. -/
def readParts (packet : RawPacket) : Except FieldFault Parts :=
  match readHeader.runAt (.start packet.tag packet.body) with
  | (.error fault, _) => .error fault
  | (.ok header, cursor) =>
    let (material, publicEnd) := publicPart header cursor packet.body
    match digest packet.tag (header.version : Binary64) (packet.body.take publicEnd) material with
    | .error fault => .error fault
    | .ok digest => .ok { header, material, digest }

/-- The view of a packet from its parts. -/
def ofParts (tag : Binary64) (parts : Parts) : PublicKey where
  tag
  subkey := tag = 14 ∨ tag = 7
  secret := tag = 5 ∨ tag = 7
  version := parts.header.version
  fingerprint := Fingerprint.ofDigest parts.digest
  algorithm := (parts.header.algorithm : Binary64)
  created := (parts.header.created : Binary64)
  daysValid := (parts.header.daysValid : Binary64)
  modulus := parts.material.modulus
  curve := parts.material.curve

/-- Views a key packet whose parts can be read. -/
def ofPacket (packet : RawPacket) : Except FieldFault PublicKey :=
  (readParts packet).map (ofParts packet.tag)

/-- A packet that is viewed as a key has parts that can be read, and the key is made of them. -/
theorem exists_parts_of_ofPacket {packet : RawPacket} {key : PublicKey}
    (h : ofPacket packet = .ok key) :
    ∃ parts, readParts packet = .ok parts ∧ key = ofParts packet.tag parts := by
  unfold ofPacket at h
  cases hparts : readParts packet with
  | error fault =>
    rw [hparts] at h
    cases h
  | ok parts =>
    rw [hparts] at h
    cases h
    exact ⟨parts, rfl, rfl⟩

/-- Why a key cannot be viewed if the form of its fingerprint is checked. -/
inductive CheckedFault where
  /-- A field of the packet is at fault. -/
  | field (fault : FieldFault)
  /-- The text of the digest is no fingerprint. -/
  | fingerprint (text : String)

/-- Views a key packet whose parts can be read, and checks the form of the fingerprint. -/
def ofPacketChecked (packet : RawPacket) : Except CheckedFault PublicKey := do
  let parts ← (readParts packet).mapError .field
  -- No digest is refused here (`ofPacketChecked_eq`), so that `ofPacket` leaves the check out.
  match Fingerprint.ofText? parts.digest.hex with
  | none => .error (.fingerprint parts.digest.hex)
  | some fingerprint => return { ofParts packet.tag parts with fingerprint }

end PublicKey

end PgpInspect
