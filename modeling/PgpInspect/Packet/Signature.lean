import PgpInspect.Packet.Cursor
import PgpInspect.Packet.Framing

/-!
# Signature packets

The view of a signature packet: its header and its subpackets, the hashed ones before the others.
The signature value is never looked at, so nothing here verifies anything.
-/

namespace PgpInspect

/-- A signature subpacket. -/
structure Subpacket where
  /-- The subpacket type. -/
  type : Int
  /-- Whether the sender insists on its being understood. -/
  critical : Bool
  /-- The content. -/
  data : Octets
  deriving DecidableEq

/-- The view of a signature packet. -/
structure Signature where
  /-- The packet tag. -/
  tag : Binary64
  /-- The signature version. -/
  version : Nat
  /-- The signature type. -/
  signatureType : Nat
  /-- The creation time in seconds since the epoch, 0 if none is stated. -/
  created : Nat
  /-- The subpackets, hashed ones first. -/
  subpackets : List Subpacket
  deriving DecidableEq

namespace Subpacket

/-- The type of the subpacket that states when a signature was made. -/
def creationTime : Int := 2

/-- The type of the subpacket that states after how many seconds a key expires. -/
def keyExpiration : Int := 9

/-- The type of the subpacket that states what a key may be used for. -/
def keyFlags : Int := 27

/-- The length of a subpacket: one octet below 192, two octets, or four octets after 255. -/
def readLength : Reading Nat := do
  let first ← Reading.u8 "subpacket length"
  if first < 192 then return first
  else if first < 255 then
    return (first - 192) * 256 + (← Reading.u8 "subpacket length") + 192
  else Reading.u32 "subpacket length"

/-- A subpacket after its length, which counts the type octet. -/
def readOne : Reading Subpacket := do
  let length ← readLength
  if length = 0 then Reading.fail .emptySubpacket
  else
    let type ← Reading.u8 "subpacket type"
    let data ← Reading.bytes ((length - 1 : Nat) : Int) "subpacket data"
    return ⟨(type % 128 : Nat), 128 ≤ type, data⟩

/-- The subpackets up to the end of an area. Each takes at least two octets, so that the number of
octets of the area is enough `fuel`. -/
def readAll : (fuel : Nat) → Reading (List Subpacket)
  | 0 => return []
  | fuel + 1 => do
    if (← get).rest.isEmpty then return []
    else
      let subpacket ← readOne
      return subpacket :: (← readAll fuel)

/-- The subpackets of an area. -/
def ofArea (tag : Binary64) (area : Octets) : Except FieldFault (List Subpacket) :=
  (readAll area.length).onBody tag area

end Subpacket

/-- The number that the first four octets of `data` write; missing octets count as zero. -/
def leadingWord (data : Octets) : Nat :=
  Octets.toNat ((data ++ [0, 0, 0, 0]).take 4)

namespace Signature

/-- The creation time that subpackets state: the first that is long enough counts. -/
def statedCreation (subpackets : List Subpacket) : Nat :=
  match subpackets.find? fun s => s.type == Subpacket.creationTime && 4 ≤ s.data.length with
  | some subpacket => leadingWord subpacket.data
  | none => 0

/-- What a signature packet holds before its subpackets are taken apart. -/
inductive Header where
  /-- Versions 2 and 3 state type and time. -/
  | timed (version signatureType created : Nat)
  /-- Later versions have a hashed and an unhashed subpacket area. -/
  | withAreas (version signatureType : Nat) (hashed unhashed : Octets)

/-- An area after its length, which takes four octets in version 6 and two before. -/
def readArea (version : Nat) (lengthField areaField : String) : Reading Octets := do
  let length ← if version = 6 then Reading.u32 lengthField else Reading.u16 lengthField
  Reading.bytes length areaField

/-- The header of a signature packet with its areas. -/
def readHeader : Reading Header := do
  let version ← Reading.u8 "version"
  if version = 2 ∨ version = 3 then
    let _ ← Reading.u8 "hashed length"
    let signatureType ← Reading.u8 "signature type"
    let created ← Reading.u32 "creation time"
    return .timed version signatureType created
  else if version = 4 ∨ version = 5 ∨ version = 6 then
    let signatureType ← Reading.u8 "signature type"
    let _ ← Reading.u8 "public-key algorithm"
    let _ ← Reading.u8 "hash algorithm"
    let hashed ← readArea version "hashed length" "hashed area"
    let unhashed ← readArea version "unhashed length" "unhashed area"
    return .withAreas version signatureType hashed unhashed
  else Reading.fail (.unsupportedSignatureVersion version)

/-- Views a signature packet. It fails for an unsupported version, a header that is cut short, and
an area that is not a sequence of subpackets. -/
def ofPacket (packet : RawPacket) : Except FieldFault Signature := do
  match ← readHeader.onBody packet.tag packet.body with
  | .timed version signatureType created =>
    return ⟨packet.tag, version, signatureType, created, []⟩
  | .withAreas version signatureType hashed unhashed =>
    let hashedOnes ← Subpacket.ofArea packet.tag hashed
    let unhashedOnes ← Subpacket.ofArea packet.tag unhashed
    let subpackets := hashedOnes ++ unhashedOnes
    return ⟨packet.tag, version, signatureType, statedCreation subpackets, subpackets⟩

end Signature

end PgpInspect
