import PgpInspect.Fault

/-!
# Faults of packet fields

Why a field of a packet cannot be read or a packet cannot be interpreted. Such a fault concerns one
packet only.
-/

namespace PgpInspect

/-- The causes of a field fault. -/
inductive FieldCause where
  /-- The body ends before the field does, or a negative length was asked for. -/
  | truncated (field : String) (offset : Rat) (wanted : Binary64) (available : Rat)
  /-- The length octet of a curve identifier is 0 or 255. -/
  | reservedCurveLength
  /-- The public-key algorithm has no known fields. -/
  | unknownAlgorithm (algorithm : Nat)
  /-- A version 2 or 3 fingerprint was asked for without an RSA modulus and exponent. -/
  | materialMissing
  /-- The key version is not one from 2 to 6. -/
  | unsupportedKeyVersion (version : Binary64)
  /-- A subpacket has no type octet. -/
  | emptySubpacket
  /-- The signature version is not one from 2 to 6. -/
  | unsupportedSignatureVersion (version : Nat)
  /-- A key expiration subpacket has fewer than four octets. -/
  | shortExpiration
  /-- A key flags subpacket has no octets. -/
  | emptyFlags
  deriving DecidableEq

namespace FieldCause

/-- The wording of a cause. -/
def message : FieldCause → String
  | .truncated field .. => "Truncated field: " ++ field
  | .reservedCurveLength => "Reserved curve OID length"
  | .unknownAlgorithm _ => "Unknown public-key algorithm"
  | .materialMissing => "v3 fingerprint requires RSA material"
  | .unsupportedKeyVersion _ => "Unsupported key version"
  | .emptySubpacket => "Empty subpacket"
  | .unsupportedSignatureVersion _ => "Unsupported signature version"
  | .shortExpiration => "Short key expiration subpacket"
  | .emptyFlags => "Empty key flags subpacket"

/-- The details of a cause. -/
def context : FieldCause → Members
  | .truncated _ offset wanted available =>
    [ ("offset", .number (.finite offset)), ("wanted", .number wanted),
      ("available", .number (.finite available)) ]
  | .unknownAlgorithm algorithm => [("algorithm", .nat algorithm)]
  | .unsupportedKeyVersion version => [("version", .number version)]
  | .unsupportedSignatureVersion version => [("version", .nat version)]
  | _ => []

end FieldCause

/-- A cause with the tag of the packet it concerns. -/
structure FieldFault where
  /-- The tag of the packet. -/
  tag : Binary64
  /-- What is wrong with it. -/
  cause : FieldCause
  deriving DecidableEq

namespace FieldFault

/-- The wording of a field fault. -/
def message (fault : FieldFault) : String := fault.cause.message

/-- The report of a field fault. -/
def toFault (fault : FieldFault) : Fault :=
  Fault.field fault.tag fault.message fault.cause.context

end FieldFault

end PgpInspect
