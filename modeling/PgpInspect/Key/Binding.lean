import PgpInspect.Key
import PgpInspect.Key.Capability
import PgpInspect.Packet.Signature

/-!
# What a signature says about a key

A signature that binds to a key contributes its key expiration and key flags subpackets, in order.
The expiry of a key only ever moves earlier and its letters only ever grow. A subpacket that is too
short stops the signature there; what came before it stays.
-/

namespace PgpInspect.Key

/-- Takes an expiry `seconds` after the creation of the key, if that is after its creation, after
the epoch, and before the expiry so far. -/
def applyExpiration (key : Key) (seconds : Binary64) : Key :=
  if seconds ≤ 0 then key
  else
    let candidate := key.created + seconds
    if 0 < candidate ∧ (key.expires = 0 ∨ candidate < key.expires) then
      { key with expires := candidate }
    else key

/-- Takes the letters that key flags grant. -/
def applyFlags (key : Key) (flags : Nat) : Key :=
  { key with
    capabilities :=
      Capability.merge key.capabilities ((Capability.granted flags).map String.singleton) }

/-- Takes one subpacket. -/
def applySubpacket (key : Key) (subpacket : Subpacket) : Except FieldCause Key :=
  if subpacket.type = Subpacket.keyExpiration then
    if subpacket.data.length < 4 then .error .shortExpiration
    else .ok (key.applyExpiration (leadingWord subpacket.data : Binary64))
  else if subpacket.type = Subpacket.keyFlags then
    match subpacket.data with
    | [] => .error .emptyFlags
    | flags :: _ => .ok (key.applyFlags flags.toNat)
  else .ok key

/-- Takes subpackets up to the first that is too short: the key after that and the cause of the
stop. -/
def applySubpackets (key : Key) : List Subpacket → Key × Option FieldCause
  | [] => (key, none)
  | subpacket :: rest =>
    match key.applySubpacket subpacket with
    | .ok key => key.applySubpackets rest
    | .error cause => (key, some cause)

/-- Takes a signature. -/
def applySignature (key : Key) (signature : Signature) : Key × Option FieldFault :=
  let (key, cause) := key.applySubpackets signature.subpackets
  (key, cause.map (⟨signature.tag, ·⟩))

end PgpInspect.Key
