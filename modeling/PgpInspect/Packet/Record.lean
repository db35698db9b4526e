import PgpInspect.Packet.PublicKey
import PgpInspect.Packet.Signature
import PgpInspect.Packet.UserId

/-!
# Packet records

The typed view of a framed packet. A body that cannot be viewed becomes a malformed record, so that
one bad packet never hides the rest of a stream.
-/

namespace PgpInspect

/-- The typed view of a packet. -/
inductive PacketRecord where
  /-- A public or secret key or subkey. -/
  | publicKey (key : PublicKey)
  /-- A user ID. -/
  | userId (userId : UserId)
  /-- A signature. -/
  | signature (signature : Signature)
  /-- A packet that is not looked into. -/
  | other (tag : Binary64)
  /-- A packet whose body cannot be viewed, and why. -/
  | malformed (tag : Binary64) (reason : String)

namespace PacketRecord

/-- The tag of the packet. -/
def tag : PacketRecord → Binary64
  | .publicKey key => key.tag
  | .userId view => view.tag
  | .signature view => view.tag
  | .other tag => tag
  | .malformed tag _ => tag

/-- The record of a view that may have failed. -/
def ofView {α : Type} (tag : Binary64) (record : α → PacketRecord) :
    Except FieldFault α → PacketRecord
  | .ok view => record view
  | .error fault => .malformed tag fault.message

/-- Views a packet by its tag. -/
def ofPacket (packet : RawPacket) : PacketRecord :=
  match packet.tag.toInt? with
  | some 6 | some 14 | some 5 | some 7 => ofView packet.tag .publicKey (PublicKey.ofPacket packet)
  | some 13 => .userId (UserId.ofPacket packet)
  | some 2 => ofView packet.tag .signature (Signature.ofPacket packet)
  | _ => .other packet.tag

end PacketRecord

/-- The records of a stream of packets. -/
def readRecords (data : Octets) : Except DecodeFault (List PacketRecord) := do
  return (← readPackets data).map PacketRecord.ofPacket

end PgpInspect
