import PgpInspect.Armor.Payload
import PgpInspect.Packet.Record
import PgpInspect.Text.Units
import PgpInspect.Text.Windows1252

/-!
# Key data

Key data comes as text or as octets, armored or not. Armored data is decoded into the octets of a
packet stream; a text that is not armored stands for one octet per character. Octets count as
armored if the armor marker occurs in the first 4096 of them.
-/

namespace PgpInspect

/-- Key data as handed over. -/
inductive KeyData where
  /-- A text. -/
  | text (text : List Char)
  /-- Octets. -/
  | octets (octets : Octets)

namespace KeyData

/-- The octet that a character of a text without armor stands for: the low eight bits of its first
16-bit unit. -/
def octetOfChar (c : Char) : UInt8 := UInt8.ofNat (Text.firstUnit c)

/-- The number of octets that decide whether octets are armored. -/
def headLength : Nat := 4096

/-- The octets of a packet stream that key data holds. -/
def toOctets : KeyData → Except DecodeFault Octets
  | .text written =>
    if Armor.isArmored written then Armor.dearmor written else .ok (written.map octetOfChar)
  | .octets stream =>
    if Armor.isArmored (Text.Windows1252.decode (stream.take headLength)) then
      Armor.dearmor (Text.Windows1252.decode stream)
    else .ok stream

/-- The packet records that key data holds. -/
def toRecords (data : KeyData) : Except DecodeFault (List PacketRecord) := do
  readRecords (← data.toOctets)

end KeyData

end PgpInspect
