import Mathlib.Algebra.Group.Nat.Defs
import PgpInspect.Packet.Framing

/-!
# The grammar of packet streams

What a stream of packets is, said without reading one. `WrittenLength`, `NewBody`, `Framed` and
`Stream` are the octets of a chunk length, of a new-format body, of one packet and of a whole
stream. Each is a relation between octets and what they stand for, since most values can be written
in more than one way: a body may be cut into chunks anywhere, and a small length has a long form
too.
-/

namespace PgpInspect.Framing

/-- The octets that write the length of a chunk of a new-format body, with whether another chunk
follows. -/
inductive WrittenLength : (written : Octets) → (length : Nat) → (continues : Bool) → Prop where
  /-- One octet, below 192. -/
  | oneOctet {n : Nat} : n < 192 → WrittenLength [UInt8.ofNat n] n false
  /-- Two octets, of which the first is from 192 to 223. -/
  | twoOctets {n : Nat} : 192 ≤ n → n ≤ 8383 →
    WrittenLength [UInt8.ofNat (192 + (n - 192) / 256), UInt8.ofNat ((n - 192) % 256)] n false
  /-- The octet 255 and four more with the length in base 256. -/
  | fourOctets {n : Nat} : n < 2 ^ 32 → WrittenLength (0xFF :: Octets.ofNat 4 n) n false
  /-- One octet from 224 to 254, for a power of two and a chunk that is not the last. -/
  | power {k : Nat} : k ≤ 30 → WrittenLength [UInt8.ofNat (224 + k)] (2 ^ k) true

/-- The octets that write a new-format body: chunks that are not the last, and the last. -/
inductive NewBody : (written body : Octets) → Prop where
  /-- The last chunk. -/
  | last {lengthOctets chunk : Octets} : WrittenLength lengthOctets chunk.length false →
    NewBody (lengthOctets ++ chunk) chunk
  /-- A chunk that is not the last, and what follows it. -/
  | chunk {lengthOctets chunk written body : Octets} :
    WrittenLength lengthOctets chunk.length true → NewBody written body →
    NewBody (lengthOctets ++ chunk ++ written) (chunk ++ body)

/-- The header octet of a new-format packet. -/
def newHeader (tag : Nat) : UInt8 := (0xC0 : UInt8) ||| UInt8.ofNat tag

/-- The header octet of an old-format packet. -/
def oldHeader (tag lengthType : Nat) : UInt8 :=
  (0x80 : UInt8) ||| (UInt8.ofNat tag <<< 2) ||| UInt8.ofNat lengthType

/-- The octets that write a packet with its length. -/
inductive Framed : (written : Octets) → RawPacket → Prop where
  /-- The new format. -/
  | new {tag : Nat} {written body : Octets} : tag < 64 → NewBody written body →
    Framed (newHeader tag :: written) ⟨(tag : Binary64), body⟩
  /-- The old format, with a length of one, two or four octets. -/
  | old {tag lengthType : Nat} {body : Octets} : tag < 16 → lengthType ≤ 2 →
    body.length < 256 ^ 2 ^ lengthType →
    Framed (oldHeader tag lengthType :: (Octets.ofNat (2 ^ lengthType) body.length ++ body))
      ⟨(tag : Binary64), body⟩

/-- The octets that write a stream of packets, one after the other. The last of them may be in the
old format without a length: its body then reaches to the end. -/
inductive Stream : (data : Octets) → (packets : List RawPacket) → Prop where
  /-- No packet. -/
  | nil : Stream [] []
  /-- A packet, and what follows it. -/
  | cons {written data : Octets} {packet : RawPacket} {packets : List RawPacket} :
    Framed written packet → Stream data packets → Stream (written ++ data) (packet :: packets)
  /-- A last packet without a length. -/
  | toEnd {tag : Nat} {body : Octets} : tag < 16 →
    Stream (oldHeader tag 3 :: body) [⟨(tag : Binary64), body⟩]

/-- A new-format header octet is its tag above 192. -/
theorem toNat_newHeader {tag : Nat} (h : tag < 64) : (newHeader tag).toNat = 192 + tag := by
  have hall : ∀ t < 64, (newHeader t).toNat = 192 + t := by decide
  exact hall tag h

/-- An old-format header octet has its tag in bits 2 to 5 and its length type in bits 0 and 1. -/
theorem toNat_oldHeader {tag lengthType : Nat} (h : tag < 16) (hl : lengthType < 4) :
    (oldHeader tag lengthType).toNat = 128 + 4 * tag + lengthType := by
  have hall : ∀ t < 16, ∀ l < 4, (oldHeader t l).toNat = 128 + 4 * t + l := by decide
  exact hall tag h lengthType hl

/-- A new-format header has one tag. -/
theorem newHeader_inj {tag tag' : Nat} (h : tag < 64) (h' : tag' < 64)
    (heq : newHeader tag = newHeader tag') : tag = tag' := by
  have hnat := congrArg UInt8.toNat heq
  rw [toNat_newHeader h, toNat_newHeader h'] at hnat
  omega

/-- An old-format header has one tag and one length type. -/
theorem oldHeader_inj {tag tag' lengthType lengthType' : Nat} (h : tag < 16) (h' : tag' < 16)
    (hl : lengthType < 4) (hl' : lengthType' < 4)
    (heq : oldHeader tag lengthType = oldHeader tag' lengthType') :
    tag = tag' ∧ lengthType = lengthType' := by
  have hnat := congrArg UInt8.toNat heq
  rw [toNat_oldHeader h hl, toNat_oldHeader h' hl'] at hnat
  omega

/-- A header has one format. -/
theorem newHeader_ne_oldHeader {tag tag' lengthType : Nat} (h : tag < 64) (h' : tag' < 16)
    (hl : lengthType < 4) : newHeader tag ≠ oldHeader tag' lengthType := by
  intro heq
  have hnat := congrArg UInt8.toNat heq
  rw [toNat_newHeader h, toNat_oldHeader h' hl] at hnat
  omega

/-- An octet from 192 on is the new-format header of its low six bits. -/
theorem eq_newHeader {header : UInt8} (h : 192 ≤ header.toNat) :
    header = newHeader (header.toNat % 64) := by
  have hlt := header.toNat_lt
  apply UInt8.toNat_inj.mp
  rw [toNat_newHeader (Nat.mod_lt _ (by decide))]
  omega

/-- An octet from 128 to 191 is the old-format header of its bits 2 to 5 and its low two bits. -/
theorem eq_oldHeader {header : UInt8} (h : 128 ≤ header.toNat) (h' : header.toNat < 192) :
    header = oldHeader (header.toNat / 4 % 16) (header.toNat % 4) := by
  apply UInt8.toNat_inj.mp
  rw [toNat_oldHeader (Nat.mod_lt _ (by decide)) (Nat.mod_lt _ (by decide))]
  omega

end PgpInspect.Framing
