import PgpInspect.Octets

/-!
# Message padding

The digests of this library work on blocks of 64 octets. A message is closed by the octet 0x80,
filled with zeros, and ends with its length in bits, written in eight octets.
-/

namespace PgpInspect.Digest

/-- The octets of a 32-bit word, most significant first. -/
def bigEndian (word : UInt32) : Octets := Octets.ofNat 4 word.toNat

/-- The octets of a 32-bit word, least significant first. -/
def littleEndian (word : UInt32) : Octets := (bigEndian word).reverse

/-- What follows a message of `length` octets, before its length is written. -/
def filling (length : Nat) : Octets := 0x80 :: List.replicate ((119 - length % 64) % 64) 0

/-- The first `count` blocks of 64 octets. -/
def blocks : (count : Nat) → Octets → List Octets
  | 0, _ => []
  | count + 1, octets => octets.take 64 :: blocks count (octets.drop 64)

/-- The blocks of a padded message; `writeLength` writes its length in bits. -/
def paddedBlocks (writeLength : Nat → Octets) (message : Octets) : List Octets :=
  let padded := message ++ filling message.length ++ writeLength (8 * message.length)
  blocks (padded.length / 64) padded

/-- The 32-bit words that a block writes, each read by `read` from four octets. -/
def words (read : Octets → Nat) : Octets → List UInt32
  | a :: b :: c :: d :: rest => UInt32.ofNat (read [a, b, c, d]) :: words read rest
  | _ => []

/-- A word turned left by `places`, which is between 1 and 31. -/
def turnLeft (word : UInt32) (places : UInt32) : UInt32 :=
  (word <<< places) ||| (word >>> (32 - places))

/-- A word turned right by `places`, which is between 1 and 31. -/
def turnRight (word : UInt32) (places : UInt32) : UInt32 :=
  (word >>> places) ||| (word <<< (32 - places))

end PgpInspect.Digest
