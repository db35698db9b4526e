import PgpInspect.Octets

/-!
# Windows-1252

The single-octet encoding in which armored text handed over as octets is read. It is ISO 8859-1
but for the octets from 0x80 to 0x9F, most of which are printable characters.
-/

namespace PgpInspect.Text.Windows1252

/-- The characters of the octets from 0x80 to 0x9F, in order. -/
def upperControls : List Nat :=
  [0x20AC, 0x81, 0x201A, 0x0192, 0x201E, 0x2026, 0x2020, 0x2021,
    0x02C6, 0x2030, 0x0160, 0x2039, 0x0152, 0x8D, 0x017D, 0x8F,
    0x90, 0x2018, 0x2019, 0x201C, 0x201D, 0x2022, 0x2013, 0x2014,
    0x02DC, 0x2122, 0x0161, 0x203A, 0x0153, 0x9D, 0x017E, 0x0178]

/-- The character of one octet. -/
def decodeOctet (octet : UInt8) : Char :=
  let n := octet.toNat
  if 0x80 ≤ n ∧ n < 0xA0 then Char.ofNat (upperControls.getD (n - 0x80) n) else Char.ofNat n

/-- The text of a sequence of octets. -/
def decode (octets : Octets) : List Char := octets.map decodeOctet

/-- An ASCII octet is the character with its number. -/
theorem decodeOctet_of_lt {octet : UInt8} (h : octet.toNat < 0x80) :
    decodeOctet octet = Char.ofNat octet.toNat := by
  simp only [decodeOctet]
  split
  · omega
  · rfl

end PgpInspect.Text.Windows1252
