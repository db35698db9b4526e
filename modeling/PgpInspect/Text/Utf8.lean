import PgpInspect.Octets

/-!
# UTF-8

`decode` accepts every sequence of octets: each longest part of it that could begin a well-formed
character but does not complete one becomes a single U+FFFD, and so does each octet that begins
none. A byte order mark in front is left out. `encode` is the UTF-8 form of a text.
-/

namespace PgpInspect.Text.Utf8

/-- A character that has begun: its bits so far, the number of octets still to come, and the range
the next of them must lie in. -/
structure Pending where
  /-- The bits read so far. -/
  bits : Nat
  /-- The number of octets still to come, less one. -/
  more : Nat
  /-- The least value of the next octet. -/
  least : Nat
  /-- The greatest value of the next octet. -/
  greatest : Nat

/-- The replacement for what is not well formed. -/
def replacement : Char := '\uFFFD'

/-- What an octet begins: a character of its own, a longer character, or nothing. -/
def begin? (octet : UInt8) : Char ⊕ Option Pending :=
  let n := octet.toNat
  if n < 0x80 then .inl (Char.ofNat n)
  else if n < 0xC2 then .inr none
  else if n < 0xE0 then .inr (some ⟨n - 0xC0, 0, 0x80, 0xBF⟩)
  else if n < 0xF0 then
    .inr (some ⟨n - 0xE0, 1, if n = 0xE0 then 0xA0 else 0x80, if n = 0xED then 0x9F else 0xBF⟩)
  else if n < 0xF5 then
    .inr (some ⟨n - 0xF0, 2, if n = 0xF0 then 0x90 else 0x80, if n = 0xF4 then 0x8F else 0xBF⟩)
  else .inr none

/-- The characters that an octet completes at the start of a character, and what it leaves
pending. -/
def start (octet : UInt8) : List Char × Option Pending :=
  match begin? octet with
  | .inl c => ([c], none)
  | .inr none => ([replacement], none)
  | .inr (some pending) => ([], some pending)

/-- Decodes `octets` after what is pending. -/
def decodeFrom : (pending : Option Pending) → Octets → List Char
  | none, [] => []
  | some _, [] => [replacement]
  | none, octet :: rest =>
    let (done, pending) := start octet
    done ++ decodeFrom pending rest
  | some pending, octet :: rest =>
    if pending.least ≤ octet.toNat ∧ octet.toNat ≤ pending.greatest then
      let bits := 64 * pending.bits + (octet.toNat - 0x80)
      match pending.more with
      | 0 => Char.ofNat bits :: decodeFrom none rest
      | more + 1 => decodeFrom (some ⟨bits, more, 0x80, 0xBF⟩) rest
    else
      let (done, pending) := start octet
      replacement :: (done ++ decodeFrom pending rest)

/-- The octets without a byte order mark in front. -/
def withoutMark : Octets → Octets
  | 0xEF :: 0xBB :: 0xBF :: rest => rest
  | octets => octets

/-- The text of a sequence of octets. -/
def decode (octets : Octets) : List Char := decodeFrom none (withoutMark octets)

/-- The octets that write one character. -/
def encodeChar (c : Char) : Octets :=
  let n := c.toNat
  let continuation (place : Nat) : UInt8 := UInt8.ofNat (0x80 + n / place % 0x40)
  if n < 0x80 then [UInt8.ofNat n]
  else if n < 0x800 then [UInt8.ofNat (0xC0 + n / 0x40), continuation 1]
  else if n < 0x10000 then [UInt8.ofNat (0xE0 + n / 0x1000), continuation 0x40, continuation 1]
  else
    [ UInt8.ofNat (0xF0 + n / 0x40000), continuation 0x1000, continuation 0x40, continuation 1 ]

/-- The octets that write a text. -/
def encode (text : List Char) : Octets := text.flatMap encodeChar

end PgpInspect.Text.Utf8
