import PgpInspect.Octets
import PgpInspect.Text.Units

/-!
# Base64

`decode` is lenient: it reads up to the first `=`, skips every character outside of the alphabet,
takes `-` and `_` for `+` and `/`, and drops the bits of an unfinished octet at the end. Of the
16-bit units of a text it looks at the low eight bits only. `encode` writes the padded form.
-/

namespace PgpInspect.Text.Base64

/-- The value of a character of the alphabet. -/
def value? (c : Char) : Option Nat :=
  let n := c.toNat
  if 65 ≤ n ∧ n ≤ 90 then some (n - 65)
  else if 97 ≤ n ∧ n ≤ 122 then some (n - 71)
  else if 48 ≤ n ∧ n ≤ 57 then some (n + 4)
  else if c = '+' ∨ c = '-' then some 62
  else if c = '/' ∨ c = '_' then some 63
  else none

/-- The octets that values below 64 write, four values to three octets. Three values left over
make two octets, two make one, and one makes none. -/
def octetsOf : List Nat → Octets
  | a :: b :: c :: d :: rest =>
    UInt8.ofNat (4 * a + b / 16) :: UInt8.ofNat (16 * b + c / 4) :: UInt8.ofNat (64 * c + d)
      :: octetsOf rest
  | [a, b, c] => [UInt8.ofNat (4 * a + b / 16), UInt8.ofNat (16 * b + c / 4)]
  | [a, b] => [UInt8.ofNat (4 * a + b / 16)]
  | _ => []

/-- The character that the low eight bits of a 16-bit unit stand for. -/
def lowChar (unit : Nat) : Char := Char.ofNat (unit % 256)

/-- The values of 16-bit units, up to the first `=`. -/
def values (units : List Nat) : List Nat :=
  ((units.map lowChar).takeWhile (· != '=')).filterMap value?

/-- The octets that 16-bit units write. -/
def decodeUnits (units : List Nat) : Octets := octetsOf (values units)

/-- The octets that a text writes. -/
def decode (text : List Char) : Octets := decodeUnits (text.flatMap units)

/-- The characters of the alphabet proper. -/
def isAlphabet (c : Char) : Bool := (value? c).isSome && c != '-' && c != '_'

/-- The character of a value below 64. -/
def digit (value : Nat) : Char :=
  if value < 26 then Char.ofNat (value + 65)
  else if value < 52 then Char.ofNat (value + 71)
  else if value < 62 then Char.ofNat (value - 4)
  else if value = 62 then '+'
  else '/'

/-- The text that writes a sequence of octets, padded to a multiple of four characters. -/
def encode : Octets → List Char
  | a :: b :: c :: rest =>
    digit (a.toNat / 4) :: digit (a.toNat % 4 * 16 + b.toNat / 16)
      :: digit (b.toNat % 16 * 4 + c.toNat / 64) :: digit (c.toNat % 64) :: encode rest
  | [a, b] =>
    [digit (a.toNat / 4), digit (a.toNat % 4 * 16 + b.toNat / 16), digit (b.toNat % 16 * 4), '=']
  | [a] => [digit (a.toNat / 4), digit (a.toNat % 4 * 16), '=', '=']
  | [] => []

end PgpInspect.Text.Base64
