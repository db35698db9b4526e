import PgpInspect.Binary64.Decimal
import PgpInspect.Text.Blank
import PgpInspect.Text.Digit

/-!
# Reading numerals

The parts of a decimal numeral, and the numerals that settings may use (`Binary64.ofNumeral?`): a
decimal fraction with an optional sign and exponent, of which either the whole part or the fraction
may be missing, an unsigned hexadecimal, octal or binary number after `0x`, `0o` or `0b`, and
`Infinity`. Blanks around are ignored, and nothing but blanks reads as zero.
-/

namespace PgpInspect.Binary64

namespace Numeral

/-- The digits in front of a text and the rest of it. -/
def digits (text : List Char) : List Char × List Char := text.span Char.isDigit

/-- The number that decimal digits write. -/
def natOf (digits : List Char) : Nat :=
  digits.foldl (fun value digit => 10 * value + (digit.toNat - 48)) 0

/-- Whether there is a minus sign, and the text after a sign. -/
def sign : (text : List Char) → Bool × List Char
  | '-' :: text => (true, text)
  | '+' :: text => (false, text)
  | text => (false, text)

/-- The exponent in front of a text, zero if there is none, and the rest. -/
def exponent? : (text : List Char) → Option (Int × List Char)
  | c :: text =>
    if c = 'e' ∨ c = 'E' then
      let (negative, text) := sign text
      match digits text with
      | ([], _) => none
      | (exponent, rest) =>
        let value : Int := natOf exponent
        some (if negative then -value else value, rest)
    else some (0, c :: text)
  | [] => some (0, [])

/-- The number that a text without blanks around it writes in decimal. -/
def decimal? (text : List Char) : Option Binary64 :=
  let (negative, magnitude) := sign text
  if magnitude = "Infinity".toList then some (.infinite negative)
  else
    let (whole, rest) := digits magnitude
    let (fraction, rest) :=
      match rest with
      | '.' :: rest => digits rest
      | rest => ([], rest)
    if whole.isEmpty ∧ fraction.isEmpty then none
    else
      match exponent? rest with
      | some (exponent, []) =>
        some (ofDecimal negative (natOf (whole ++ fraction)) (exponent - fraction.length))
      | _ => none

/-- The number that a text without blanks around it writes, zero for an empty one. -/
def read? : (text : List Char) → Option Binary64
  | [] => some 0
  | '0' :: c :: rest =>
    if c = 'x' ∨ c = 'X' then (Text.natInBase? 16 rest).map fun value => ofRat (value : Rat)
    else if c = 'o' ∨ c = 'O' then (Text.natInBase? 8 rest).map fun value => ofRat (value : Rat)
    else if c = 'b' ∨ c = 'B' then (Text.natInBase? 2 rest).map fun value => ofRat (value : Rat)
    else decimal? ('0' :: c :: rest)
  | text => decimal? text

end Numeral

/-- The number that a setting writes. -/
def ofNumeral? (text : List Char) : Option Binary64 := Numeral.read? (Text.trim text)

end PgpInspect.Binary64
