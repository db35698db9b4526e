/-!
# Sixteen-bit units

Some counts, cuts and orders of text go by 16-bit units: a character above U+FFFF is a pair of
units, any other character is one. The order of two texts is the lexicographic order of their
units, which puts the characters above U+FFFF before those from U+E000 to U+FFFF.
-/

namespace PgpInspect.Text

/-- The units that write a character. -/
def units (c : Char) : List Nat :=
  let n := c.toNat
  if n < 0x10000 then [n] else [0xD800 + (n - 0x10000) / 0x400, 0xDC00 + (n - 0x10000) % 0x400]

/-- The first of the units that write a character. -/
def firstUnit (c : Char) : Nat := (units c).headD 0

/-- The number of units of a text. -/
def unitCount (text : List Char) : Nat := (text.flatMap units).length

/-- The lexicographic order of lists of numbers. -/
def listLe : List Nat → List Nat → Bool
  | [], _ => true
  | _ :: _, [] => false
  | a :: as, b :: bs => a < b || (a == b && listLe as bs)

/-- The order of texts by their units. -/
def unitLe (a b : String) : Bool := listLe (a.toList.flatMap units) (b.toList.flatMap units)

/-- The first `count` units of a text. A character that is cut in half becomes U+FFFD. -/
def takeUnits : (count : Nat) → List Char → List Char
  | _, [] => []
  | count, c :: rest =>
    let width := (units c).length
    if width ≤ count then c :: takeUnits (count - width) rest
    else if 0 < count then ['\uFFFD'] else []

/-- A text without its first `count` units. A character that is cut in half becomes U+FFFD. -/
def dropUnits : (count : Nat) → List Char → List Char
  | _, [] => []
  | count, c :: rest =>
    let width := (units c).length
    if count = 0 then c :: rest
    else if width ≤ count then dropUnits (count - width) rest
    else '\uFFFD' :: rest

/-- The last `count` units of a text, which is all of it if it has no more. -/
def lastUnits (count : Nat) (text : List Char) : List Char :=
  dropUnits (unitCount text - count) text

end PgpInspect.Text
