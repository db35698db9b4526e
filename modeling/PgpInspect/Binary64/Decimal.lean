import PgpInspect.Binary64

/-!
# Decimal and hexadecimal text of binary64 numbers

`Binary64.ofDecimal` reads a decimal fraction; `Binary64.text` writes the shortest decimal
fraction that reads back as the number, of several such the one nearest to it, and of two such the
one with an even last digit. An integer of at most 53 bits is written as its numeral. Positional
notation is used for decimal exponents from -6 to 20 and an exponent, as in `e+21` or `e-7`, outside
of them; zero has no sign, and the infinities and what is undefined are words. `Binary64.hexText`
writes the exact value in base 16.
-/

namespace PgpInspect

namespace Binary64

/-- `significand * 10 ^ exponent`. -/
def scaleDecimal (significand : Nat) (exponent : Int) : Rat :=
  if 0 ≤ exponent then ((significand * Nat.pow 10 exponent.toNat : Nat) : Rat)
  else mkRat significand (Nat.pow 10 (-exponent).toNat)

/-- The number nearest to `± significand * 10 ^ exponent`. Exponents so large or so small that the
outcome is plain from the number of digits are decided without computing the power of ten. -/
def ofDecimal (negative : Bool) (significand : Nat) (exponent : Int) : Binary64 :=
  let magnitude : Int := (Nat.toDigits 10 significand).length + exponent
  if significand = 0 ∨ magnitude < -330 then 0
  else if 330 < magnitude then .infinite negative
  else
    let value := scaleDecimal significand exponent
    ofRat (if negative then -value else value)

/-- The number of zeros between the point and the first digit of a positive `num / den` below one,
counted from `zeros` on; `fuel` bounds the search. -/
def leadingZeros (num den : Nat) : (fuel zeros : Nat) → Nat
  | 0, zeros => zeros
  | fuel + 1, zeros =>
    if den ≤ 10 * num then zeros else leadingZeros (10 * num) den fuel (zeros + 1)

/-- The `p` with `10 ^ (p - 1) ≤ num / den < 10 ^ p`, for a positive binary64 magnitude. -/
def pointPosition (num den : Nat) : Int :=
  if den ≤ num then (Nat.toDigits 10 (num / den)).length
  else -(leadingZeros num den 400 0 : Int)

/-- The multiple of `10 ^ unit` that reads back as `value`, given by its factor: of the two
neighbours of `value` the one nearer to it, halfway the even one, if that reads back, else the other
one, if that does. -/
def onGrid? (value : Rat) (unit : Int) : Option Nat :=
  let scaled := value / scaleDecimal 1 unit
  let below := (scaled.num / scaled.den).toNat
  let readsBack (factor : Nat) : Bool := ofRat (scaleDecimal factor unit) = .finite value
  let excess := 2 * (scaled - (below : Rat))
  let (near, far) :=
    if excess < 1 ∨ (excess = 1 ∧ below % 2 = 0) then (below, below + 1) else (below + 1, below)
  if readsBack near then some near else if readsBack far then some far else none

/-- The coarsest grid, from `digits` significant digits on, with a multiple that reads back as
`value`: the factor and the exponent of the unit. -/
def shortestFrom (value : Rat) (point : Int) : (fuel digits : Nat) → Nat × Int
  | 0, _ => (0, 0)
  | fuel + 1, digits =>
    match onGrid? value (point - digits) with
    | some factor => (factor, point - digits)
    | none => shortestFrom value point fuel (digits + 1)

/-- The shortest decimal fraction that reads back as a positive `value`: the digits and the
position of the point relative to the first of them. Seventeen digits always suffice. -/
def shortest (value : Rat) : List Char × Int :=
  let (factor, unit) := shortestFrom value (pointPosition value.num.natAbs value.den) 17 1
  let digits := Nat.toDigits 10 factor
  (digits, digits.length + unit)

/-- `digits` with the point after the first `point` of them: positional where the decimal exponent
is from -6 to 20, with a written exponent elsewhere. -/
def layOut (digits : List Char) (point : Int) : List Char :=
  let count : Int := digits.length
  if 0 < point ∧ point ≤ 21 then
    if count ≤ point then digits ++ List.replicate (point - count).toNat '0'
    else digits.take point.toNat ++ '.' :: digits.drop point.toNat
  else if -6 < point ∧ point ≤ 0 then
    '0' :: '.' :: List.replicate (-point).toNat '0' ++ digits
  else
    let exponent := point - 1
    let sign := if exponent < 0 then '-' else '+'
    let fraction := if digits.length ≤ 1 then [] else '.' :: digits.drop 1
    digits.take 1 ++ fraction ++ 'e' :: sign :: Nat.toDigits 10 exponent.natAbs

/-- The text of an infinity. -/
def infinityText (negative : Bool) : String := if negative then "-Infinity" else "Infinity"

/-- The text of what is undefined. -/
def undefinedText : String := "NaN"

/-- The decimal text of a number. -/
def decimalDigits : Binary64 → List Char
  | .infinite negative => (infinityText negative).toList
  | .undefined => undefinedText.toList
  | .finite value =>
    let sign := if value.num < 0 then ['-'] else []
    let magnitude := value.num.natAbs
    if value.den = 1 ∧ magnitude ≤ greatestSafe then sign ++ Nat.toDigits 10 magnitude
    else
      let (digits, point) := shortest (if value.num < 0 then -value else value)
      sign ++ layOut (stripZeros digits) point
where
  /-- The digits up to the last one that is not zero. -/
  stripZeros (digits : List Char) : List Char :=
    (digits.reverse.dropWhile (· == '0')).reverse

/-- The decimal text of a number. -/
def text (number : Binary64) : String := String.ofList number.decimalDigits

/-- `digits` padded in front with zeros to `width`. -/
def padded (width : Nat) (digits : List Char) : List Char :=
  List.replicate (width - digits.length) '0' ++ digits

/-- The exact hexadecimal text of a number. -/
def hexText : Binary64 → String
  | .infinite negative => infinityText negative
  | .undefined => undefinedText
  | .finite value =>
    let sign := if value.num < 0 then ['-'] else []
    let magnitude := value.num.natAbs
    let integral := Nat.toDigits 16 (magnitude / value.den)
    let places := (value.den.log2 + 3) / 4
    let fraction := (magnitude % value.den) * Nat.pow 16 places / value.den
    let fractional := if fraction = 0 then [] else '.' :: padded places (Nat.toDigits 16 fraction)
    String.ofList (sign ++ integral ++ fractional)

end Binary64

end PgpInspect
