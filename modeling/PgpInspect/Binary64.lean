/-!
# Binary64 numbers

Every number that reaches this library as text is an IEEE 754 binary64 number. `Binary64` keeps a
finite one as the exact rational it stands for, so that comparisons are comparisons of rationals,
and rounds to the nearest representable rational, ties to even, after each operation
(`Binary64.ofRat`). Zero has one sign. The sum of opposite infinities is undefined, which is neither
less nor greater than anything, and not even equal to itself (`Binary64.equal`).
-/

namespace PgpInspect

/-- A binary64 number: the rational it stands for, an infinity, or what no number stands for. -/
inductive Binary64 where
  /-- The number with exactly this value. -/
  | finite (value : Rat)
  /-- Positive infinity, or negative infinity if `negative` holds. -/
  | infinite (negative : Bool)
  /-- The result of an operation that has none. -/
  | undefined
  deriving DecidableEq

namespace Binary64

/-- The natural number nearest to `num / den`; halfway between two, the even one. -/
def roundQuotient (num den : Nat) : Nat :=
  let whole := num / den
  let excess := 2 * (num % den)
  if excess < den then whole else if den < excess then whole + 1 else whole + whole % 2

/-- The exponent `e` with `2 ^ e ≤ num / den < 2 ^ (e + 1)`, for positive `num` and `den`. -/
def binaryExponent (num den : Nat) : Int :=
  let guess : Int := (num.log2 : Int) - (den.log2 : Int)
  let reached : Bool :=
    if 0 ≤ guess then den * Nat.pow 2 guess.toNat ≤ num else den ≤ num * Nat.pow 2 (-guess).toNat
  if reached then guess else guess - 1

/-- The exponent of the last of the 53 significant bits of `num / den`. It is at least -1074, the
exponent of the smallest positive number. -/
def unitExponent (num den : Nat) : Int :=
  max (binaryExponent num den - 52) (-1074)

/-- `significand * 2 ^ exponent`. -/
def scale (significand : Nat) (exponent : Int) : Rat :=
  if 0 ≤ exponent then ((significand * Nat.pow 2 exponent.toNat : Nat) : Rat)
  else mkRat significand (Nat.pow 2 (-exponent).toNat)

/-- The magnitude nearest to `num / den` among the multiples of its unit; halfway, the one with
the even significand. -/
def roundMagnitude (num den : Nat) : Rat :=
  if num = 0 then 0
  else
    let unit := unitExponent num den
    -- A significand that is rounded up to `2 ^ 53` stands for the same value one unit higher.
    if 0 ≤ unit then scale (roundQuotient num (den * Nat.pow 2 unit.toNat)) unit
    else scale (roundQuotient (num * Nat.pow 2 (-unit).toNat) den) unit

/-- The number nearest to `value`. Magnitudes that round to `2 ^ 1024` or more are infinite. -/
def ofRat (value : Rat) : Binary64 :=
  let magnitude := roundMagnitude value.num.natAbs value.den
  if ((Nat.pow 2 1024 : Nat) : Rat) ≤ magnitude then .infinite (value.num < 0)
  else .finite (if value.num < 0 then -magnitude else magnitude)

instance : NatCast Binary64 := ⟨fun n => .finite (n : Rat)⟩

instance (n : Nat) : OfNat Binary64 n := ⟨.finite (n : Rat)⟩

/-- The number with the value of the integer `n`, which must be representable. -/
def ofInt (n : Int) : Binary64 := .finite (n : Rat)

instance : IntCast Binary64 := ⟨ofInt⟩

/-- The strict order: negative infinity, the rationals, positive infinity. -/
def lt : Binary64 → Binary64 → Bool
  | .finite a, .finite b => a < b
  | .finite _, .infinite negative => !negative
  | .infinite negative, .finite _ => negative
  | .infinite a, .infinite b => a && !b
  | _, _ => false

/-- Whether two numbers are the same number. -/
def equal : Binary64 → Binary64 → Bool
  | .undefined, _ => false
  | a, b => a = b

instance : LT Binary64 := ⟨fun a b => a.lt b = true⟩

instance (a b : Binary64) : Decidable (a < b) := inferInstanceAs (Decidable (a.lt b = true))

instance : LE Binary64 := ⟨fun a b => (a.lt b || a.equal b) = true⟩

instance (a b : Binary64) : Decidable (a ≤ b) :=
  inferInstanceAs (Decidable ((a.lt b || a.equal b) = true))

/-- The rounded sum. An infinity swallows a finite summand. -/
def add : Binary64 → Binary64 → Binary64
  | .finite a, .finite b => ofRat (a + b)
  | .infinite negative, .finite _ => .infinite negative
  | .finite _, .infinite negative => .infinite negative
  | .infinite a, .infinite b => if a = b then .infinite a else .undefined
  | _, _ => .undefined

instance : Add Binary64 := ⟨add⟩

/-- The rounded product with a positive natural number. -/
def scaleBy (factor : Nat) : Binary64 → Binary64
  | .finite a => ofRat (a * factor)
  | number => number

/-- The greatest integer of at most 53 bits. Up to it every integer has a number of its own. -/
def greatestSafe : Nat := Nat.pow 2 53 - 1

/-- The integer that the number equals, if it is one. -/
def toInt? : Binary64 → Option Int
  | .finite a => if a.den = 1 then some a.num else none
  | _ => none

/-- The number without its fraction, modulo `2 ^ 32`; zero for what is not finite. -/
def toWord : Binary64 → Nat
  | .finite a => (Int.emod (Int.tdiv a.num a.den) 0x100000000).toNat
  | _ => 0

/-- A natural number is read back from its number. -/
@[simp]
theorem toInt?_natCast (n : Nat) : (n : Binary64).toInt? = some (n : Int) := rfl

/-- A natural number less than another one has the lesser number. -/
theorem natCast_lt_natCast {a b : Nat} : (a : Binary64) < (b : Binary64) ↔ a < b := by
  show decide ((a : Rat) < (b : Rat)) = true ↔ a < b
  rw [decide_eq_true_iff, Rat.natCast_lt_natCast]

end Binary64

end PgpInspect
