import PgpInspect.Binary64.Decimal
import PgpInspect.Octets

/-!
# Curve identifiers

An elliptic curve is named by an object identifier, which is shown as decimal numbers with points
between. The first octet writes two of them in base 40; each later number is written in base 128,
with the top bit set in all of its octets but the last. The numbers are binary64 numbers, so that
one beyond `2 ^ 53` is shown rounded.
-/

namespace PgpInspect.Curve

/-- The numbers that octets write in base 128, after the digits of `value`. An unfinished number at
the end is dropped. -/
def arcsFrom (value : Binary64) : Octets → List Binary64
  | [] => []
  | octet :: rest =>
    let next := value.scaleBy 128 + ((octet.toNat % 128 : Nat) : Binary64)
    if octet.toNat < 128 then next :: arcsFrom 0 rest else arcsFrom next rest

/-- The numbers of an object identifier. -/
def arcs : Octets → List Binary64
  | [] => []
  | first :: rest =>
    ((first.toNat / 40 : Nat) : Binary64) :: ((first.toNat % 40 : Nat) : Binary64) ::
      arcsFrom 0 rest

/-- The text of an object identifier. -/
def dotted (identifier : Octets) : String :=
  String.intercalate "." ((arcs identifier).map Binary64.text)

/-- The field size in bits of the curve with the object identifier `identifier`, 0 if the curve is
not known. -/
def bits (identifier : String) : Nat :=
  match identifier with
  | "1.2.840.10045.3.1.7" => 256
  | "1.3.132.0.34" => 384
  | "1.3.132.0.35" => 521
  | "1.3.132.0.10" => 256
  | "1.3.36.3.3.2.8.1.1.7" => 256
  | "1.3.36.3.3.2.8.1.1.11" => 384
  | "1.3.36.3.3.2.8.1.1.13" => 512
  | "1.3.6.1.4.1.11591.15.1" => 256
  | "1.3.6.1.4.1.3029.1.5.1" => 256
  | "1.3.101.110" => 256
  | "1.3.101.111" => 448
  | "1.3.101.112" => 256
  | "1.3.101.113" => 448
  | _ => 0

end PgpInspect.Curve
