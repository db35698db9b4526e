import PgpInspect.Binary64.Decimal
import PgpInspect.Json
import PgpInspect.Text.Units

/-!
# Writing JSON text

The text of a value, without blanks. Quotation marks, backslashes and control characters are always
escaped; `Escaping.ascii` escapes everything that is not printable ASCII as well, by its 16-bit
units. A number that is not finite is written as `null`.
-/

namespace PgpInspect.Json

/-- Which characters of a string literal are escaped beyond those that must be. -/
inductive Escaping where
  /-- None. -/
  | minimal
  /-- All that are not printable ASCII. -/
  | ascii
  deriving DecidableEq

/-- The escape of a 16-bit unit. -/
def escapeUnit (unit : Nat) : List Char :=
  '\\' :: 'u' :: Binary64.padded 4 (Nat.toDigits 16 unit)

/-- The letter that follows the backslash in the short escape of a control character. -/
def shortEscape? (c : Char) : Option Char :=
  match c.toNat with
  | 8 => some 'b'
  | 9 => some 't'
  | 10 => some 'n'
  | 12 => some 'f'
  | 13 => some 'r'
  | _ => none

/-- A character inside of a string literal. -/
def writeChar (escaping : Escaping) (c : Char) : List Char :=
  if c = '"' ∨ c = '\\' then ['\\', c]
  else if c.toNat < 0x20 then
    match shortEscape? c with
    | some letter => ['\\', letter]
    | none => escapeUnit c.toNat
  else if c.toNat < 0x7F ∨ escaping = .minimal then [c]
  else (Text.units c).flatMap escapeUnit

/-- A string literal. -/
def writeString (escaping : Escaping) (value : String) : List Char :=
  '"' :: value.toList.flatMap (writeChar escaping) ++ ['"']

/-- A number, `null` if it is not finite. -/
def writeNumber : Binary64 → List Char
  | .finite value => (Binary64.finite value).decimalDigits
  | _ => "null".toList

mutual

/-- The text of a value. -/
def write (escaping : Escaping) : Json → List Char
  | .null => "null".toList
  | .bool value => (if value then "true" else "false").toList
  | .number value => writeNumber value
  | .string value => writeString escaping value
  | .array items => '[' :: writeItems escaping items ++ [']']
  | .object members => '\x7b' :: writeMembers escaping members ++ ['\x7d']

/-- The texts of values, with commas between. -/
def writeItems (escaping : Escaping) : List Json → List Char
  | [] => []
  | [item] => write escaping item
  | item :: rest => write escaping item ++ ',' :: writeItems escaping rest

/-- The texts of members, with commas between. -/
def writeMembers (escaping : Escaping) : List (String × Json) → List Char
  | [] => []
  | [(name, value)] => writeString escaping name ++ ':' :: write escaping value
  | (name, value) :: rest =>
    writeString escaping name ++ ':' :: write escaping value ++ ',' :: writeMembers escaping rest

end

/-- The text of a value in ASCII. -/
def toText (json : Json) : String := String.ofList (json.write .ascii)

end PgpInspect.Json
