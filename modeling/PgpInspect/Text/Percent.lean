import PgpInspect.Octets
import PgpInspect.Text.Digit
import PgpInspect.Text.Utf8

/-!
# Percent escapes

An escape is a `%` with the two hexadecimal digits of an octet. `Percent.encode` escapes the
characters that have to be, by their UTF-8 octets. `Percent.decode` replaces runs of escapes that
are UTF-8, except for the characters that mean something to the reader of a path, whose escapes
stay. `Percent.decodeAll` replaces all escapes, and what is not UTF-8 then by U+FFFD.
-/

namespace PgpInspect.Text.Percent

/-- The escape of an octet. -/
def escape (octet : UInt8) : List Char :=
  '%' :: (Octets.hexDigits [octet]).map Char.toUpper

/-- A text with the characters of a class escaped. -/
def encode (isEscaped : Char → Bool) (text : List Char) : List Char :=
  text.flatMap fun c => if isEscaped c then (Utf8.encodeChar c).flatMap escape else [c]

/-- The octet of an escape with two digits. -/
def octet? (high low : Char) : Option UInt8 :=
  (natInBase? 16 [high, low]).map UInt8.ofNat

/-- A text with its escapes told apart from its characters. -/
def pieces : (text : List Char) → List (Char ⊕ UInt8)
  | '%' :: high :: low :: rest =>
    match octet? high low with
    | some octet => .inr octet :: pieces rest
    | none => .inl '%' :: pieces (high :: low :: rest)
  | c :: rest => .inl c :: pieces rest
  | [] => []

/-- Whether the escape of a character stays. -/
def staysEscaped (c : Char) : Bool := ";/?:@&=+$,#%".toList.contains c

/-- The characters that a run of escapes stands for; the escapes themselves if it is not UTF-8. -/
def decodeRun (run : Octets) : List Char :=
  let characters := Utf8.decodeFrom none run
  if Utf8.encode characters = run then
    characters.flatMap fun c => if staysEscaped c then (Utf8.encodeChar c).flatMap escape else [c]
  else run.flatMap escape

/-- Decodes pieces after a run of escapes. -/
def decodePieces (run : Octets) : List (Char ⊕ UInt8) → List Char
  | [] => decodeRun run
  | .inr octet :: rest => decodePieces (run ++ [octet]) rest
  | .inl c :: rest => decodeRun run ++ c :: decodePieces [] rest

/-- A text with its escapes decoded. -/
def decode (text : List Char) : List Char := decodePieces [] (pieces text)

/-- The octets that a piece stands for. -/
def octetsOf : Char ⊕ UInt8 → Octets
  | .inl c => Utf8.encodeChar c
  | .inr octet => [octet]

/-- A text with all of its escapes decoded. -/
def decodeAll (text : List Char) : List Char :=
  Utf8.decodeFrom none ((pieces text).flatMap octetsOf)

end PgpInspect.Text.Percent
