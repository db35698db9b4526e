import PgpInspect.Octets

/-!
# Fingerprints

A fingerprint is shown as upper-case hexadecimal digits: 32 of them for keys of versions 2 and 3,
40 for version 4, and 64 for versions 5 and 6.
-/

namespace PgpInspect.Fingerprint

/-- The hexadecimal digits in either case. -/
def isHexDigit (c : Char) : Bool :=
  c.isDigit || ('a' ≤ c && c ≤ 'f') || ('A' ≤ c && c ≤ 'F')

/-- Whether a text has the form of a fingerprint, in either case. -/
def isFingerprint (text : List Char) : Bool :=
  [32, 40, 64].contains text.length && text.all isHexDigit

/-- The upper-case form of a fingerprint, nothing for a text of another form. -/
def ofText? (text : String) : Option String :=
  if isFingerprint text.toList then some (String.ofList (text.toList.map Char.toUpper)) else none

/-- The message for a text that is no fingerprint. -/
def refusal (text : String) : String := "Invalid KeyFingerprint format: " ++ text

/-- The fingerprint that a digest makes. -/
def ofDigest (digest : Octets) : String := String.ofList (digest.hexDigits.map Char.toUpper)

end PgpInspect.Fingerprint
