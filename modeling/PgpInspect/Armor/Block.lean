import PgpInspect.Text.Blank
import PgpInspect.Text.Search

/-!
# Armor blocks in a text

An armor block begins with a line `-----BEGIN PGP label-----`, whatever stands in front of it on
the same line, and ends with the first `-----END PGP label-----` after that line with the same
label. Blocks are looked for from left to right and do not overlap. A beginning without an end is
passed over.
-/

namespace PgpInspect.Armor

/-- What every armored text contains. -/
def marker : List Char := "-----BEGIN".toList

/-- Whether a text looks armored. -/
def isArmored (text : List Char) : Bool := Text.occursIn marker text

/-- The characters of a label. -/
def isLabelChar (c : Char) : Bool :=
  c.isUpper || c.isDigit || c == ' ' || c == ',' || c == '/'

/-- Five dashes. -/
def dashes : List Char := "-----".toList

/-- The text after an end of line, with or without a carriage return. -/
def afterNewline? : List Char → Option (List Char)
  | '\n' :: rest => some rest
  | '\r' :: '\n' :: rest => some rest
  | _ => none

/-- The label of the BEGIN line in front of `text`, and what follows the line. -/
def beginLine? (text : List Char) : Option (List Char × List Char) := do
  let text ← "-----BEGIN PGP ".toList.isPrefixOf? text
  let label := text.takeWhile isLabelChar
  let text ← dashes.isPrefixOf? (text.dropWhile isLabelChar)
  let rest ← afterNewline? text
  if label.isEmpty then none else some (label, rest)

/-- The closing mark for a label. -/
def endMark (label : List Char) : List Char := "-----END PGP ".toList ++ label ++ dashes

/-- The number of characters of the block in front of `text`, if one begins there. -/
def blockLength? (text : List Char) : Option Nat := do
  let (label, rest) ← beginLine? text
  let inside ← Text.before? (endMark label) rest
  return (text.length - rest.length) + inside.length + (endMark label).length

/-- The blocks of `text`, of which the first `skip` characters belong to a block already found. -/
def blocksFrom : (skip : Nat) → (text : List Char) → List (List Char)
  | _, [] => []
  | skip + 1, _ :: rest => blocksFrom skip rest
  | 0, c :: rest =>
    match blockLength? (c :: rest) with
    | some length => (c :: rest).take length :: blocksFrom (length - 1) rest
    | none => blocksFrom 0 rest

/-- The armor blocks of a text, in order. -/
def findBlocks (text : List Char) : List (List Char) := blocksFrom 0 text

end PgpInspect.Armor
