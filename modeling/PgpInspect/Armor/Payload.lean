import PgpInspect.Armor.Block
import PgpInspect.DecodeFault
import PgpInspect.Text.Base64
import PgpInspect.Text.Digit
import PgpInspect.Text.Split

/-!
# The payload of an armor block

A block is read line by line: its first dashed line names the kind of armor, header lines follow up
to a blank line, and a signed message has its text and a second group of headers after that. What
then comes up to the next dashed line is the payload in base64 with a checksum after its last `=`,
which is cut off and never compared.
-/

namespace PgpInspect.Armor

/-- The kinds of armor that are read differently. -/
inductive Kind where
  /-- One of several parts of a message, all of them counted. Its first line decides nothing. -/
  | countedPart
  /-- A message with a readable text in front of its signature. -/
  | signedMessage
  /-- Any other kind. -/
  | plain
  deriving DecidableEq

/-- A line without the carriage returns in it and the spaces, tabs and carriage returns at its
end. -/
def cleanLine (line : List Char) : List Char :=
  let isTrailing (c : Char) : Bool := c == ' ' || c == '\t'
  ((line.filter (· != '\r')).reverse.dropWhile isTrailing).reverse

/-- What follows a dashed line in front of `text`: five dashes, other characters, five dashes, and
the end of a line. -/
def afterDashedLine? (text : List Char) : Option (List Char) := do
  let text ← dashes.isPrefixOf? text
  let title := text.takeWhile (· != '-')
  let rest ← dashes.isPrefixOf? (text.dropWhile (· != '-'))
  let atLineEnd : Bool :=
    match rest with
    | [] => true
    | c :: _ => Text.isLineEnd c
  if title.isEmpty || !atLineEnd then none else some rest

/-- The text in front of the first dashed line. `atStart` tells whether `text` begins a line. -/
def beforeDashedLine? : (atStart : Bool) → (text : List Char) → Option (List Char)
  | _, [] => none
  | atStart, c :: rest =>
    if atStart ∧ (afterDashedLine? (c :: rest)).isSome then some []
    else (beforeDashedLine? (Text.isLineEnd c) rest).map (c :: ·)

/-- Whether a line contains a dashed line. -/
def isDashed (line : List Char) : Bool := (beforeDashedLine? true line).isSome

/-- The kind of armor that a label names. -/
def kindOfLabel? (label : List Char) : Option Kind :=
  if ["MESSAGE", "PUBLIC KEY BLOCK", "PRIVATE KEY BLOCK", "SIGNATURE"].contains
      (String.ofList label) then some .plain
  else if String.ofList label = "SIGNED MESSAGE" then some .signedMessage
  else
    match "MESSAGE, PART ".toList.isPrefixOf? label with
    | none => none
    | some part =>
      let number := part.takeWhile Char.isDigit
      match part.dropWhile Char.isDigit with
      | [] => if Text.isNumeral number then some .plain else none
      | '/' :: count =>
        if Text.isNumeral number && Text.isNumeral count then some .countedPart else none
      | _ => none

/-- The kind of armor that a line of its own names. -/
def kindOfLine? (line : List Char) : Option Kind := do
  let rest ← "-----BEGIN PGP ".toList.isPrefixOf? line
  let label ← dashes.reverse.isPrefixOf? rest.reverse
  kindOfLabel? label.reverse

/-- The parts of a line between Unicode line ends. -/
def unicodeLines : (line : List Char) → List (List Char)
  | [] => [[]]
  | c :: rest =>
    if Text.isLineEnd c then [] :: unicodeLines rest
    else
      match unicodeLines rest with
      | part :: more => (c :: part) :: more
      | [] => [[c]]

/-- The characters of a line that ends armor headers. -/
def isHeaderSpace (c : Char) : Bool :=
  let n := c.toNat
  n == 0x20 || n == 0x0C || n == 0x0D || n == 0x09 || n == 0xA0 || (0x2000 ≤ n && n ≤ 0x200A) ||
    n == 0x202F || n == 0x205F || n == 0x3000

/-- Where a reader is in front of the payload of a block. -/
inductive Stage where
  /-- The kind of armor is not known yet. -/
  | opening
  /-- In the headers of plain armor, or in the second headers of a signed message. -/
  | headers
  /-- In the first headers of a signed message. -/
  | signedHeaders
  /-- In the text of a signed message. -/
  | signedText

/-- The lines after the blank line in front of the payload. -/
def skipToPayload : (stage : Stage) → (lines : List (List Char)) →
    Except ArmorFault (List (List Char))
  | _, [] => .error .misformed
  | stage, line :: rest =>
    -- An empty last line is no line.
    if line.isEmpty && rest.isEmpty then .error .misformed
    else
      let line := cleanLine line
      match stage with
      | .opening =>
        if isDashed line then
          match (unicodeLines line).findSome? kindOfLine? with
          | none => .error .unknownType
          | some .countedPart => skipToPayload .opening rest
          | some .signedMessage => skipToPayload .signedHeaders rest
          | some .plain => skipToPayload .headers rest
        else skipToPayload .opening rest
      | .headers =>
        if isDashed line then .error .blankLineMissing
        else if line.all isHeaderSpace then .ok rest
        else skipToPayload .headers rest
      | .signedHeaders =>
        if isDashed line then .error .blankLineMissing
        else if line.all isHeaderSpace then skipToPayload .signedText rest
        else skipToPayload .signedHeaders rest
      | .signedText =>
        if isDashed line then skipToPayload .headers rest
        else skipToPayload .signedText rest

/-- A payload text without its checksum: everything from the last `=` on, unless that is the last
character. -/
def withoutChecksum (text : List Char) : List Char :=
  match text.reverse with
  | [] => []
  | '=' :: _ => text
  | reversed =>
    match reversed.dropWhile (· != '=') with
    | [] => text
    | _ :: body => body.reverse

/-- The 16-bit units that do not count in a group of four: space, tab, carriage return and line
feed. -/
def isGap (unit : Nat) : Bool := [0x20, 0x09, 0x0D, 0x0A].contains unit

/-- How many units at the end of a text belong to its incomplete last group. `reversed` is the text
from its end on, and `count` is the number of its units, gaps left aside. The group begins at its
first unit or, if gaps follow that, at the last of these gaps. -/
def incompleteLength : (reversed : List Nat) → (count : Nat) → Nat
  | [], _ => 0
  | unit :: rest, count =>
    if count % 4 = 1 then 1
    else incompleteLength rest (if isGap unit then count else count - 1) + 1

/-- The octets of a payload text. Its whole groups of four and what is left over are decoded one
after the other. -/
def decodePayload (text : List Char) : Octets :=
  let units := text.flatMap Text.units
  let count := (units.filter fun unit => !isGap unit).length
  if count % 4 = 0 then Text.Base64.decodeUnits units
  else
    let whole := units.length - incompleteLength units.reverse count
    Text.Base64.decodeUnits (units.take whole) ++ Text.Base64.decodeUnits (units.drop whole)

/-- The octets of an armor block. -/
def decodeBlock (block : List Char) : Except ArmorFault Octets := do
  let lines ← skipToPayload .opening (Text.split '\n' block)
  match beforeDashedLine? true (Text.join '\n' (lines.map cleanLine)) with
  | none => .error .misformed
  | some payload => return decodePayload (withoutChecksum payload.dropLast)

/-- The octets of blocks, one after the other, of which the first has the number `index`. -/
def decodeBlocks (index : Nat) : List (List Char) → Except DecodeFault Octets
  | [] => .ok []
  | block :: rest =>
    match decodeBlock block with
    | .error reason => .error (.armorBlock index reason)
    | .ok octets => (decodeBlocks (index + 1) rest).map (octets ++ ·)

/-- The octets of the armor blocks of a text, one after the other. -/
def dearmor (text : List Char) : Except DecodeFault Octets :=
  match findBlocks text with
  | [] => .error .noArmorBlock
  | blocks => decodeBlocks 0 blocks

end PgpInspect.Armor
