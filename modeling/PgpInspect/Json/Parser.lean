import PgpInspect.Binary64.Numeral
import PgpInspect.Json
import PgpInspect.Json.SyntaxFault

/-!
# Reading JSON text

A reader for the JSON grammar, with nothing around the value but blanks. Of members with one name
the last value counts. An escaped half of a surrogate pair without its other half becomes U+FFFD. A
text that is not JSON is refused at the first place where no JSON text goes on like it.
-/

namespace PgpInspect.Json

namespace Parser

open Binary64.Numeral

/-- Refuses a text at `rest`. -/
def refuse {α : Type} (cause : SyntaxCause) (rest : List Char) : Except SyntaxFault α :=
  .error ⟨cause, rest⟩

/-- The blanks of the grammar. -/
def isSpace (c : Char) : Bool := c == ' ' || c == '\t' || c == '\n' || c == '\r'

/-- The text after the blanks in front. -/
def skipSpace (text : List Char) : List Char := text.dropWhile isSpace

/-- The unit that four hexadecimal digits write. -/
def unit? (a b c d : Char) : Option Nat :=
  Text.natInBase? 16 [a, b, c, d]

/-- The text after the hexadecimal digits in front. -/
def skipDigits (text : List Char) : List Char :=
  text.dropWhile fun c => (Text.digitValue? 16 c).isSome

/-- The character that an escape letter stands for. -/
def escaped? : Char → Option Char
  | '"' => some '"'
  | '\\' => some '\\'
  | '/' => some '/'
  | 'b' => some '\x08'
  | 'f' => some '\x0c'
  | 'n' => some '\n'
  | 'r' => some '\r'
  | 't' => some '\t'
  | _ => none

/-- The character of a unit that is not the first half of a surrogate pair. -/
def unitChar (unit : Nat) : Char :=
  if 0xD800 ≤ unit ∧ unit < 0xE000 then '\uFFFD' else Char.ofNat unit

/-- What stands for a first half `pending` of a surrogate pair whose second half is missing. -/
def lone (pending : Option Nat) : List Char :=
  match pending with
  | some _ => ['\uFFFD']
  | none => []

/-- The characters of a string literal after its opening quote, in reverse after `done`, and the
text after its closing quote. `pending` is an escaped first half of a surrogate pair. -/
def stringBody (pending : Option Nat) (done : List Char) :
    List Char → Except SyntaxFault (List Char × List Char)
  | [] => refuse .unterminatedString []
  | '"' :: rest => .ok ((lone pending ++ done).reverse, rest)
  | '\\' :: 'u' :: a :: b :: c :: d :: rest =>
    match unit? a b c d with
    | none => refuse .unicodeEscape (skipDigits (a :: b :: c :: d :: rest))
    | some unit =>
      match pending with
      | some first =>
        if 0xDC00 ≤ unit ∧ unit < 0xE000 then
          let c := Char.ofNat (0x10000 + (first - 0xD800) * 0x400 + (unit - 0xDC00))
          stringBody none (c :: done) rest
        else if 0xD800 ≤ unit ∧ unit < 0xDC00 then
          stringBody (some unit) ('\uFFFD' :: done) rest
        else stringBody none (unitChar unit :: '\uFFFD' :: done) rest
      | none =>
        if 0xD800 ≤ unit ∧ unit < 0xDC00 then stringBody (some unit) done rest
        else stringBody none (unitChar unit :: done) rest
  | '\\' :: 'u' :: short => refuse .unicodeEscape (skipDigits short)
  | '\\' :: c :: rest =>
    match escaped? c with
    | none => refuse .escape (c :: rest)
    | some e => stringBody none (e :: (lone pending ++ done)) rest
  | c :: rest =>
    if c = '\\' then refuse .escape rest
    else if c.toNat < 0x20 then refuse .controlCharacter (c :: rest)
    else stringBody none (c :: (lone pending ++ done)) rest

/-- The fraction part of a number literal: the digits after a point, if there is one. -/
def fraction (text : List Char) : Except SyntaxFault (List Char × List Char) :=
  match text with
  | '.' :: rest =>
    match digits rest with
    | ([], _) => refuse .fraction rest
    | parts => .ok parts
  | _ => .ok ([], text)

/-- The exponent of a number literal, zero if there is none. -/
def exponent (text : List Char) : Except SyntaxFault (Int × List Char) :=
  match exponent? text with
  | some parts => .ok parts
  | none => refuse .exponent (sign (text.drop 1)).2

/-- An unsigned number literal in front of a text. -/
def magnitude (negative : Bool) (text : List Char) : Except SyntaxFault (Binary64 × List Char) :=
  match digits text with
  | ([], _) => refuse (if negative then .digitAfterMinus else .unexpected) text
  | (whole, rest) =>
    -- A zero in front of other digits is a literal of its own, which must not be followed by them.
    if whole.length ≠ 1 ∧ whole.head? = some '0' then refuse .unexpected (text.drop 1)
    else do
      let (fraction, rest) ← fraction rest
      let (exponent, rest) ← exponent rest
      return (.ofDecimal negative (natOf (whole ++ fraction)) (exponent - fraction.length), rest)

/-- A number literal in front of a text. -/
def number : List Char → Except SyntaxFault (Binary64 × List Char)
  | '-' :: text => magnitude true text
  | text => magnitude false text

/-- The text after a word. -/
def word : (word : List Char) → (text : List Char) → Except SyntaxFault (List Char)
  | [], text => .ok text
  | _ :: _, [] => refuse .unexpected []
  | c :: word', d :: text => if c = d then word word' text else refuse .unexpected (d :: text)

/-- A value that a word stands for. -/
def literal (name : String) (value : Json) (text : List Char) :
    Except SyntaxFault (Json × List Char) := do
  return (value, ← word name.toList text)

mutual

/-- A value in front of a text. `fuel` bounds the number of steps, of which a character takes at
most two. -/
def value : (fuel : Nat) → List Char → Except SyntaxFault (Json × List Char)
  | 0, text => refuse .unexpected text
  | fuel + 1, text =>
    match skipSpace text with
    | '"' :: rest => do
      let (characters, rest) ← stringBody none [] rest
      return (.string (String.ofList characters), rest)
    | '[' :: rest =>
      match skipSpace rest with
      | ']' :: rest => .ok (.array [], rest)
      | rest => do
        let (items, rest) ← items fuel rest
        return (.array items, rest)
    | '\x7b' :: rest =>
      match skipSpace rest with
      | '\x7d' :: rest => .ok (.object [], rest)
      | rest => do
        let (members, rest) ← members fuel .nameOrBrace [] rest
        return (.object members, rest)
    | 't' :: rest => literal "true" (.bool true) ('t' :: rest)
    | 'f' :: rest => literal "false" (.bool false) ('f' :: rest)
    | 'n' :: rest => literal "null" .null ('n' :: rest)
    | text => do
      let (value, rest) ← number text
      return (.number value, rest)

/-- The items of an array up to its closing bracket. -/
def items : (fuel : Nat) → List Char → Except SyntaxFault (List Json × List Char)
  | 0, text => refuse .unexpected text
  | fuel + 1, text => do
    let (item, rest) ← value fuel text
    match skipSpace rest with
    | ',' :: rest => do
      let (items, rest) ← items fuel rest
      return (item :: items, rest)
    | ']' :: rest => return ([item], rest)
    | rest => refuse .commaOrBracket rest

/-- The members of an object up to its closing brace, after the members `done`. Where no name
follows, that is the fault `missing`. -/
def members : (fuel : Nat) → (missing : SyntaxCause) → (done : Members) → List Char →
    Except SyntaxFault (Members × List Char)
  | 0, _, _, text => refuse .unexpected text
  | fuel + 1, missing, done, text =>
    match skipSpace text with
    | '"' :: rest => do
      let (name, rest) ← stringBody none [] rest
      match skipSpace rest with
      | ':' :: rest => do
        let (value, rest) ← value fuel rest
        let done := Members.set done (String.ofList name) value
        match skipSpace rest with
        | ',' :: rest => members fuel .name done rest
        | '\x7d' :: rest => return (done, rest)
        | rest => refuse .commaOrBrace rest
      | rest => refuse .colon rest
    | rest => refuse missing rest

end

end Parser

/-- The value that a text writes. -/
def parse (text : List Char) : Except SyntaxFault Json := do
  let (value, rest) ← Parser.value (2 * text.length + 2) text
  match Parser.skipSpace rest with
  | [] => return value
  | rest => .error ⟨.afterValue, rest⟩

end PgpInspect.Json
