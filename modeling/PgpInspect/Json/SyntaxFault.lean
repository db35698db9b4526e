import PgpInspect.Text.Units

/-!
# Faults of JSON texts

Why a text is not JSON: what is wrong, and what is left of the text at the place where reading
stopped. A report names the place by the number of 16-bit units in front of it, or quotes the text
around it.
-/

namespace PgpInspect.Json

/-- What can be wrong with a JSON text. -/
inductive SyntaxCause where
  /-- Nothing of the grammar begins with what is left. -/
  | unexpected
  /-- Something follows the value. -/
  | afterValue
  /-- An opening brace is followed neither by a name nor by a closing one. -/
  | nameOrBrace
  /-- A comma between members is not followed by a name. -/
  | name
  /-- A name is not followed by a colon. -/
  | colon
  /-- An item is followed neither by a comma nor by a closing bracket. -/
  | commaOrBracket
  /-- A member is followed neither by a comma nor by a closing brace. -/
  | commaOrBrace
  /-- A string literal does not end. -/
  | unterminatedString
  /-- A string literal has a control character. -/
  | controlCharacter
  /-- A backslash is followed by a character that no escape has. -/
  | escape
  /-- An escape by a number does not have four hexadecimal digits. -/
  | unicodeEscape
  /-- A minus sign is not followed by a digit. -/
  | digitAfterMinus
  /-- A point is not followed by a digit. -/
  | fraction
  /-- An exponent has no digit. -/
  | exponent
  deriving DecidableEq

/-- A fault of a JSON text. -/
structure SyntaxFault where
  /-- What is wrong. -/
  cause : SyntaxCause
  /-- What is left of the text. -/
  rest : List Char
  deriving DecidableEq

namespace SyntaxCause

/-- The wording of a cause that is reported with its place. -/
def wording : SyntaxCause → String
  | unexpected => "Unexpected number in JSON"
  | afterValue => "Unexpected non-whitespace character after JSON"
  | nameOrBrace => "Expected property name or '\x7d' in JSON"
  | name => "Expected double-quoted property name in JSON"
  | colon => "Expected ':' after property name in JSON"
  | commaOrBracket => "Expected ',' or ']' after array element in JSON"
  | commaOrBrace => "Expected ',' or '\x7d' after property value in JSON"
  | unterminatedString => "Unterminated string in JSON"
  | controlCharacter => "Bad control character in string literal in JSON"
  | escape => "Bad escaped character in JSON"
  | unicodeEscape => "Bad Unicode escape in JSON"
  | digitAfterMinus => "No number after minus sign in JSON"
  | fraction => "Unterminated fractional number in JSON"
  | exponent => "Exponent part is missing a number in JSON"

end SyntaxCause

namespace SyntaxFault

/-- The line and the column behind a text, which begins in the given ones. Both count from one, and
a carriage return with a line feed ends one line. -/
def placeAfter (line column : Nat) : (text : List Char) → Nat × Nat
  | [] => (line, column)
  | '\r' :: '\n' :: rest => placeAfter (line + 1) 1 rest
  | c :: rest =>
    if c = '\r' ∨ c = '\n' then placeAfter (line + 1) 1 rest
    else placeAfter line (column + (Text.units c).length) rest

/-- The text of `source` in front of the place of a fault. -/
def textBefore (fault : SyntaxFault) (source : List Char) : List Char :=
  source.take (source.length - fault.rest.length)

/-- The place of a fault in `source`. -/
def place (fault : SyntaxFault) (source : List Char) : String :=
  let before := fault.textBefore source
  let (line, column) := placeAfter 1 1 before
  " at position " ++ toString (Text.unitCount before) ++ " (line " ++ toString line ++ " column " ++
    toString column ++ ")"

/-- The number of units on each side of a place that are quoted of a longer text. -/
def quotedUnits : Nat := 10

/-- What is quoted of `source` around a place with `before` in front of it: all of a short text,
else at most ten units on each side, with dots where something is left out. -/
def quotation (before source : List Char) : String :=
  let position := Text.unitCount before
  let length := Text.unitCount source
  let quoted (text : List Char) : String := "\"" ++ String.ofList text ++ "\""
  let fromPlace := Text.dropUnits (position - quotedUnits) source
  if length ≤ 2 * quotedUnits then quoted source
  else if position < quotedUnits then
    quoted (Text.takeUnits (position + quotedUnits) source) ++ "..."
  else if position + quotedUnits < length then
    "..." ++ quoted (Text.takeUnits (2 * quotedUnits) fromPlace) ++ "..."
  else "..." ++ quoted fromPlace

/-- The words that are reported as such if they are all of a text. -/
def bareWords : List String := ["Infinity", "NaN", "undefined", "[object Object]"]

/-- The report of a character that is out of place in `source`. -/
def unexpectedMessage (fault : SyntaxFault) (source : List Char) : String :=
  match fault.rest with
  | [] => "Unexpected end of JSON input"
  | c :: _ =>
    if c = '"' then "Unexpected string in JSON" ++ fault.place source
    else if c.isDigit ∨ c = '-' then "Unexpected number in JSON" ++ fault.place source
    else if bareWords.contains (String.ofList source) then
      "\"" ++ String.ofList source ++ "\" is not valid JSON"
    else
      "Unexpected token '" ++ String.ofList (Text.takeUnits 1 [c]) ++ "', " ++
        quotation (fault.textBefore source) source ++ " is not valid JSON"

/-- The report of a fault of `source`. -/
def message (fault : SyntaxFault) (source : List Char) : String :=
  match fault.cause, fault.rest with
  | .unexpected, _ => fault.unexpectedMessage source
  | .escape, [] => fault.unexpectedMessage source
  | cause, _ => cause.wording ++ fault.place source

end SyntaxFault

end PgpInspect.Json
