import PgpInspect.Text.Digit
import PgpInspect.Text.Split

/-!
# Text patterns

The patterns that schemas ask of texts. Each has a recogniser (`Pattern.accepts`) and the source of
a regular expression for the same texts, which is shown to whoever sent another text.
-/

namespace PgpInspect

/-- A pattern that a text may have to match. -/
inductive Pattern where
  /-- Capability letters, and after a `+` those of subkeys. -/
  | capabilities
  /-- The origin of a claim: anything without parentheses. -/
  | origin
  /-- A version of three numbers. -/
  | version
  /-- An email address. -/
  | email
  /-- A date and time with an offset from UTC. -/
  | dateTime
  deriving DecidableEq

namespace Pattern

/-- The name of the format that a pattern describes. -/
def format : Pattern → String
  | capabilities => "regex"
  | origin => "regex"
  | version => "regex"
  | email => "email"
  | dateTime => "datetime"

/-- The regular expression for the date: the last day of February in a leap year, or a day that
every year has. -/
def dateSource : String :=
  "(?:(?:\\d\\d[2468][048]|\\d\\d[13579][26]|\\d\\d0[48]|[02468][048]00|[13579][26]00)-02-29|" ++
  "\\d\x7b4\x7d-(?:(?:0[13578]|1[02])-(?:0[1-9]|[12]\\d|3[01])|" ++
  "(?:0[469]|11)-(?:0[1-9]|[12]\\d|30)|(?:02)-(?:0[1-9]|1\\d|2[0-8])))"

/-- The regular expression for the time and the offset. -/
def timeSource : String :=
  "(?:(?:[01]\\d|2[0-3]):[0-5]\\d:[0-5]\\d(?:\\.\\d+)?(?:Z|([+-](?:[01]\\d|2[0-3]):[0-5]\\d)))"

/-- The regular expression of a pattern, between slashes. -/
def source : Pattern → String
  | capabilities => "/^[acse]*(\\+[acse]+)?$/"
  | origin => "/^[^()]+$/"
  | version => "/^\\d+\\.\\d+\\.\\d+$/"
  | email =>
    "/^(?:[A-Za-z0-9_'+\\-]+\\.)*[A-Za-z0-9_'+\\-]*[A-Za-z0-9_+-]@" ++
    "(?:[A-Za-z0-9][A-Za-z0-9\\-]*\\.)+[A-Za-z]\x7b2,\x7d$/"
  | dateTime => "/^" ++ dateSource ++ "T" ++ timeSource ++ "$/"

/-- The capability letters. -/
def isCapability (c : Char) : Bool := c == 'a' || c == 'c' || c == 's' || c == 'e'

/-- Letters, and then perhaps a `+` with more letters. -/
def isCapabilities (text : List Char) : Bool :=
  match text.dropWhile isCapability with
  | [] => true
  | '+' :: letters => !letters.isEmpty && letters.all isCapability
  | _ => false

/-- At least one character, none of them a parenthesis. -/
def isOrigin (text : List Char) : Bool := !text.isEmpty && text.all fun c => c != '(' && c != ')'

/-- Three numerals with points between. -/
def isVersion (text : List Char) : Bool :=
  let parts := Text.split '.' text
  parts.length == 3 && parts.all Text.isNumeral

/-- The characters in front of the `@` of an email address, points apart. -/
def isLocalChar (c : Char) : Bool :=
  c.isAlphanum || c == '_' || c == '\'' || c == '+' || c == '-'

/-- The part in front of the `@`: words with points between, of which the last does not end in an
apostrophe. -/
def isLocalPart (text : List Char) : Bool :=
  (Text.split '.' text).all (fun word => !word.isEmpty && word.all isLocalChar) &&
    text.getLast? != some '\''

/-- A label of a domain that is not the last: a letter or digit, then also hyphens. -/
def isLabel : (label : List Char) → Bool
  | [] => false
  | first :: rest => first.isAlphanum && rest.all fun c => c.isAlphanum || c == '-'

/-- At least two labels, of which the last has at least two letters and nothing else. -/
def isDomain (text : List Char) : Bool :=
  match (Text.split '.' text).reverse with
  | last :: label :: labels =>
    (label :: labels).all isLabel && 2 ≤ last.length && last.all Char.isAlpha
  | _ => false

/-- An email address. -/
def isEmail (text : List Char) : Bool :=
  match Text.split '@' text with
  | [localPart, domain] => isLocalPart localPart && isDomain domain
  | _ => false

/-- Whether digits write a number from `low` to `high`. -/
def isBetween (low high : Nat) (digits : List Char) : Bool :=
  match Text.natInBase? 10 digits with
  | some value => low ≤ value && value ≤ high
  | none => false

/-- Whether a year has a 29th of February. -/
def isLeapYear (year : Nat) : Bool := year % 4 == 0 && (year % 100 != 0 || year % 400 == 0)

/-- The number of days of a month. -/
def daysOfMonth (year month : Nat) : Nat :=
  if month = 2 then if isLeapYear year then 29 else 28
  else if month = 4 ∨ month = 6 ∨ month = 9 ∨ month = 11 then 30
  else 31

/-- A day of the calendar. -/
def isDate (year month day : List Char) : Bool :=
  match Text.natInBase? 10 year, Text.natInBase? 10 month with
  | some y, some m => isBetween 1 12 month && isBetween 1 (daysOfMonth y m) day
  | _, _ => false

/-- The offset from UTC: `Z`, or hours and minutes after a sign. -/
def isOffset : (text : List Char) → Bool
  | ['Z'] => true
  | [sign, h, h', ':', m, m'] =>
    (sign == '+' || sign == '-') && isBetween 0 23 [h, h'] && isBetween 0 59 [m, m']
  | _ => false

/-- An offset, perhaps after a point and decimals of the second. -/
def isFractionAndOffset : (text : List Char) → Bool
  | '.' :: rest =>
    !(rest.takeWhile Char.isDigit).isEmpty && isOffset (rest.dropWhile Char.isDigit)
  | text => isOffset text

/-- A date and time with an offset from UTC. -/
def isDateTime : (text : List Char) → Bool
  | y :: y' :: y'' :: y''' :: '-' :: m :: m' :: '-' :: d :: d' :: 'T' ::
      h :: h' :: ':' :: n :: n' :: ':' :: s :: s' :: rest =>
    isDate [y, y', y'', y'''] [m, m'] [d, d'] && isBetween 0 23 [h, h'] &&
      isBetween 0 59 [n, n'] && isBetween 0 59 [s, s'] && isFractionAndOffset rest
  | _ => false

/-- Whether a text has the pattern. -/
def accepts : Pattern → (text : List Char) → Bool
  | capabilities => isCapabilities
  | origin => isOrigin
  | version => isVersion
  | email => isEmail
  | dateTime => isDateTime

end Pattern

end PgpInspect
