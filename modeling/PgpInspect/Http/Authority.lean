import PgpInspect.Text.Percent
import PgpInspect.Text.Search
import PgpInspect.Text.Split

/-!
# Authorities

The part of a locator between its scheme and its path: credentials in front of the last `@`, a host,
and a port after a colon. A host is a name or an address. A name may hold escapes but no character
that ends or divides an authority; one whose last label is a number is an address of version 4, and
what stands in brackets is one of version 6.
-/

namespace PgpInspect.Http

/-- An authority, taken apart. -/
structure Authority where
  /-- What stands in front of the last `@`, nothing without one. -/
  credentials : List Char
  /-- The host. -/
  host : List Char
  /-- The port, nothing without one. -/
  port : List Char

namespace Authority

/-- The parts of an authority. The colon in front of a port is the first one outside of
brackets. -/
def ofText (text : List Char) : Authority :=
  let hostAndPort := (text.reverse.takeWhile (· != '@')).reverse
  let credentials := text.take (text.length - hostAndPort.length - 1)
  let bracketed :=
    if hostAndPort.head? = some '[' then hostAndPort.takeWhile (· != ']') else []
  let named := (hostAndPort.drop bracketed.length).takeWhile (· != ':')
  let host := bracketed ++ named
  { credentials, host, port := hostAndPort.drop (host.length + 1) }

/-- Whether there is a user name or a password. -/
def hasCredentials (authority : Authority) : Bool :=
  !authority.credentials.isEmpty && authority.credentials != [':']

/-- Whether a text is a port: digits for a number below `2 ^ 16`, or nothing. -/
def isPort (text : List Char) : Bool :=
  text.isEmpty ||
    match Text.natInBase? 10 text with
    | some port => port < 0x10000
    | none => false

/-- The number that a part of an address of version 4 writes: in base 16 after `0x`, in base 8 after
`0`, else in base 10. -/
def addressPart? (text : List Char) : Option Nat :=
  match text with
  | ['0', 'x'] | ['0', 'X'] => some 0
  | '0' :: 'x' :: digits | '0' :: 'X' :: digits => Text.natInBase? 16 digits
  | '0' :: digit :: digits => Text.natInBase? 8 (digit :: digits)
  | digits => Text.natInBase? 10 digits

/-- The labels of a name, without the empty one behind a point at its end. -/
def labels (name : List Char) : List (List Char) :=
  let all := Text.split '.' name
  if 1 < all.length ∧ all.getLast? = some [] then all.dropLast else all

/-- Whether the last label of a name is a number, if perhaps a wrong one. -/
def endsInNumber (name : List Char) : Bool :=
  match (labels name).getLast? with
  | some last =>
    Text.isNumeral last || ((last.take 2 == ['0', 'x'] || last.take 2 == ['0', 'X']) &&
      (addressPart? last).isSome)
  | none => false

/-- Whether a name is an address of version 4: at most four numbers, of which the last one fills
what the others, which are octets, leave of 32 bits. -/
def isAddress4 (name : List Char) : Bool :=
  let parts := labels name
  match (parts.mapM addressPart?).map List.reverse with
  | some (last :: others) =>
    parts.length ≤ 4 && others.all (· < 0x100) && last < Nat.pow 0x100 (5 - parts.length)
  | _ => false

/-- Whether a text is four octets in decimal, without leading zeros, with points between. -/
def isDotted (text : List Char) : Bool :=
  let parts := Text.split '.' text
  parts.length == 4 && parts.all fun part =>
    (part.length == 1 || part.head? != some '0') &&
      match Text.natInBase? 10 part with
      | some octet => octet < 0x100
      | none => false

/-- The number of 16-bit groups that a text with colons between them writes. The last two may be
written as four octets. -/
def groupCount? (mayEndDotted : Bool) (text : List Char) : Option Nat :=
  let isGroup (part : List Char) : Bool := part.length ≤ 4 && (Text.natInBase? 16 part).isSome
  if text.isEmpty then some 0
  else
    match (Text.split ':' text).reverse with
    | last :: others =>
      if !others.all isGroup then none
      else if isGroup last then some (others.length + 1)
      else if mayEndDotted && isDotted last then some (others.length + 2)
      else none
    | [] => none

/-- Whether a text is an address of version 6: eight groups, or fewer around two colons. -/
def isAddress6 (text : List Char) : Bool :=
  match Text.before? [':', ':'] text with
  | none => groupCount? true text == some 8
  | some before =>
    match groupCount? false before, groupCount? true (text.drop (before.length + 2)) with
    | some front, some back => front + back ≤ 7
    | _, _ => false

/-- The characters that no name has. -/
def isForbidden (c : Char) : Bool :=
  c.toNat ≤ 0x20 || c.toNat = 0x7F || c == '\uFFFD' || "#/:<>?@[\\]^|%".toList.contains c

/-- Whether a text is a host. -/
def isHost (text : List Char) : Bool :=
  match text with
  | '[' :: address => address.getLast? == some ']' && isAddress6 address.dropLast
  | text =>
    let name := Text.Percent.decodeAll text
    !name.isEmpty && !name.any isForbidden && (!endsInNumber name || isAddress4 name)

/-- Whether an authority has a host, and a port if any is written. -/
def isValid (authority : Authority) : Bool := isHost authority.host && isPort authority.port

end Authority

end PgpInspect.Http
