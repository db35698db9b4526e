import PgpInspect.Fault
import PgpInspect.Key
import PgpInspect.Text.Base64
import PgpInspect.Text.Blank
import PgpInspect.Text.LowerCase
import PgpInspect.Text.Split

/-!
# Autocrypt headers

The value of an `Autocrypt` mail header is a list of attributes `name=value` with semicolons
between. The address and the key are required, a preference about encryption is optional, and other
attributes are allowed only if their names begin with an underscore.
-/

namespace PgpInspect

/-- The preference of a sender about encryption. -/
inductive PreferEncrypt where
  /-- Both sides want it. -/
  | wanted
  /-- None. -/
  | noPreference
  deriving DecidableEq

/-- What an Autocrypt header says. -/
structure AutocryptHeader where
  /-- The address. -/
  addr : String
  /-- The preference. -/
  preferEncrypt : PreferEncrypt
  /-- The key. -/
  keydata : Octets

/-- Why a text is no Autocrypt header. -/
inductive AutocryptFault where
  /-- A part is no attribute. -/
  | malformed (part : String)
  /-- A name occurs twice. -/
  | duplicate (name : String)
  /-- A name is neither known nor optional. -/
  | unknown (name : String)
  /-- The address is missing or empty. -/
  | addrMissing
  /-- The key is missing, empty or not in base64. -/
  | keydataUnusable
  deriving DecidableEq

namespace AutocryptFault

/-- The wording of a fault. -/
def message : AutocryptFault → String
  | malformed _ => "Malformed Autocrypt attribute"
  | duplicate _ => "Duplicate Autocrypt attribute"
  | unknown _ => "Unknown critical Autocrypt attribute"
  | addrMissing => "Autocrypt header has no addr"
  | keydataUnusable => "Autocrypt header has no usable keydata"

/-- The details of a fault. -/
def context? : AutocryptFault → Option Members
  | malformed part => some [("attribute", .string part)]
  | duplicate name => some [("attribute", .string name)]
  | unknown name => some [("attribute", .string name)]
  | addrMissing => none
  | keydataUnusable => none

/-- The report of a fault. -/
def toFault (fault : AutocryptFault) : Fault :=
  ⟨.general, fault.message, "INVALID_AUTOCRYPT_HEADER", 400, fault.context?⟩

end AutocryptFault

namespace AutocryptHeader

/-- A name in lower case and a value. -/
abbrev Attribute := List Char × List Char

/-- The attribute that a part without blanks around it writes: it is split at the first `=`, which
may not come first. -/
def attribute? (part : List Char) : Option Attribute :=
  match part.dropWhile (· != '=') with
  | '=' :: value =>
    let name := part.takeWhile (· != '=')
    if name.isEmpty then none else some (Text.lower (Text.trim name), Text.trim value)
  | _ => none

/-- The value of the attribute `name`. -/
def lookup (attributes : List Attribute) (name : List Char) : Option (List Char) :=
  (attributes.find? fun entry => entry.1 == name).map (·.2)

/-- The attributes that parts write, in order after `done`. Parts without content are passed
over. -/
def attributesOf (done : List Attribute) :
    (parts : List (List Char)) → Except AutocryptFault (List Attribute)
  | [] => .ok done
  | part :: rest =>
    let part := Text.trim part
    if part.isEmpty then attributesOf done rest
    else
      match attribute? part with
      | none => .error (.malformed (String.ofList part))
      | some (name, value) =>
        if (lookup done name).isSome then .error (.duplicate (String.ofList name))
        else attributesOf (done ++ [(name, value)]) rest

/-- The names that have a meaning. -/
def knownNames : List (List Char) := ["addr".toList, "prefer-encrypt".toList, "keydata".toList]

/-- Whether an attribute may occur. -/
def isAllowed (name : List Char) : Bool := knownNames.contains name || name.head? == some '_'

/-- Whether a text without blanks is base64: at least one character of the alphabet and up to two
`=` at the end. -/
def isBase64 (text : List Char) : Bool :=
  let padding := text.dropWhile Text.Base64.isAlphabet
  (text.head?.map Text.Base64.isAlphabet).getD false && padding.length ≤ 2 &&
    padding.all (· == '=')

/-- The header that a list of attributes makes. -/
def ofAttributes (attributes : List Attribute) : Except AutocryptFault AutocryptHeader :=
  match attributes.find? fun entry => !isAllowed entry.1 with
  | some entry => .error (.unknown (String.ofList entry.1))
  | none =>
    let addr := (lookup attributes "addr".toList).getD []
    let keydata := Text.withoutBlanks ((lookup attributes "keydata".toList).getD [])
    if addr.isEmpty then .error .addrMissing
    else if !isBase64 keydata then .error .keydataUnusable
    else
      .ok {
        addr := String.ofList addr
        preferEncrypt :=
          if lookup attributes "prefer-encrypt".toList = some "mutual".toList then .wanted
          else .noPreference
        keydata := Text.Base64.decode keydata
      }

/-- Reads the value of an Autocrypt header. -/
def parse (text : List Char) : Except AutocryptFault AutocryptHeader := do
  ofAttributes (← attributesOf [] (Text.split ';' text))

/-- The origin of claims that come from Autocrypt headers. -/
def defaultOrigin : String := "Autocrypt"

/-- The claim that a header makes. -/
def claim (header : AutocryptHeader) (origin : String) : IdentityClaim := ⟨header.addr, origin⟩

end AutocryptHeader

end PgpInspect
