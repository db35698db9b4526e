import PgpInspect.Key
import PgpInspect.Schema

/-!
# The schemas of the service

What requests may hold and what replies do hold.
-/

namespace PgpInspect

/-- Fields from a list. -/
def Fields.ofList : List (String × Presence × Schema) → Fields
  | [] => .nil
  | (name, presence, schema) :: rest => .cons name presence schema (Fields.ofList rest)

namespace Schema

/-- An object with the listed fields. -/
def object (fields : List (String × Presence × Schema)) : Schema := .record (Fields.ofList fields)

/-- Any text. -/
def anyText : Schema := .text []

/-- Capability letters. -/
def capabilities : Schema :=
  .text [.matching .capabilities "Capabilities must be letters from c, s, e, a"]

/-- The code of a validity. -/
def validity : Schema := .choice (Validity.all.map Validity.code)

/-- The codes of faults. -/
def faultCodes : List String :=
  [ "INVALID_REQUEST", "INVALID_AUTOCRYPT_HEADER", "PAYLOAD_TOO_LARGE", "PACKET_DECODE_ERROR",
    "PACKET_FIELD_ERROR", "CONFIG_ERROR", "NOT_FOUND", "INTERNAL_ERROR" ]

/-- The code of a fault. -/
def faultCode : Schema := .choice faultCodes

/-- A reply about a fault. -/
def errorReply : Schema :=
  object
    [ ("error", .required, .text [.atLeast 1 (some "Error message cannot be empty")]),
      ("code", .required, faultCode),
      ("requestId", .optional, anyText) ]

/-- A date and time with an offset from UTC. -/
def timestamp : Schema :=
  .formatted .dateTime "Must be valid ISO8601 timestamp with timezone"

/-- A reply about the state of the service. -/
def health : Schema :=
  object
    [ ("status", .required, .constant "healthy"),
      ("timestamp", .required, timestamp),
      ("version", .required, .text [.matching .version "Must be semantic version"]) ]

/-- The greatest number of characters of the origin of a claim. -/
def maxOriginLength : Nat := 64

/-- A claim in a request. -/
def identityClaim : Schema :=
  object
    [ ("email", .required, .formatted .email "Claim email must be a valid address"),
      ("origin", .optional,
        .text
          [ .atLeast 1 none, .atMost maxOriginLength,
            .matching .origin "Origin cannot contain parentheses" ]) ]

/-- A request to inspect key data. -/
def inspectKeyRequest : Schema :=
  object
    [ ("keyData", .required, .text [.atLeast 1 (some "keyData cannot be empty")]),
      ("encoding", .byDefault (.string "armored"), .choice ["armored", "base64"]),
      ("claim", .optional, identityClaim),
      ("fullFingerprint", .byDefault (.bool false), .boolean),
      ("now", .optional, .natural) ]

/-- A request to inspect the key in an Autocrypt header. -/
def inspectAutocryptRequest : Schema :=
  object
    [ ("header", .required, .text [.atLeast 1 none]),
      ("fullFingerprint", .byDefault (.bool false), .boolean),
      ("now", .optional, .natural) ]

/-- The headers of a request. -/
def requestHeaders : Schema := object [("X-Request-ID", .optional, .text [.atMost 128])]

/-- What a reply says about a primary key or a subkey. -/
def keyFacts : List (String × Presence × Schema) :=
  [ ("fingerprint", .required, anyText),
    ("capabilities", .required, capabilities),
    ("keytypeName", .required, anyText),
    ("keytypeCode", .required, .integer),
    ("keysize", .required, .integer),
    ("created", .required, .integer),
    ("expires", .required, .integer),
    ("validity", .required, validity),
    ("expired", .required, .boolean),
    ("usable", .required, .boolean),
    ("canEncrypt", .required, .boolean),
    ("canSign", .required, .boolean),
    ("summary", .required, anyText) ]

/-- A subkey in a reply. -/
def subkey : Schema := object keyFacts

/-- An identity in a reply. -/
def identity : Schema :=
  object
    [ ("name", .required, anyText), ("email", .required, anyText), ("comment", .required, anyText),
      ("display", .required, anyText) ]

/-- A primary key in a reply. -/
def key : Schema :=
  object (keyFacts ++
    [ ("onKeychain", .required, .boolean),
      ("uids", .required, .list identity),
      ("subkeys", .required, .list subkey) ])

/-- A reply about key data. -/
def inspectionReply : Schema :=
  object [("parseable", .required, .boolean), ("keys", .required, .list key)]

end Schema

end PgpInspect
