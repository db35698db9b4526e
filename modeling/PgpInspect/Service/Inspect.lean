import PgpInspect.Autocrypt
import PgpInspect.Description
import PgpInspect.Http.Request
import PgpInspect.Http.Response
import PgpInspect.Inspection
import PgpInspect.Log.Logger
import PgpInspect.Schema.Catalog
import PgpInspect.Service.RequestBody

/-!
# The inspection operations

Two operations inspect key data: one takes it from the request, the other from an Autocrypt header
in the request. Both answer with the descriptions of the keys.
-/

namespace PgpInspect

namespace Service

open Http

/-- A response with what is logged on the way to it. -/
structure Reply where
  /-- The response. -/
  response : Response
  /-- What is logged. -/
  entries : List LogEntry

/-- What a request needs of its surroundings. -/
structure Surroundings where
  /-- An identifier for a request that brings none. -/
  requestId : String
  /-- The current date and time. -/
  timestamp : String
  /-- The current time in seconds since the epoch. -/
  now : Binary64
  /-- How long the reply took. -/
  elapsed : String

/-- How key data is written in a request. -/
inductive KeyEncoding where
  /-- As armored text. -/
  | armored
  /-- As octets in base64. -/
  | base64
  deriving DecidableEq

/-- What both operations take besides key data. -/
structure InspectOptions where
  /-- The claim about an identity of the keys. -/
  claim : Option IdentityClaim
  /-- Whether summaries show whole fingerprints. -/
  fullFingerprint : Bool
  /-- The time of the inspection. -/
  now : Binary64

/-- An entry of the request `requestId`. -/
def entry (requestId : String) (severity : Severity) (message : String) (context : Members) :
    LogEntry :=
  ⟨severity, message, Members.merge [("requestId", .string requestId)] context⟩

/-- What is found in key data, as a reply has it. -/
def inspectionJson (inspection : Inspection) (fullFingerprint : Bool) (now : Binary64) : Json :=
  .object
    [ ("parseable", .bool inspection.parseable),
      ("keys", .array (inspection.keys.map fun key =>
        (key.describe fullFingerprint now).toJson)) ]

/-- The reply to the inspection of key data. `done` and `action` say in the log what was done. -/
def inspect (requestId done action : String) (data : KeyData) (options : InspectOptions) : Reply :=
  let inspection := inspectKeyData data options.now options.claim
  let found := inspection.entries.map fun found =>
    entry requestId found.severity found.message found.context
  { response :=
      .ofJson 200 (inspectionJson inspection options.fullFingerprint options.now)
    entries := found ++
      [ entry requestId .info done
          [ ("action", .string action), ("parseable", .bool inspection.parseable),
            ("keys", .nat inspection.keys.length) ] ] }

/-- The reply to a request that cannot be inspected. -/
def refuse (requestId code message : String) : Response :=
  .ofJson 400 (.object
    [ ("error", .string message), ("code", .string code), ("requestId", .string requestId) ])

/-- Whether a text can be read as base64: characters of the alphabet and blanks, then up to two `=`,
then blanks. -/
def isBase64Text (text : List Char) : Bool :=
  let isContent (c : Char) : Bool := Text.Base64.isAlphabet c || Text.isBlank c
  let afterContent := text.dropWhile isContent
  !(text.takeWhile isContent).isEmpty && (afterContent.takeWhile (· == '=')).length ≤ 2 &&
    (afterContent.dropWhile (· == '=')).all Text.isBlank

/-- A request to inspect key data. -/
structure InspectKeyRequest where
  /-- The key data. -/
  keyData : String
  /-- How it is written. -/
  encoding : KeyEncoding
  /-- Everything else. -/
  options : InspectOptions

namespace InspectKeyRequest

/-- The claim in a request that the schema admits. Its origin is that of Autocrypt headers unless
another is given. -/
def claimOfJson (json : Json) : IdentityClaim :=
  ⟨json.text "email", (json.text? "origin").getD AutocryptHeader.defaultOrigin⟩

/-- The request that a value admitted by the schema writes. -/
def ofJson (now : Binary64) (json : Json) : InspectKeyRequest :=
  { keyData := json.text "keyData"
    encoding := if json.text "encoding" = "base64" then .base64 else .armored
    options :=
      { claim := (json.get? "claim").map claimOfJson
        fullFingerprint := (json.bool? "fullFingerprint").getD false
        now := (json.number? "now").getD now } }

/-- The key data of a request, nothing if it cannot be read. -/
def data? (request : InspectKeyRequest) : Option KeyData :=
  let text := request.keyData.toList
  match request.encoding with
  | .armored => some (.text text)
  | .base64 =>
    if isBase64Text text then some (.octets (Text.Base64.decode (Text.withoutBlanks text)))
    else none

/-- The reply to a request. -/
def reply (requestId : String) (request : InspectKeyRequest) : Reply :=
  match request.data? with
  | some data => inspect requestId "Key material inspected" "inspect" data request.options
  | none =>
    { response := refuse requestId "INVALID_REQUEST" "keyData is not valid base64"
      entries :=
        [entry requestId .warn "Rejected key data" [("reason", .string "invalid base64")]] }

end InspectKeyRequest

/-- A request to inspect the key in an Autocrypt header. -/
structure InspectAutocryptRequest where
  /-- The value of the header. -/
  header : String
  /-- Whether summaries show whole fingerprints. -/
  fullFingerprint : Bool
  /-- The time of the inspection. -/
  now : Binary64

namespace InspectAutocryptRequest

/-- The request that a value admitted by the schema writes. -/
def ofJson (now : Binary64) (json : Json) : InspectAutocryptRequest :=
  { header := json.text "header"
    fullFingerprint := (json.bool? "fullFingerprint").getD false
    now := (json.number? "now").getD now }

/-- The reply to a request. -/
def reply (requestId : String) (request : InspectAutocryptRequest) : Reply :=
  match AutocryptHeader.parse request.header.toList with
  | .ok header =>
    inspect requestId "Autocrypt key inspected" "inspect-autocrypt" (.octets header.keydata)
      { claim := some (header.claim AutocryptHeader.defaultOrigin)
        fullFingerprint := request.fullFingerprint
        now := request.now }
  | .error fault =>
    let report := fault.toFault
    let reason : Members := [("reason", .string report.message)]
    { response := refuse requestId report.code report.message
      entries :=
        [ entry requestId .warn "Rejected Autocrypt header"
            (reason.merge (report.context.getD [])) ] }

end InspectAutocryptRequest

end Service

end PgpInspect
