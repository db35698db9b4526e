import PgpInspect.Service.Access
import PgpInspect.Service.ErrorReply
import PgpInspect.Service.Inspect

/-!
# The HTTP service

`Service.respond` is the reply to a request. Around the operation that the method and the path name
it logs the request and the status, limits the size of bodies, and adds the header fields that all
replies have. Another method or path than those of an operation is not found.
-/

namespace PgpInspect.Service

open Http

/-- The version of the service. -/
def version : String := "1.0.0"

/-- The operations of the service. -/
inductive Operation where
  /-- Tell the state of the service. -/
  | health
  /-- Describe the service to programs. -/
  | apiDescription
  /-- Document the service for people. -/
  | documentation
  /-- Inspect key data. -/
  | inspectKey
  /-- Inspect the key in an Autocrypt header. -/
  | inspectAutocrypt
  deriving DecidableEq

/-- The operation that a method and a path name. What can be got can also be asked about. -/
def operation? (method path : String) : Option Operation :=
  match if method = "HEAD" then "GET" else method, path with
  | "GET", "/health" => some .health
  | "GET", "/doc" => some .apiDescription
  | "GET", "/ui" => some .documentation
  | "POST", "/keys/inspect" => some .inspectKey
  | "POST", "/autocrypt/inspect" => some .inspectAutocrypt
  | _, _ => none

/-- Whether the bodies of requests for a path are limited. -/
def isLimited (path : String) : Bool :=
  ["/keys", "/autocrypt"].any fun root =>
    path = root || (root ++ "/").toList.isPrefixOf path.toList

/-- A response without entries. -/
def quiet (response : Response) : Reply := ⟨response, []⟩

/-- The reply about the state of the service. -/
def healthReply (timestamp : String) : Response :=
  .ofJson 200 (.object
    [ ("status", .string "healthy"), ("timestamp", .string timestamp),
      ("version", .string version) ])

/-- The reply to a request that names no operation. -/
def notFound : Response :=
  .ofJson 404 (.object [("error", .string "Not found"), ("code", .string "NOT_FOUND")])

/-- The reply that issues with a request make. -/
def invalid (issues : List Issue) : Response :=
  .ofJson 400 (.object
    [ ("error", .string "Validation failed"), ("code", .string "INVALID_REQUEST"),
      ("issues", .array (issues.map Issue.toJson)) ])

/-- A reply about a fault as a reply. -/
def ErrorReply.toReply (reply : ErrorReply) : Reply :=
  ⟨.ofJson reply.status reply.body, reply.entries⟩

/-- The reply to a request whose handling failed for a reason that was not foreseen. -/
def failed (requestId message : String) : Reply :=
  (ErrorReply.ofThrown (.exception "Error" message) "Internal server error" "INTERNAL_ERROR"
    (some requestId)).toReply

/-- The reply to a request with a body that is refused. -/
def refusedBody (requestId : String) : BodyRefusal → Reply
  | .unsupportedMediaType => failed requestId "Unsupported Media Type"
  | .malformedJson => failed requestId "Malformed JSON in request body"
  | .invalid issues => quiet (invalid issues)

/-- The reply to a request with a body beyond the limit. -/
def tooLarge (config : Config) (requestId : String) : Reply :=
  (ErrorReply.make "Key data too large" "PAYLOAD_TOO_LARGE" 413 (some requestId)
    (some [("maxSize", .nat config.maxKeyDataBytes)])).toReply

/-- The header fields of a request that a schema describes. -/
def describedHeaders (request : Request) : Json :=
  .object (Members.ofOption requestIdField ((request.headers.get? requestIdField).map .string))

/-- The body of a request as a schema admits it, after the header fields have been checked. -/
def admittedBody (schema : Schema) (request : Request) : Except BodyRefusal Json := do
  let _ ← meetsSchema Schema.requestHeaders (describedHeaders request)
  meetsSchema schema (← readJson request)

/-- The reply of an operation that takes a body. -/
def withBody (schema : Schema) (requestId : String) (request : Request) (reply : Json → Reply) :
    Reply :=
  match admittedBody schema request with
  | .ok body => reply body
  | .error refusal => refusedBody requestId refusal

/-- The reply of an operation. The documents about the service are not written by it. -/
def perform (surroundings : Surroundings) (requestId : String) (request : Request) :
    Operation → Reply
  | .health => quiet (healthReply surroundings.timestamp)
  | .apiDescription => quiet ⟨200, [("content-type", "application/json")], none⟩
  | .documentation => quiet ⟨200, [("content-type", "text/html; charset=UTF-8")], none⟩
  | .inspectKey =>
    withBody Schema.inspectKeyRequest requestId request fun body =>
      (InspectKeyRequest.ofJson surroundings.now body).reply requestId
  | .inspectAutocrypt =>
    withBody Schema.inspectAutocryptRequest requestId request fun body =>
      (InspectAutocryptRequest.ofJson surroundings.now body).reply requestId

/-- The reply to a request that is not about what may be requested. -/
def route (config : Config) (surroundings : Surroundings) (requestId : String)
    (request : Request) : Reply :=
  let path := request.target.route
  if isLimited path && exceedsLimit config request then tooLarge config requestId
  else
    match operation? request.method path with
    | some operation => perform surroundings requestId request operation
    | none => quiet notFound

/-- The reply to a request, with the fields that tell other origins about access. -/
def answer (config : Config) (surroundings : Surroundings) (requestId : String)
    (request : Request) : Reply :=
  if request.method = "OPTIONS" then quiet (preflight config request)
  else
    let reply := route config surroundings requestId request
    let headers := reply.response.headers.setAll (accessFields config request)
    { reply with response := { reply.response with headers } }

/-- The identifier of a request: the one that it brings along unless that is empty, else a fresh
one. -/
def chooseRequestId (brought : Option String) (fresh : String) : String :=
  match brought with
  | some brought => if brought.isEmpty then fresh else brought
  | none => fresh

/-- The entry for a request that has arrived. -/
def arrivalEntry (request : Request) : LogEntry :=
  ⟨.info, "<-- " ++ request.method ++ " " ++ request.target.text, []⟩

/-- The entry for a request that is answered. -/
def departureEntry (request : Request) (status : Binary64) (elapsed : String) : LogEntry :=
  ⟨.info,
    String.intercalate " " ["-->", request.method, request.target.text, status.text, elapsed],
    []⟩

/-- The reply to a request. -/
def respond (config : Config) (surroundings : Surroundings) (request : Request) : Reply :=
  let requestId := chooseRequestId (request.headers.get? requestIdField) surroundings.requestId
  let ⟨response, entries⟩ := answer config surroundings requestId request
  let headers := response.headers.setAll (safetyFields request ++ [(requestIdField, requestId)])
  -- The status and the fields are those of the reply with a body.
  let body := if request.method = "HEAD" then none else response.body
  { response := { response with headers, body }
    entries :=
      arrivalEntry request :: entries ++
        [departureEntry request response.status surroundings.elapsed] }

end PgpInspect.Service
