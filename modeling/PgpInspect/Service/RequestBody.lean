import PgpInspect.Config
import PgpInspect.Http.MediaType
import PgpInspect.Http.Request
import PgpInspect.Http.Response
import PgpInspect.Json.Parser
import PgpInspect.Schema
import PgpInspect.Text.Blank
import PgpInspect.Text.Utf8

/-!
# Reading the bodies of requests

The body of a request is measured against a limit, read as JSON, and checked against a schema.
-/

namespace PgpInspect.Service

open Http

/-- The integer in front of a text, after blanks and a sign. -/
def leadingInt? (text : List Char) : Option Int :=
  let (negative, text) := Binary64.Numeral.sign (Text.trimStart text)
  match Binary64.Numeral.digits text with
  | ([], _) => none
  | (digits, _) =>
    let value : Int := Binary64.Numeral.natOf digits
    some (if negative then -value else value)

/-- Whether a request has a body beyond the limit. A stated length is believed, unless the body is
sent in pieces. -/
def exceedsLimit (config : Config) (request : Request) : Bool :=
  match request.body with
  | none => false
  | some body =>
    match request.headers.get? "Content-Length", request.headers.get? "Transfer-Encoding" with
    | some length, none =>
      match leadingInt? length.toList with
      | some length => (config.maxKeyDataBytes : Int) < length
      | none => false
    | _, _ => config.maxKeyDataBytes < body.length

/-- Why the body of a request is not what an operation asks for. -/
inductive BodyRefusal where
  /-- It is not announced as JSON. -/
  | unsupportedMediaType
  /-- It is not JSON. -/
  | malformedJson
  /-- It is JSON that a schema does not admit. -/
  | invalid (issues : List Issue)

/-- The media type that a request states. An empty one states nothing. -/
def mediaType? (request : Request) : Option String :=
  (request.headers.get? "Content-Type").filter fun mediaType => !mediaType.isEmpty

/-- The body of a request as JSON. A request without body and media type counts as one with an empty
object. -/
def readJson (request : Request) : Except BodyRefusal Json :=
  match mediaType? request with
  | some mediaType =>
    if MediaType.isJson mediaType then
      match Json.parse (Text.Utf8.decode (request.body.getD [])) with
      | .ok json => .ok json
      | .error _ => .error .malformedJson
    else .error .unsupportedMediaType
  | none =>
    if (request.body.getD []).isEmpty then .ok (.object []) else .error .unsupportedMediaType

/-- Checks a value against a schema. -/
def meetsSchema (schema : Schema) (value : Json) : Except BodyRefusal Json :=
  match schema.validate [] (some value) with
  | .ok value => .ok value
  | .error issues => .error (.invalid issues)

end PgpInspect.Service
