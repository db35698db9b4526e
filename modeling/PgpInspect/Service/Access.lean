import PgpInspect.Config
import PgpInspect.Http.Request
import PgpInspect.Http.Response

/-!
# Access from other origins

Which scripts in browsers may read replies, and the header fields that all replies have for the
safety of browsers.
-/

namespace PgpInspect.Service

open Http

/-- The name of the field with the identifier of a request. -/
def requestIdField : String := "X-Request-ID"

/-- The origin that a request comes from, if its scripts may read the reply. -/
def admittedOrigin? (config : Config) (request : Request) : Option String :=
  (request.headers.get? "Origin").filter fun origin =>
    config.allowedOrigins.isEmpty || config.allowedOrigins.contains origin

/-- The fields that let the scripts of an admitted origin read a reply. -/
def accessFields (config : Config) (request : Request) : List (String × String) :=
  match admittedOrigin? config request with
  | some origin =>
    [ ("Access-Control-Allow-Origin", origin),
      ("Access-Control-Expose-Headers", requestIdField) ]
  | none => []

/-- The fields that tell the scripts of an admitted origin what they may request. -/
def preflightFields (config : Config) (request : Request) : List (String × String) :=
  match admittedOrigin? config request with
  | some origin =>
    [ ("Access-Control-Allow-Origin", origin),
      ("Access-Control-Allow-Methods", "GET, POST, OPTIONS"),
      ("Access-Control-Allow-Headers", "Content-Type, " ++ requestIdField),
      ("Access-Control-Max-Age", "86400") ]
  | none => []

/-- The reply to a request about what may be requested. -/
def preflight (config : Config) (request : Request) : Response :=
  ⟨204, Headers.setAll [] (preflightFields config request), none⟩

/-- The fields for the safety of browsers. The page that documents the service loads parts of
itself from elsewhere, so it has no policy about its content. -/
def safetyFields (request : Request) : List (String × String) :=
  [ ("X-Content-Type-Options", "nosniff"),
    ("X-Frame-Options", "DENY"),
    ("Referrer-Policy", "no-referrer"),
    ("Permissions-Policy", "geolocation=(), microphone=(), camera=()") ] ++
  if "/ui".toList.isPrefixOf request.target.route.toList then []
  else [("Content-Security-Policy", "default-src 'none'; frame-ancestors 'none'")]

end PgpInspect.Service
