import PgpInspect.Http.Headers
import PgpInspect.Json

/-!
# Responses

A response as a value. Bodies are JSON, and the documents that a response may have instead are not
part of it.
-/

namespace PgpInspect.Http

/-- A response. -/
structure Response where
  /-- The status. -/
  status : Binary64
  /-- The header fields. -/
  headers : Headers
  /-- The body, if it is JSON. -/
  body : Option Json

namespace Response

/-- A response with a JSON body. -/
def ofJson (status : Binary64) (body : Json) : Response :=
  ⟨status, [("content-type", "application/json")], some body⟩

end Response

end PgpInspect.Http
