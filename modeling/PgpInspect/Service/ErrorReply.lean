import PgpInspect.Log.Logger

/-!
# Replies about faults

A reply about a fault has a message, a code and the identifier of the request. A foreseen fault
tells its own message, code and status; of anything else only a general message is told, and the
cause is logged.
-/

namespace PgpInspect.Service

/-- A reply about a fault with what is logged. -/
structure ErrorReply where
  /-- The status. -/
  status : Binary64
  /-- The body. -/
  body : Json
  /-- What is logged. -/
  entries : List LogEntry

namespace ErrorReply

/-- The identifier of a request, unless it is empty. -/
def identifierMember (requestId : Option String) : Members :=
  Members.ofOption "requestId" ((requestId.filter fun id => !id.isEmpty).map .string)

/-- A reply with the given message, code and status. Details are logged only. -/
def make (message code : String) (status : Binary64) (requestId : Option String)
    (context : Option Members) : ErrorReply :=
  let identifier := identifierMember requestId
  let known : Members := [("code", .string code), ("status", .number status)] ++ identifier
  { status
    body := .object ([("error", .string message), ("code", .string code)] ++ identifier)
    entries := [⟨.error, message, Logger.withError (known.merge (context.getD [])) none⟩] }

/-- The entry about an unforeseen failure. -/
def unforeseenEntry (thrown : Thrown) (code : String) (requestId : Option String) : LogEntry :=
  let known : Members :=
    ("code", .string code) :: Members.ofOption "requestId" (requestId.map .string)
  ⟨.error, "Unhandled error", Logger.withError known (some (thrown.toLog none))⟩

/-- The reply about anything that was thrown. `fallback` and `code` are told where the failure was
not foreseen. -/
def ofThrown (thrown : Thrown) (fallback code : String) (requestId : Option String) : ErrorReply :=
  match thrown with
  | .foreseen fault => make fault.message fault.code fault.status requestId fault.context
  | thrown =>
    let reply := make fallback code 500 requestId none
    { reply with entries := unforeseenEntry thrown code requestId :: reply.entries }

end ErrorReply

end PgpInspect.Service
