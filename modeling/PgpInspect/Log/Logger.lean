import PgpInspect.Fault
import PgpInspect.Log
import PgpInspect.Text.LowerCase

/-!
# Printing log entries

A logger prints the entries from a threshold on: one object for machines to read, or, while somebody
works on the service, a label, the message and the details for people.
-/

namespace PgpInspect

/-- What is printed for an entry. -/
inductive LogLine where
  /-- One object. -/
  | record (members : Members)
  /-- Label, message, and details if any were given. -/
  | console (label message : String) (context : Option Members)

/-- What the surroundings contribute to what is printed. -/
structure LogStamp where
  /-- The time. -/
  timestamp : String
  /-- Where an error arose. -/
  trace : String

/-- How entries are printed. -/
structure Logger where
  /-- Whether entries are printed for people. -/
  forPeople : Bool
  /-- The least severity that is printed. -/
  threshold : Severity
  deriving DecidableEq

namespace Severity

/-- The label of a severity. -/
def label (severity : Severity) : String :=
  "[" ++ String.ofList (severity.name.toList.map Char.toUpper) ++ "]"

end Severity

namespace Thrown

/-- What a log entry says of what was thrown. -/
def toLog (trace : Option String) : Thrown → Json
  | .foreseen fault => ofNamed fault.name fault.message
  | .exception name message => ofNamed name message
  | .bare value => value
where
  /-- An error with a name. -/
  ofNamed (name message : String) : Json :=
    .object ([("message", .string message), ("name", .string name)] ++
      Members.ofOption "stack" (trace.map .string))

end Thrown

namespace Logger

/-- The logger of a process, by the mode that it runs in and the level that is asked for. Without a
known level everything is printed while somebody works on the service, and what is at least for the
record otherwise. -/
def ofSettings (mode level : Option String) : Logger :=
  let forPeople : Bool := mode == some "development"
  let asked := level.bind fun level =>
    Severity.ofName? (String.ofList (Text.lower level.toList))
  ⟨forPeople, asked.getD (if forPeople then .debug else .info)⟩

/-- What is printed for an entry, nothing below the threshold. Details named like a part of the
record take its place. -/
def print (logger : Logger) (timestamp : String) (severity : Severity) (message : String)
    (context : Option Members) : Option LogLine :=
  if severity.rank < logger.threshold.rank then none
  else if logger.forPeople then some (.console severity.label message context)
  else
    let members : Members :=
      [ ("timestamp", .string timestamp), ("level", .string severity.name),
        ("message", .string message) ]
    some (.record (members.merge (context.getD [])))

/-- What is printed for an entry with details. -/
def printEntry (logger : Logger) (timestamp : String) (entry : LogEntry) : Option LogLine :=
  logger.print timestamp entry.severity entry.message (some entry.context)

/-- Details with an error among them; without an error there is no detail of that name. -/
def withError (context : Members) (error : Option Json) : Members :=
  context.erase "error" ++ Members.ofOption "error" error

/-- What is printed for an error. -/
def printError (logger : Logger) (stamp : LogStamp) (message : String) (error : Option Thrown)
    (context : Option Members) : Option LogLine :=
  let trace := if logger.forPeople then some stamp.trace else none
  logger.print stamp.timestamp .error message
    (some (withError (context.getD []) (error.map (Thrown.toLog trace))))

/-- Details that are added to all entries of a request, under those of the entry. -/
def underContext (outer : Members) (context : Option Members) : Option Members :=
  some (outer.merge (context.getD []))

/-- The details that name a request: by the identifier that it was given, or else by the one that it
brought along. -/
def requestContext (given brought : Option String) : Members :=
  -- An empty identifier counts as none.
  let identifier :=
    match given with
    | some given => if given.isEmpty then brought else some given
    | none => brought
  Members.ofOption "requestId" (identifier.map .string)

end Logger

end PgpInspect
