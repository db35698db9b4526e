import PgpInspect.Json

/-!
# Log entries

An entry is a message with a severity and details. Operations that report on the side give the list
of their entries beside their result.
-/

namespace PgpInspect

/-- The severities, in rising order. -/
inductive Severity where
  /-- For developers. -/
  | debug
  /-- For the record. -/
  | info
  /-- Something was left out. -/
  | warn
  /-- Something failed. -/
  | error
  deriving DecidableEq

namespace Severity

/-- The name of a severity. -/
def name : Severity → String
  | .debug => "debug"
  | .info => "info"
  | .warn => "warn"
  | .error => "error"

/-- The place of a severity in their order. -/
def rank : Severity → Nat
  | .debug => 0
  | .info => 1
  | .warn => 2
  | .error => 3

/-- The severity with a name. -/
def ofName? (name : String) : Option Severity :=
  [debug, info, warn, error].find? fun severity => severity.name == name

end Severity

/-- A message with its severity and details. -/
structure LogEntry where
  /-- The severity. -/
  severity : Severity
  /-- The message. -/
  message : String
  /-- The details. -/
  context : Members := []

end PgpInspect
