import PgpInspect.Binary64.Numeral
import PgpInspect.Fault
import PgpInspect.Log
import PgpInspect.Text.Split

/-!
# Settings of the service

The settings are read from environment variables. Every variable that is set is checked, and all
that are invalid are named together, a variable once for each thing that is wrong with it.
-/

namespace PgpInspect

/-- What a process is run for. -/
inductive RunMode where
  /-- Work on the service. -/
  | development
  /-- Service to others. -/
  | production
  /-- Tests. -/
  | test
  deriving DecidableEq

namespace RunMode

/-- The name of a mode. -/
def name : RunMode → String
  | development => "development"
  | production => "production"
  | test => "test"

/-- The mode with a name. -/
def ofName? (name : String) : Option RunMode :=
  [development, production, test].find? fun mode => mode.name == name

end RunMode

/-- The settings of the service. -/
structure Config where
  /-- What the process is run for. -/
  mode : RunMode := .production
  /-- The port to listen at. -/
  port : Nat := 8787
  /-- The interface to listen at. -/
  host : String := "0.0.0.0"
  /-- The origins that scripts in browsers may call from; none admits all. -/
  allowedOrigins : List String := []
  /-- The greatest number of octets in the body of a request. -/
  maxKeyDataBytes : Nat := 1024 * 1024
  /-- The least severity that is logged. -/
  logLevel : Option Severity := none

/-- Environment variables with their values. -/
abbrev Environment := List (String × String)

/-- The variables that are invalid, each once for each thing that is wrong with it. -/
structure ConfigFault where
  /-- Their names. -/
  names : List String
  deriving DecidableEq

namespace ConfigFault

/-- The wording. -/
def message (fault : ConfigFault) : String :=
  "Invalid configuration: " ++ String.intercalate ", " fault.names

/-- The report. -/
def toFault (fault : ConfigFault) : Fault :=
  ⟨.general, fault.message, "CONFIG_ERROR", 500,
    some [("fields", .array (fault.names.map .string))]⟩

end ConfigFault

namespace Config

/-- What a variable sets, and its name once for each thing that is wrong with its value. -/
abbrev Setting (α : Type) := α × List String

/-- The value of a variable. -/
def valueOf? (environment : Environment) (name : String) : Option String :=
  (environment.find? fun entry => entry.1 == name).map (·.2)

/-- A setting that is `standard` if the variable is not set, and invalid if `read?` has nothing for
its value. -/
def setting {α : Type} (environment : Environment) (name : String) (standard : α)
    (read? : String → Option α) : Setting α :=
  match valueOf? environment name with
  | none => (standard, [])
  | some value =>
    match read? value with
    | some setting => (setting, [])
    | none => (standard, [name])

/-- The number of things that are wrong with a number that has to be an integer of at most 53 bits
from `low` to `high`. What is no integer is not compared with the bounds. -/
def countFaults (low : Nat) (high : Option Nat) : Option Binary64 → Nat
  | some (.finite value) =>
    if value.den = 1 then
      let isUnsafe : Bool := Binary64.greatestSafe < value.num.natAbs
      let isLow : Bool := value.num < low
      let isHigh : Bool := match high with
        | some high => high < value.num
        | none => false
      isUnsafe.toNat + isLow.toNat + isHigh.toNat
    else 1
  | _ => 1

/-- A setting that is a number from `low` to `high`. -/
def numberSetting (environment : Environment) (name : String) (standard low : Nat)
    (high : Option Nat) : Setting Nat :=
  match valueOf? environment name with
  | none => (standard, [])
  | some value =>
    let number := Binary64.ofNumeral? value.toList
    match number.bind Binary64.toInt?, countFaults low high number with
    | some integer, 0 => (integer.toNat, [])
    | _, faults => (standard, List.replicate faults name)

/-- The origins in a list with commas between. -/
def originsOf (value : String) : List String :=
  let origins := (Text.split ',' value.toList).map Text.trim
  (origins.filter fun origin => !origin.isEmpty).map String.ofList

/-- Reads the settings. -/
def ofEnvironment (environment : Environment) : Except ConfigFault Config :=
  let standard : Config := {}
  let mode := setting environment "NODE_ENV" standard.mode RunMode.ofName?
  let port := numberSetting environment "PORT" standard.port 1 (some 65535)
  let host := setting environment "HOST" standard.host fun host =>
    if host.isEmpty then none else some host
  let origins := setting environment "ALLOWED_ORIGINS" standard.allowedOrigins fun value =>
    some (originsOf value)
  let size := numberSetting environment "MAX_KEY_DATA_BYTES" standard.maxKeyDataBytes 1 none
  let level := setting environment "LOG_LEVEL" standard.logLevel fun name =>
    (Severity.ofName? name).map some
  match mode.2 ++ port.2 ++ host.2 ++ origins.2 ++ size.2 ++ level.2 with
  | [] =>
    .ok
      { mode := mode.1
        port := port.1
        host := host.1
        allowedOrigins := origins.1
        maxKeyDataBytes := size.1
        logLevel := level.1 }
  | names => .error ⟨names⟩

end Config

end PgpInspect
