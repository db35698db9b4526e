import PgpInspect.Json.Printer

/-!
# Faults

A `Fault` is what is told of a failure that the library foresees: a message, a code that stays the
same when the wording changes, the HTTP status of a reply that reports it, and details. The causes
of faults are types of their own, each with its wording; `Thrown` adds the failures that nobody
foresaw.
-/

namespace PgpInspect

/-- What a fault is about. -/
inductive Fault.Kind where
  /-- A request, a header or a setting. -/
  | general
  /-- Input that is not a packet stream. -/
  | decoding
  /-- A field of a packet with this tag. -/
  | field (tag : Binary64)

/-- The report of a foreseen failure. -/
structure Fault where
  /-- What the fault is about. -/
  kind : Fault.Kind
  /-- The wording. -/
  message : String
  /-- The stable code. -/
  code : String
  /-- The HTTP status of a reply that reports it. -/
  status : Binary64
  /-- Details, if there are any. -/
  context : Option Members

namespace Fault

/-- A fault of input that is not a packet stream. -/
def decoding (message : String) (context : Option Members) : Fault :=
  ⟨.decoding, message, "PACKET_DECODE_ERROR", 400, context⟩

/-- A fault of a field in a packet with the tag `tag`. Details may state another tag. -/
def field (tag : Binary64) (message : String) (context : Members) : Fault :=
  ⟨.field tag, message, "PACKET_FIELD_ERROR", 400,
    some (Members.merge [("tag", .number tag)] context)⟩

/-- The name of the kind of a fault. -/
def name (fault : Fault) : String :=
  match fault.kind with
  | .general => "AppError"
  | .decoding => "PacketDecodeError"
  | .field _ => "PacketFieldError"

end Fault

/-- Anything that can stop an operation. -/
inductive Thrown where
  /-- A foreseen failure. -/
  | foreseen (fault : Fault)
  /-- An unforeseen failure with the name of its kind. -/
  | exception (name message : String)
  /-- A bare value. -/
  | bare (value : Json)

namespace Thrown

mutual

/-- The text of a bare value: the items of an array with commas between, and no more than a word
for an object. -/
def plainText : Json → String
  | .null => "null"
  | .bool value => if value then "true" else "false"
  | .number value => value.text
  | .string value => value
  | .array items => String.intercalate "," (itemTexts items)
  | .object _ => "[object Object]"

/-- The texts of the items of an array; `null` has none. -/
def itemTexts : List Json → List String
  | [] => []
  | .null :: rest => "" :: itemTexts rest
  | item :: rest => plainText item :: itemTexts rest

end

/-- The message of what was thrown. -/
def message : Thrown → String
  | .foreseen fault => fault.message
  | .exception _ message => message
  | .bare value => plainText value

end Thrown

end PgpInspect
