import PgpInspect.Binary64.Decimal
import PgpInspect.Json
import PgpInspect.Schema.Pattern

/-!
# Issues

What a schema finds wrong with a value: where, what, and in which words. The words are those of the
complaint unless the schema has words of its own.
-/

namespace PgpInspect

/-- The name of the type of a value that may be missing. -/
def Json.typeName : (value : Option Json) → String
  | none => "undefined"
  | some .null => "null"
  | some (.bool _) => "boolean"
  | some (.number .undefined) => Binary64.undefinedText
  | some (.number _) => "number"
  | some (.string _) => "string"
  | some (.array _) => "array"
  | some (.object _) => "object"

/-- What is wrong with a value. -/
inductive Complaint where
  /-- It has another type than expected. -/
  | wrongType (expected received : String)
  /-- It is an infinite number. -/
  | infinite
  /-- It is not an integer. -/
  | notInteger
  /-- It is an integer with more than 53 bits. -/
  | unsafeInteger (negative : Bool)
  /-- It is a negative number. -/
  | belowZero
  /-- It is none of the options. -/
  | noOption (options : List String)
  /-- It is not this text. -/
  | notConstant (value : String)
  /-- It is a text with fewer characters. -/
  | tooShort (minimum : Nat)
  /-- It is a text with more characters. -/
  | tooLong (maximum : Nat)
  /-- It is a text that does not have the pattern. -/
  | mismatch (pattern : Pattern)

namespace Complaint

/-- The least and greatest integers with at most 53 bits, by their sign. -/
def safeBound (negative : Bool) : Int :=
  if negative then -Binary64.greatestSafe else Binary64.greatestSafe

/-- Texts in quotation marks with bars between. -/
def listed (options : List String) : String :=
  String.intercalate "|" (options.map fun option => "\"" ++ option ++ "\"")

/-- The general wording of a complaint. -/
def message : Complaint → String
  | .wrongType expected received =>
    "Invalid input: expected " ++ expected ++ ", received " ++ received
  | .infinite => "Invalid input: expected number, received Infinity"
  | .notInteger => "Invalid input: expected int, received number"
  | .unsafeInteger true => "Too small: expected int to be >=" ++ toString (safeBound true)
  | .unsafeInteger false => "Too big: expected int to be <=" ++ toString (safeBound false)
  | .belowZero => "Too small: expected number to be >=0"
  | .noOption options => "Invalid option: expected one of " ++ listed options
  | .notConstant value => "Invalid input: expected " ++ listed [value]
  | .tooShort minimum =>
    "Too small: expected string to have >=" ++ toString minimum ++ " characters"
  | .tooLong maximum =>
    "Too big: expected string to have <=" ++ toString maximum ++ " characters"
  | .mismatch pattern => "Invalid string: must match pattern " ++ pattern.source

/-- The members of a report that say that a value is beyond a bound. -/
def bound (code boundName : String) (value : Int) (origin : String) : Members :=
  [ ("code", .string code), (boundName, .int value), ("origin", .string origin),
    ("inclusive", .bool true) ]

/-- The members of a report that are special to a complaint. -/
def members : Complaint → Members
  | .wrongType expected _ => [("code", .string "invalid_type"), ("expected", .string expected)]
  | .infinite =>
    [ ("code", .string "invalid_type"), ("expected", .string "number"),
      ("received", .string "Infinity") ]
  | .notInteger =>
    [ ("code", .string "invalid_type"), ("expected", .string "int"),
      ("format", .string "safeint") ]
  | .unsafeInteger negative =>
    ("note", .string "Integers must be within the safe integer range.") ::
      if negative then bound "too_small" "minimum" (safeBound true) "int"
      else bound "too_big" "maximum" (safeBound false) "int"
  | .belowZero => bound "too_small" "minimum" 0 "number"
  | .noOption options =>
    [("code", .string "invalid_value"), ("values", .array (options.map .string))]
  | .notConstant value =>
    [("code", .string "invalid_value"), ("values", .array [.string value])]
  | .tooShort minimum => bound "too_small" "minimum" minimum "string"
  | .tooLong maximum => bound "too_big" "maximum" maximum "string"
  | .mismatch pattern =>
    [ ("code", .string "invalid_format"), ("format", .string pattern.format),
      ("origin", .string "string"), ("pattern", .string pattern.source) ]

end Complaint

/-- A step from a value to a part of it. -/
inductive PathStep where
  /-- To the member with a name. -/
  | member (name : String)
  /-- To the item with an index. -/
  | item (index : Nat)
  deriving DecidableEq

/-- The way from a value to a part of it. -/
abbrev Path := List PathStep

/-- A step in a report. -/
def PathStep.toJson : PathStep → Json
  | .member name => .string name
  | .item index => .nat index

/-- A complaint about a part of a value. -/
structure Issue where
  /-- Where the part is. -/
  path : Path
  /-- What is wrong with it. -/
  complaint : Complaint
  /-- The wording. -/
  message : String

namespace Issue

/-- A complaint in its general wording. -/
def general (path : Path) (complaint : Complaint) : Issue :=
  ⟨path, complaint, complaint.message⟩

/-- An issue as it is reported. -/
def toJson (issue : Issue) : Json :=
  .object (issue.complaint.members ++
    [ ("path", .array (issue.path.map PathStep.toJson)), ("message", .string issue.message) ])

end Issue

end PgpInspect
