import PgpInspect.Binary64

/-!
# JSON values

The values of JSON with binary64 numbers. The members of an object are a list of names and values
in which no name occurs twice; `Members.set` keeps it so. `Json.text` and its like read a member
of a value that is known to have it and fall back to an empty value otherwise.
-/

namespace PgpInspect

/-- A JSON value. -/
inductive Json where
  /-- The value `null`. -/
  | null
  /-- A truth value. -/
  | bool (value : Bool)
  /-- A number. -/
  | number (value : Binary64)
  /-- A text. -/
  | string (value : String)
  /-- A sequence of values. -/
  | array (items : List Json)
  /-- Named values. -/
  | object (members : List (String × Json))
  deriving Inhabited

/-- Named JSON values. -/
abbrev Members := List (String × Json)

namespace Members

/-- The value named `name`. -/
def get? (members : Members) (name : String) : Option Json :=
  (members.find? fun member => member.1 == name).map (·.2)

/-- `members` with `value` as the value named `name`, in the place of an earlier one. -/
def set : (members : Members) → (name : String) → (value : Json) → Members
  | [], name, value => [(name, value)]
  | member :: rest, name, value =>
    if member.1 = name then (name, value) :: rest else member :: set rest name value

/-- `members` without the one named `name`. -/
def erase (members : Members) (name : String) : Members :=
  members.filter fun member => member.1 != name

/-- `members` and `others`; of two values with one name the one of `others`. -/
def merge (members others : Members) : Members :=
  others.foldl (fun all member => set all member.1 member.2) members

/-- The member `name` if there is a value for it. -/
def ofOption (name : String) (value : Option Json) : Members :=
  match value with
  | some value => [(name, value)]
  | none => []

end Members

namespace Json

/-- A natural number as a value. -/
def nat (value : Nat) : Json := .number (value : Binary64)

/-- An integer as a value. -/
def int (value : Int) : Json := .number (value : Binary64)

/-- The member of an object named `name`. -/
def get? : Json → (name : String) → Option Json
  | .object members, name => Members.get? members name
  | _, _ => none

/-- The text named `name`, if there is one. -/
def text? (json : Json) (name : String) : Option String :=
  match json.get? name with
  | some (.string value) => some value
  | _ => none

/-- The text named `name`, empty if there is none. -/
def text (json : Json) (name : String) : String := (json.text? name).getD ""

/-- The number named `name`, if there is one. -/
def number? (json : Json) (name : String) : Option Binary64 :=
  match json.get? name with
  | some (.number value) => some value
  | _ => none

/-- The truth value named `name`, if there is one. -/
def bool? (json : Json) (name : String) : Option Bool :=
  match json.get? name with
  | some (.bool value) => some value
  | _ => none

/-- The sequence named `name`, empty if there is none. -/
def items (json : Json) (name : String) : List Json :=
  match json.get? name with
  | some (.array items) => items
  | _ => []

end Json

end PgpInspect
