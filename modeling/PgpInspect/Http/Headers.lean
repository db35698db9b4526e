/-!
# Headers

Header fields by name. The case of a name does not matter, so names are kept in lower case; fields
of one name are one field with their values in a list; blanks around a value do not belong to it.
-/

namespace PgpInspect.Http

/-- Header fields, whose names are in lower case and occur once. -/
abbrev Headers := List (String × String)

namespace Headers

/-- The form in which the name of a field is kept. -/
def nameKey (name : String) : String := String.ofList (name.toList.map Char.toLower)

/-- The blanks that may stand around a value. -/
def isBlank (c : Char) : Bool := c == ' ' || c == '\t' || c == '\r' || c == '\n'

/-- A value without the blanks around it. -/
def trimValue (value : String) : String :=
  let start := value.toList.dropWhile isBlank
  String.ofList (start.reverse.dropWhile isBlank).reverse

/-- The value of a field. -/
def get? (headers : Headers) (name : String) : Option String :=
  (headers.find? fun field => field.1 == nameKey name).map (·.2)

/-- `headers` with `value` as the value of a field, in place of any before. -/
def set (headers : Headers) (name value : String) : Headers :=
  headers.filter (fun field => field.1 != nameKey name) ++ [(nameKey name, value)]

/-- `headers` with one more value of a field. -/
def add (headers : Headers) (name value : String) : Headers :=
  match headers.get? name with
  | some values => headers.set name (values ++ ", " ++ trimValue value)
  | none => headers.set name (trimValue value)

/-- The header fields that a message writes. -/
def ofFields (fields : List (String × String)) : Headers :=
  fields.foldl (fun headers field => headers.add field.1 field.2) []

/-- `headers` with the given fields in place of any before. -/
def setAll (headers : Headers) (fields : List (String × String)) : Headers :=
  fields.foldl (fun headers field => headers.set field.1 field.2) headers

end Headers

end PgpInspect.Http
