import PgpInspect.Text.Blank
import PgpInspect.Text.Split

/-!
# Media types

Whether a `Content-Type` announces JSON: the type `application/json`, or one that is built on it,
as in `application/vnd.api+json`, with any parameters after it.
-/

namespace PgpInspect.Http.MediaType

/-- Whether a type in lower case, without parameters, is JSON or built on it. -/
def isJsonType (type : List Char) : Bool :=
  match "application/".toList.isPrefixOf? type with
  | none => false
  | some subtype =>
    subtype == "json".toList ||
      match "nosj+".toList.isPrefixOf? subtype.reverse with
      | none => false
      | some stem => !stem.isEmpty && stem.all fun c => c.isLower || c == '-' || c == '.'

/-- Whether a text between semicolons is a parameter: a name, `=`, and something. -/
def isParameter (text : List Char) : Bool :=
  let text := Text.trimStart text
  let isNameChar (c : Char) : Bool := c.isAlphanum || c == '-'
  match text.dropWhile isNameChar with
  | '=' :: value => !(text.takeWhile isNameChar).isEmpty && !value.isEmpty
  | _ => false

/-- Whether a media type announces JSON. -/
def isJson (mediaType : String) : Bool :=
  match Text.split ';' mediaType.toList with
  | type :: parameters => isJsonType (type.map Char.toLower) && parameters.all isParameter
  | [] => false

end PgpInspect.Http.MediaType
