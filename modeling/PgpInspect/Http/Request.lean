import PgpInspect.Http.Headers
import PgpInspect.Http.Target
import PgpInspect.Octets
import PgpInspect.Text.Units

/-!
# Requests

A request as a value, and what can be wrong with the parts that one is made of (`Request.make`).
Methods and header fields hold no character above U+00FF; methods and names of fields are tokens;
values are free of line ends; and a request that only asks for something has no body.
-/

namespace PgpInspect.Http

/-- A request. -/
structure Request where
  /-- The method. -/
  method : String
  /-- What it is about. -/
  target : Target
  /-- The header fields. -/
  headers : Headers
  /-- The body, if there is one, which may be empty. -/
  body : Option Octets

/-- Why no request can be made. -/
inductive RequestFault where
  /-- A method, a name or a value has this 16-bit unit, which is no octet, at `index`. -/
  | wideUnit (index unit : Nat)
  /-- The text is no target. -/
  | malformedTarget (text : String)
  /-- The target has a user name or a password. -/
  | credentials (text : String)
  /-- The method is no token. -/
  | malformedMethod (method : String)
  /-- The method is for proxies only. -/
  | unsupportedMethod (method : String)
  /-- The name of a field is no token. -/
  | malformedName (name : String)
  /-- The value of a field has a line end. -/
  | malformedValue (value : String)
  /-- There is a body that nobody would read. -/
  | idleBody
  deriving DecidableEq

/-- The wording of a fault. -/
def RequestFault.message : RequestFault → String
  | wideUnit index unit =>
    "Cannot convert argument to a ByteString because the character at index " ++ toString index ++
      " has a value of " ++ toString unit ++ " which is greater than 255."
  | malformedTarget text => "Failed to parse URL from " ++ text
  | credentials text =>
    "Request cannot be constructed from a URL that includes credentials: " ++ text
  | malformedMethod method => "'" ++ method ++ "' is not a valid HTTP method."
  | unsupportedMethod method => "'" ++ method ++ "' HTTP method is unsupported."
  | malformedName name => "Headers.append: \"" ++ name ++ "\" is an invalid header name."
  | malformedValue value => "Headers.append: \"" ++ value ++ "\" is an invalid header value."
  | idleBody => "Request with GET/HEAD method cannot have body."

namespace Request

/-- The form of a text in which letters have upper case. -/
def upper (text : String) : String := String.ofList (text.toList.map Char.toUpper)

/-- The methods that are recognised in either case. -/
def caselessMethods : List String := ["DELETE", "GET", "HEAD", "OPTIONS", "POST", "PUT"]

/-- The methods for proxies. -/
def proxyMethods : List String := ["CONNECT", "TRACE", "TRACK"]

/-- The form in which a method is kept: in upper case if it is one of those recognised in either
case. -/
def normalMethod (method : String) : String :=
  if caselessMethods.contains (upper method) then upper method else method

/-- The characters of a token. -/
def isTokenChar (c : Char) : Bool := c.isAlphanum || "!#$%&'*+-.^_\x60|~".toList.contains c

/-- Whether a text is a token. -/
def isToken (text : String) : Bool := !text.isEmpty && text.toList.all isTokenChar

/-- Refuses a text with a 16-bit unit that is no octet. -/
def narrow (text : String) : Except RequestFault Unit :=
  match (text.toList.flatMap Text.units).zipIdx.find? fun entry => 0xFF < entry.1 with
  | some (unit, index) => .error (.wideUnit index unit)
  | none => .ok ()

/-- The target that a text writes. -/
def readTarget (text : String) : Except RequestFault Target :=
  match Target.ofText text.toList with
  | .ok target => .ok target
  | .error .malformed => .error (.malformedTarget text)
  | .error .credentials => .error (.credentials text)

/-- Refuses a method that no request has. -/
def checkMethod (method : String) : Except RequestFault Unit :=
  if !isToken method then .error (.malformedMethod method)
  else if proxyMethods.contains (upper method) then .error (.unsupportedMethod method)
  else .ok ()

/-- Refuses a field with a wrong name or value. -/
def checkField (name value : String) : Except RequestFault Unit :=
  let value := Headers.trimValue value
  if !isToken name then .error (.malformedName name)
  else if value.toList.any fun c => c == '\x00' || c == '\r' || c == '\n' then
    .error (.malformedValue value)
  else .ok ()

/-- The request that is made of the given parts, unless something is wrong with them. -/
def make (method target : String) (fields : List (String × String)) (body : Option Octets) :
    Except RequestFault Request := do
  narrow method
  fields.forM fun (name, value) => do
    narrow name
    narrow value
  let target ← readTarget target
  checkMethod method
  fields.forM fun (name, value) => checkField name value
  let method := normalMethod method
  if body.isSome ∧ (method = "GET" ∨ method = "HEAD") then .error .idleBody
  else return { method, target, headers := Headers.ofFields fields, body }

end Request

end PgpInspect.Http
