import PgpInspect.Http.Authority
import PgpInspect.Text.Percent
import PgpInspect.Text.Split

/-!
# Request targets

A target names what a request is about: a path, and perhaps a query and a fragment. A written target
may begin with a scheme and an authority, which name the service and are checked only. The rest is
brought into a normal form: blanks at its end and line ends anywhere are left out, a backslash in
the path counts as a slash, the segments `.` and `..` are resolved, and characters that a target may
not hold are escaped.
-/

namespace PgpInspect.Http

/-- What a request is about, in normal form. -/
structure Target where
  /-- The path, which begins with a slash. -/
  path : List Char
  /-- The query, without the question mark. -/
  query : Option (List Char)
  /-- The fragment, without the number sign. -/
  fragment : Option (List Char)
  deriving DecidableEq

namespace Target

/-- The characters that are escaped everywhere in a target. -/
def isEscapedAnywhere (c : Char) : Bool :=
  c.toNat ≤ 0x20 || 0x7F ≤ c.toNat || c == '"' || c == '<' || c == '>'

/-- The characters that are escaped in a path. -/
def isEscapedInPath (c : Char) : Bool :=
  isEscapedAnywhere c || c == '\x60' || c == '\x7b' || c == '\x7d'

/-- The characters that are escaped in a query. -/
def isEscapedInQuery (c : Char) : Bool := isEscapedAnywhere c || c == '\''

/-- The characters that are escaped in a fragment. -/
def isEscapedInFragment (c : Char) : Bool := isEscapedAnywhere c || c == '\x60'

/-- The text in front of the first `mark`, and what follows it if there is one. -/
def cut (mark : Char) (text : List Char) : List Char × Option (List Char) :=
  match text.dropWhile (· != mark) with
  | [] => (text, none)
  | _ :: rest => (text.takeWhile (· != mark), some rest)

/-- Whether a segment, in which a point may be escaped, consists of `count` points. -/
def isPoints : (count : Nat) → (segment : List Char) → Bool
  | 0, segment => segment.isEmpty
  | count + 1, segment =>
    match segment with
    | '.' :: rest => isPoints count rest
    | '%' :: '2' :: e :: rest => (e == 'e' || e == 'E') && isPoints count rest
    | _ => false

/-- Resolves segments after the segments `done`, the last of which comes first. -/
def resolve (done : List (List Char)) : (segments : List (List Char)) → List (List Char)
  | [] => done.reverse
  | segment :: rest =>
    if isPoints 2 segment then
      if rest.isEmpty then (done.drop 1).reverse ++ [[]] else resolve (done.drop 1) rest
    else if isPoints 1 segment then
      if rest.isEmpty then done.reverse ++ [[]] else resolve done rest
    else resolve (Text.Percent.encode isEscapedInPath segment :: done) rest

/-- The normal form of a path without the slash in front. -/
def normalPath (path : List Char) : List Char :=
  let path := path.map fun c => if c = '\\' then '/' else c
  '/' :: Text.join '/' (resolve [] (Text.split '/' path))

/-- Why a text is no target. -/
inductive Fault where
  /-- It has no valid host, or no valid port. -/
  | malformed
  /-- It has a user name or a password. -/
  | credentials
  deriving DecidableEq

/-- A text without blanks at its end and line ends anywhere. -/
def clean (text : List Char) : List Char :=
  let text := (text.reverse.dropWhile fun c => c.toNat ≤ 0x20).reverse
  text.filter fun c => c != '\t' && c != '\n' && c != '\r'

/-- The target that a text without the slash in front of the path writes. -/
def ofPath (text : List Char) : Target :=
  let (text, fragment) := cut '#' text
  let (path, query) := cut '?' text
  { path := normalPath path
    query := query.map (Text.Percent.encode isEscapedInQuery)
    fragment := fragment.map (Text.Percent.encode isEscapedInFragment) }

/-- Whether a character ends an authority. -/
def endsAuthority (c : Char) : Bool := c == '/' || c == '\\' || c == '?' || c == '#'

/-- The target that a text writes after a scheme. -/
def ofLocator (text : List Char) : Except Fault Target :=
  let text := (clean text).dropWhile fun c => c == '/' || c == '\\'
  let authority := Authority.ofText (text.takeWhile fun c => !endsAuthority c)
  let path := text.dropWhile fun c => !endsAuthority c
  if !authority.isValid then .error .malformed
  else if authority.hasCredentials then .error .credentials
  else
    match path with
    | '?' :: _ | '#' :: _ => .ok (ofPath path)
    | path => .ok (ofPath (path.drop 1))

/-- The target that a text writes. A slash in front of a path may be missing. -/
def ofText (text : List Char) : Except Fault Target :=
  match "http://".toList.isPrefixOf? text, "https://".toList.isPrefixOf? text with
  | some rest, _ => ofLocator rest
  | none, some rest => ofLocator rest
  | none, none => .ok (ofPath (clean (if text.head? = some '/' then text.drop 1 else text)))

/-- A part of a target after its mark, nothing if it is missing. -/
def marked (mark : Char) : (part : Option (List Char)) → List Char
  | some part => mark :: part
  | none => []

/-- The text of a target. -/
def text (target : Target) : String :=
  String.ofList (target.path ++ marked '?' target.query ++ marked '#' target.fragment)

/-- The path by which a service is chosen: with its escapes decoded. -/
def route (target : Target) : String := String.ofList (Text.Percent.decode target.path)

end Target

end PgpInspect.Http
