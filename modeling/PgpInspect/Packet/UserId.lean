import PgpInspect.Packet.Framing
import PgpInspect.Text.Blank
import PgpInspect.Text.Utf8

/-!
# User ID packets

A user ID is a text that conventionally reads `Name (Comment) <email>`. `Identity.ofText` takes it
apart: a final `<email>` and then a final `(comment)` are cut off, provided that the text in front
of them has no line end; an address alone is an email; anything else is a name.
-/

namespace PgpInspect

/-- The parts of a user ID. -/
structure Identity where
  /-- The name. -/
  name : String := ""
  /-- The email address. -/
  email : String := ""
  /-- The comment. -/
  comment : String := ""
  deriving DecidableEq

namespace Identity

/-- Cuts a final group off a text: `opening`, characters other than `opening` and `closing`, and
`closing`. Gives the text in front, without blanks at its end, and what the group holds. There is
no group to cut off if the text in front has a line end inside. -/
def cutGroup? (opening closing : Char) (text : List Char) : Option (List Char × List Char) :=
  match text.reverse with
  | [] => none
  | last :: before =>
    if last ≠ closing then none
    else
      let isBracket (c : Char) : Bool := c == opening || c == closing
      let inside := before.takeWhile fun c => !isBracket c
      match before.dropWhile fun c => !isBracket c with
      | [] => none
      | bracket :: front =>
        -- A line end among the blanks in front of the group does no harm.
        let front := Text.trimEnd front.reverse
        if bracket = opening ∧ front.all (fun c => !Text.isLineEnd c) then
          some (front, inside.reverse)
        else none

/-- Whether a text is an address and nothing else: two parts around an `@` that have no blank,
no bracket and no other `@`. -/
def isBareAddress (text : List Char) : Bool :=
  let isPlain (c : Char) : Bool := !Text.isBlank c && c != '<' && c != '>' && c != '@'
  match text.dropWhile isPlain with
  | '@' :: domain => !(text.takeWhile isPlain).isEmpty && !domain.isEmpty && domain.all isPlain
  | _ => false

/-- The parts of a text whose email address is known to be `email`. -/
def withEmail (email text : List Char) : Identity :=
  match cutGroup? '(' ')' text with
  | some (name, comment) =>
    ⟨String.ofList (Text.trim name), String.ofList email, String.ofList comment⟩
  | none => ⟨String.ofList (Text.trim text), String.ofList email, ""⟩

/-- The parts of a user ID text. -/
def ofText (text : List Char) : Identity :=
  let trimmed := Text.trim text
  match cutGroup? '<' '>' trimmed with
  | some (front, inside) => withEmail (Text.trim inside) front
  | none =>
    if isBareAddress trimmed then ⟨"", String.ofList trimmed, ""⟩ else withEmail [] trimmed

end Identity

/-- The view of a user ID packet. -/
structure UserId where
  /-- The packet tag. -/
  tag : Binary64
  /-- The text as decoded. -/
  text : String
  /-- The parts of the text. -/
  identity : Identity
  deriving DecidableEq

/-- Views a user ID packet. -/
def UserId.ofPacket (packet : RawPacket) : UserId :=
  let text := Text.Utf8.decode packet.body
  ⟨packet.tag, String.ofList text, Identity.ofText text⟩

end PgpInspect
