import PgpInspect.Binary64.Decimal
import PgpInspect.Key
import PgpInspect.Text.Units

/-!
# Describing keys

Views of a key for readers: whether it has expired and is usable at a time, a one-line summary, and
a description of a primary key with its identities and subkeys.
-/

namespace PgpInspect

/-- The display form of an identity: name, email address in angle brackets and comment in
parentheses, without those that are empty. -/
def Identity.display (identity : Identity) : String :=
  let parts :=
    [ (identity.name, identity.name),
      (identity.email, "<" ++ identity.email ++ ">"),
      (identity.comment, "(" ++ identity.comment ++ ")") ]
  String.intercalate " " ((parts.filter fun part => !part.1.isEmpty).map (·.2))

namespace Key

/-- Whether nobody has judged a key and it has not expired. -/
def isUsable (key : Key) (now : Binary64) : Bool := key.validity.isOpen && !key.isExpired now

/-- Whether a key is usable and has the letter for encryption. -/
def canEncrypt (key : Key) (now : Binary64) : Bool :=
  key.capabilities.toList.contains 'e' && key.isUsable now

/-- Whether a key is usable and has the letter for signatures. -/
def canSign (key : Key) (now : Binary64) : Bool :=
  key.capabilities.toList.contains 's' && key.isUsable now

/-- The part of the fingerprint that a summary shows. -/
def shownFingerprint (key : Key) (whole : Bool) : List Char :=
  if whole then key.fingerprint.toList else Text.lastUnits 16 key.fingerprint.toList

/-- The one-line summary of a key at `now`: fingerprint or its last sixteen digits, email addresses
after `=`, expiry after `<`, algorithm and size, letters, and `!` for a key that is not usable. -/
def summary (key : Key) (wholeFingerprint : Bool) (now : Binary64) : String :=
  let emails := String.intercalate "," ((key.identities.map (·.email)).filter fun e => !e.isEmpty)
  String.join
    [ String.ofList (key.shownFingerprint wholeFingerprint),
      if emails.isEmpty then "" else "=" ++ emails,
      if key.expires = 0 ∨ key.expires = .undefined then "" else "<" ++ key.expires.hexText,
      "/",
      String.ofList (Text.takeUnits 3 key.algorithmLabel.toList),
      key.size.text,
      "/",
      key.capabilities,
      if key.isUsable now then "" else "!" ]

end Key

/-- The description of a key without identities and subkeys. -/
structure KeyFacts where
  /-- The key that is described. -/
  key : Key
  /-- Whether it has expired. -/
  expired : Bool
  /-- Whether it is usable. -/
  usable : Bool
  /-- Whether it can be used for encryption. -/
  canEncrypt : Bool
  /-- Whether it can be used for signatures. -/
  canSign : Bool
  /-- The one-line summary. -/
  summary : String

/-- The description of a primary key. -/
structure KeyDescription where
  /-- The facts about the key itself. -/
  facts : KeyFacts
  /-- The identities with their display forms. -/
  identities : List (Identity × String)
  /-- The facts about the subkeys. -/
  subkeys : List KeyFacts

namespace Key

/-- The facts about a key at `now`. -/
def facts (key : Key) (wholeFingerprint : Bool) (now : Binary64) : KeyFacts :=
  { key
    expired := key.isExpired now
    usable := key.isUsable now
    canEncrypt := key.canEncrypt now
    canSign := key.canSign now
    summary := key.summary wholeFingerprint now }

/-- The description of a primary key at `now`. -/
def describe (key : Key) (wholeFingerprint : Bool) (now : Binary64) : KeyDescription :=
  { facts := key.facts wholeFingerprint now
    identities := key.identities.map fun identity => (identity, identity.display)
    subkeys := key.subkeys.map fun subkey => subkey.facts wholeFingerprint now }

end Key

/-- The members of a reply that tell the facts about a key. -/
def KeyFacts.members (facts : KeyFacts) : Members :=
  [ ("fingerprint", .string facts.key.fingerprint),
    ("capabilities", .string facts.key.capabilities),
    ("keytypeName", .string facts.key.algorithmLabel),
    ("keytypeCode", .number facts.key.algorithm),
    ("keysize", .number facts.key.size),
    ("created", .number facts.key.created),
    ("expires", .number facts.key.expires),
    ("validity", .string facts.key.validity.code),
    ("expired", .bool facts.expired),
    ("usable", .bool facts.usable),
    ("canEncrypt", .bool facts.canEncrypt),
    ("canSign", .bool facts.canSign),
    ("summary", .string facts.summary) ]

/-- An identity and its display form in a reply. -/
def Identity.toJson (identity : Identity) (display : String) : Json :=
  .object
    [ ("name", .string identity.name), ("email", .string identity.email),
      ("comment", .string identity.comment), ("display", .string display) ]

/-- The description of a primary key in a reply. -/
def KeyDescription.toJson (description : KeyDescription) : Json :=
  .object (description.facts.members ++
    [ ("onKeychain", .bool description.facts.key.onKeychain),
      ("uids", .array (description.identities.map fun (identity, display) =>
        identity.toJson display)),
      ("subkeys", .array (description.subkeys.map fun facts => .object facts.members)) ])

end PgpInspect
