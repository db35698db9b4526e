import PgpInspect.Packet.UserId

/-!
# Keys

The metadata of a key: what its packets say about it and what is derived from that. A primary key
has identities and subkeys; a subkey has neither. Times are in seconds since the epoch, and 0 as
expiry means that the key does not expire.
-/

namespace PgpInspect

/-- The validity of a key. Only `unknown` and `expired` are ever derived here; the other codes are
those of key listings and say that somebody else judged the key. -/
inductive Validity where
  /-- No code. -/
  | unset
  /-- Not evaluated. -/
  | unknown
  /-- Expired. -/
  | expired
  /-- Revoked. -/
  | revoked
  /-- Disabled. -/
  | disabled
  /-- Invalid. -/
  | invalid
  /-- Not valid. -/
  | never
  /-- Marginally valid. -/
  | marginal
  /-- Fully valid. -/
  | full
  /-- Ultimately valid. -/
  | ultimate
  /-- Without a validity. -/
  | none
  /-- Undefined. -/
  | undefined
  /-- New to the keyring. -/
  | new
  /-- A code that key listings do not have. -/
  | unlisted (code : String)
  deriving DecidableEq

namespace Validity

/-- The validities of key listings. -/
def all : List Validity :=
  [unset, unknown, expired, revoked, disabled, invalid, never, marginal, full, ultimate, none,
    undefined, new]

/-- The code of a validity. -/
def code : Validity → String
  | unset => ""
  | unknown => "?"
  | expired => "e"
  | revoked => "r"
  | disabled => "d"
  | invalid => "i"
  | never => "n"
  | marginal => "m"
  | full => "f"
  | ultimate => "u"
  | none => "-"
  | undefined => "q"
  | new => "o"
  | unlisted code => code

/-- The validity with a code. -/
def ofCode (code : String) : Validity :=
  (all.find? fun validity => validity.code == code).getD (unlisted code)

/-- Whether nobody has judged the key. -/
def isOpen (validity : Validity) : Bool := validity = unset || validity = unknown

end Validity

/-- The metadata of a primary key or a subkey. -/
structure Key where
  /-- The fingerprint. -/
  fingerprint : String := "MISSING"
  /-- The letters of what the key may be used for: `c` certify, `s` sign, `e` encrypt,
  `a` authenticate; after a `+` those that come from subkeys. -/
  capabilities : String := ""
  /-- The label of the public-key algorithm. -/
  algorithmLabel : String := "unknown"
  /-- The number of the public-key algorithm. -/
  algorithm : Binary64 := 0
  /-- The key size in bits. -/
  size : Binary64 := 0
  /-- When the key was made. -/
  created : Binary64 := 0
  /-- When the key expires, 0 for never. -/
  expires : Binary64 := 0
  /-- The validity. -/
  validity : Validity := .unknown
  /-- The identities. -/
  identities : List Identity := []
  /-- The subkeys. -/
  subkeys : List Key := []
  /-- Whether the key is a subkey. -/
  isSubkey : Bool := false
  /-- Whether a caller keeps the key on a keyring. -/
  onKeychain : Bool := false
  deriving Inhabited

/-- Whether the expiry of a key is set and `now` is after it. -/
def Key.isExpired (key : Key) (now : Binary64) : Bool := 0 < key.expires && key.expires < now

/-- A claim from elsewhere that an email address belongs to a key. -/
structure IdentityClaim where
  /-- The email address. -/
  email : String
  /-- Where the claim comes from. -/
  origin : String

end PgpInspect
