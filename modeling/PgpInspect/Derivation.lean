import PgpInspect.Key
import PgpInspect.Key.Capability
import PgpInspect.Text.Blank
import PgpInspect.Text.LowerCase
import PgpInspect.Text.Search

/-!
# Deriving what follows from assembled keys

After a stream is read, three things are derived for each of its keys, all at one time `now`: that
it has expired, the capabilities of its subkeys that have not, and the identity that a claim from
elsewhere gives it. Running the derivation again changes nothing.
-/

namespace PgpInspect

/-- The form of an email address in which addresses are compared. -/
def normalizeEmail (email : String) : String :=
  String.ofList (Text.lower (Text.trim email.toList))

namespace Key

/-- Marks a key that nobody has judged and that has expired. -/
def synthesizeValidity (key : Key) (now : Binary64) : Key :=
  if key.isExpired now && key.validity.isOpen then { key with validity := .expired }
  else key

/-- The own letters of the subkeys that have not expired. -/
def inheritedLetters (key : Key) (now : Binary64) : List String :=
  (key.subkeys.filter fun subkey => !subkey.isExpired now).flatMap fun subkey =>
    Capability.lettersOf (Capability.own subkey.capabilities)

/-- Puts the letters of the subkeys behind the own letters of a key, in place of those put there
before. A key whose subkeys have no letters stays as it is. -/
def inheritCapabilities (key : Key) (now : Binary64) : Key :=
  let inherited := key.inheritedLetters now
  if inherited.isEmpty then key
  else
    { key with
      capabilities := Capability.own key.capabilities ++ "+" ++ Capability.arrange inherited }

/-- The mark that a claim leaves in the comment of an identity. -/
def claimMark (claim : IdentityClaim) : String := "(" ++ claim.origin ++ ")"

/-- Marks an identity with a claim, unless the comment is the origin or has the mark already. -/
def markIdentity (claim : IdentityClaim) (identity : Identity) : Identity :=
  if identity.comment = claim.origin ∨
      Text.occursIn (claimMark claim).toList identity.comment.toList then identity
  else { identity with comment := identity.comment ++ claimMark claim }

/-- Whether an identity has the address that a claim is about. -/
def matchesClaim (claim : IdentityClaim) (identity : Identity) : Bool :=
  normalizeEmail identity.email == normalizeEmail claim.email

/-- Reconciles a claim with the identities of a key: those with the address are marked, and if
there is none, one is added. Subkeys have no identities to reconcile. -/
def applyClaim (key : Key) (claim : IdentityClaim) : Key :=
  if key.isSubkey then key
  else if key.identities.any (matchesClaim claim) then
    { key with
      identities := key.identities.map fun identity =>
        if matchesClaim claim identity then markIdentity claim identity else identity }
  else
    { key with identities := key.identities ++ [⟨"", claim.email, claim.origin⟩] }

/-- Derives everything for one key. -/
def derive (key : Key) (now : Binary64) (claim : Option IdentityClaim) : Key :=
  let key := (key.synthesizeValidity now).inheritCapabilities now
  match claim with
  | some claim => key.applyClaim claim
  | none => key

end Key

/-- Derives everything for the keys of a stream. -/
def deriveKeys (keys : List Key) (now : Binary64) (claim : Option IdentityClaim) : List Key :=
  keys.map fun key => key.derive now claim

end PgpInspect
