import Mathlib.Data.Finset.Card
import Mathlib.Data.Finset.SDiff
import PgpInspect.Proofs.Key.Claims

/-!
# Identities under claims

Identities and claims are compared by their addresses, which are email addresses in the form that
`normalizeEmail` gives them. Any number of claims keeps the identities of a key in their order and
adds one identity for each address that claims are about and none of the identities has
(`Key.unmatchedAddresses`), whatever the order of the claims and however often an address comes
again. So claims damage no identity and double none (`Key.reconciles_applyClaims`).

What is added for claims, `Key.addedBy`, is a function of the identities and the claims, and the
facts about it follow its recursion: the identity that the first claim adds counts among those that
the other claims find.
-/

namespace PgpInspect

/-- The address of an identity, in the form in which addresses are compared. -/
def Identity.address (identity : Identity) : String := normalizeEmail identity.email

/-- The address that a claim is about, in the form in which addresses are compared. -/
def IdentityClaim.address (claim : IdentityClaim) : String := normalizeEmail claim.email

namespace Key

variable {key : Key} {claim : IdentityClaim} {claims : List IdentityClaim} {identity : Identity}
  {identities : List Identity}

/-- An identity has the address that a claim is about if the two are the same. -/
theorem matchesClaim_iff : matchesClaim claim identity = true ↔ identity.address = claim.address :=
  beq_iff_eq

/-! ## Identities that were there -/

/-- An identity that claims have kept. -/
structure KeptUnder (claims : List IdentityClaim) (identity identity' : Identity) : Prop where
  /-- The name stays. -/
  name_eq : identity'.name = identity.name
  /-- The email address stays. -/
  email_eq : identity'.email = identity.email
  /-- The comment stays, and more may come behind it. -/
  comment_prefix : identity.comment.toList <+: identity'.comment.toList
  /-- Everything stays if no claim is about the address. -/
  eq_of_unclaimed : (∀ claim ∈ claims, claim.address ≠ identity.address) → identity' = identity

/-- A claim about another address leaves an identity as it is. -/
theorem underClaim_of_address_ne (h : claim.address ≠ identity.address) :
    underClaim claim identity = identity :=
  underClaim_eq_self_iff.mpr fun hmatches => absurd (matchesClaim_iff.mp hmatches).symm h

/-- Claims about other addresses leave an identity as it is. -/
theorem underClaims_of_address_ne (h : ∀ claim ∈ claims, claim.address ≠ identity.address) :
    underClaims claims identity = identity := by
  induction claims with
  | nil => rfl
  | cons claim rest ih =>
    rw [underClaims_cons, underClaim_of_address_ne (h claim List.mem_cons_self)]
    exact ih fun other hother => h other (List.mem_cons_of_mem _ hother)

/-- Claims keep an identity. -/
theorem keptUnder_underClaims (claims : List IdentityClaim) (identity : Identity) :
    KeptUnder claims identity (underClaims claims identity) := by
  obtain ⟨origins, hadds⟩ := exists_addsMarks claims identity
  refine ⟨?_, email_underClaims claims identity, ?_, underClaims_of_address_ne⟩
  · rw [hadds.eq]
  · rw [hadds.eq, String.toList_append]
    exact List.prefix_append _ _

/-- Claims keep the address of an identity. -/
@[simp]
theorem address_underClaims (claims : List IdentityClaim) (identity : Identity) :
    (underClaims claims identity).address = identity.address :=
  congrArg normalizeEmail (email_underClaims claims identity)

/-! ## Identities that are added -/

/-- The addresses that claims are about and none of the identities has. -/
def unmatchedAddresses (claims : List IdentityClaim) (identities : List Identity) :
    Finset String :=
  (claims.map IdentityClaim.address).toFinset \ (identities.map Identity.address).toFinset

/-- Identities that are added have no name, and the address of a claim. -/
theorem name_and_claim_of_mem_addedBy {new : Identity} (h : new ∈ addedBy identities claims) :
    new.name = "" ∧ ∃ claim ∈ claims, claim.address = new.address := by
  induction claims generalizing identities with
  | nil => cases h
  | cons claim rest ih =>
    rcases List.mem_append.mp h with hfirst | hrest
    · unfold addedFor at hfirst
      split at hfirst
      · cases hfirst
      · rw [List.mem_singleton.mp hfirst]
        exact ⟨rfl, claim, List.mem_cons_self, rfl⟩
    · obtain ⟨hname, other, hother, haddress⟩ := ih hrest
      exact ⟨hname, other, List.mem_cons_of_mem _ hother, haddress⟩

/-- The addresses that are added are those that no identity has. -/
theorem toFinset_address_addedBy (claims : List IdentityClaim) (identities : List Identity) :
    ((addedBy identities claims).map Identity.address).toFinset =
      unmatchedAddresses claims identities := by
  ext address
  rw [unmatchedAddresses, Finset.mem_sdiff, List.mem_toFinset, List.mem_toFinset, List.mem_toFinset]
  constructor
  · intro haddress
    obtain ⟨new, hnew, rfl⟩ := List.mem_map.mp haddress
    obtain ⟨-, claim, hclaim, hsame⟩ := name_and_claim_of_mem_addedBy hnew
    refine ⟨List.mem_map.mpr ⟨claim, hclaim, hsame⟩, fun hthere => ?_⟩
    obtain ⟨identity, hidentity, hold⟩ := List.mem_map.mp hthere
    exact address_ne_of_mem_addedBy hnew hidentity hold
  · rintro ⟨hclaimed, hmissing⟩
    obtain ⟨claim, hclaim, rfl⟩ := List.mem_map.mp hclaimed
    obtain ⟨identity, hidentity, hmatches⟩ := exists_matches_addedBy hclaim identities
    have haddress := matchesClaim_iff.mp hmatches
    rcases List.mem_append.mp hidentity with hold | hnew
    · exact absurd (List.mem_map.mpr ⟨identity, hold, haddress⟩) hmissing
    · exact List.mem_map.mpr ⟨identity, hnew, haddress⟩

/-- No address is added twice. -/
theorem nodup_address_addedBy (claims : List IdentityClaim) (identities : List Identity) :
    ((addedBy identities claims).map Identity.address).Nodup := by
  induction claims generalizing identities with
  | nil => exact List.nodup_nil
  | cons claim rest ih =>
    rw [addedBy, List.map_append]
    refine List.nodup_append.mpr ⟨?_, ih _, ?_⟩
    · unfold addedFor
      split
      · exact List.nodup_nil
      · exact List.nodup_singleton _
    · -- What the first claim adds is there when the others come.
      rintro _ hfirst _ hrest
      obtain ⟨new, hnew, rfl⟩ := List.mem_map.mp hfirst
      obtain ⟨other, hother, rfl⟩ := List.mem_map.mp hrest
      exact address_ne_of_mem_addedBy hother (List.mem_append_right _ hnew)

/-! ## All identities of a key -/

/-- What claims make of the identities of a key: those that were there stay in front, and behind
them there is one for each address that was missing. -/
structure Reconciles (claims : List IdentityClaim) (identities identities' : List Identity) :
    Prop where
  /-- The identities that were there are kept in their order. -/
  kept : List.Forall₂ (KeptUnder claims) identities (identities'.take identities.length)
  /-- Behind them, there is an identity for each address that claims are about and none had. -/
  length_added : (identities'.drop identities.length).length =
    (unmatchedAddresses claims identities).card
  /-- These identities have no names. -/
  name_added : ∀ new ∈ identities'.drop identities.length, new.name = ""
  /-- Their addresses are different. -/
  nodup_added : ((identities'.drop identities.length).map Identity.address).Nodup
  /-- None of them has the address of an identity that was there. -/
  fresh_added : ∀ new ∈ identities'.drop identities.length, ∀ identity ∈ identities,
    identity.address ≠ new.address
  /-- Every claim is about the address of an identity. -/
  recorded : ∀ claim ∈ claims, ∃ identity ∈ identities', identity.address = claim.address

/-- After any claims, a key that is no subkey has its identities, with what claims wrote behind
their comments, and one identity more for each address that was missing; nothing else of it has
changed. -/
theorem reconciles_applyClaims (h : key.isSubkey = false) (claims : List IdentityClaim) :
    Reconciles claims key.identities (key.applyClaims claims).identities ∧
      key.applyClaims claims = { key with identities := (key.applyClaims claims).identities } := by
  have happlied := applyClaims_eq h claims
  obtain ⟨added, hadded⟩ : ∃ added,
      added = (addedBy key.identities claims).map (underClaims claims) := ⟨_, rfl⟩
  have hidentities : (key.applyClaims claims).identities =
      key.identities.map (underClaims claims) ++ added := by
    rw [happlied, hadded, ← List.map_append]
    rfl
  have hlength : key.identities.length = (key.identities.map (underClaims claims)).length := by
    rw [List.length_map]
  have htake : (key.applyClaims claims).identities.take key.identities.length =
      key.identities.map (underClaims claims) := by rw [hidentities, hlength, List.take_left]
  have hdrop : (key.applyClaims claims).identities.drop key.identities.length = added := by
    rw [hidentities, hlength, List.drop_left]
  have haddresses : added.map Identity.address =
      (addedBy key.identities claims).map Identity.address := by
    rw [hadded, List.map_map]
    exact List.map_congr_left fun new _ => address_underClaims claims new
  have hnodup := nodup_address_addedBy claims key.identities
  refine ⟨⟨?_, ?_, ?_, ?_, ?_, ?_⟩, ?_⟩
  · rw [htake]
    apply List.forall₂_map_right_iff.mpr
    exact List.forall₂_same.mpr fun identity _ => keptUnder_underClaims claims identity
  · rw [hdrop, ← toFinset_address_addedBy, List.toFinset_card_of_nodup hnodup, ← haddresses,
      List.length_map]
  · rw [hdrop, hadded, List.forall_mem_map]
    intro new hnew
    rw [(keptUnder_underClaims claims new).name_eq]
    exact (name_and_claim_of_mem_addedBy hnew).1
  · rw [hdrop, haddresses]
    exact hnodup
  · rw [hdrop, hadded, List.forall_mem_map]
    intro new hnew identity hidentity
    rw [address_underClaims]
    exact address_ne_of_mem_addedBy hnew hidentity
  · intro claim hclaim
    obtain ⟨identity, hidentity, hmatches⟩ := exists_matches_addedBy hclaim key.identities
    refine ⟨underClaims claims identity, ?_, ?_⟩
    · rw [hidentities, hadded, ← List.map_append]
      exact List.mem_map_of_mem hidentity
    · rw [address_underClaims, matchesClaim_iff.mp hmatches]
  · rw [happlied]
    rfl

/-- A claim about an address that `workKey` does not have. -/
def privateClaim : IdentityClaim := ⟨"ALICE@example.net", "Autocrypt"⟩

/-- Of three claims one is about the address that is there, and the others add one identity. -/
theorem reconciles_workKey : workKey.isSubkey = false ∧
    (workKey.applyClaims [privateClaim, directoryClaim,
      ⟨"\talice@example.net", "WKD"⟩]).identities =
        [⟨"Alice", "alice@example.org", "work(WKD)"⟩,
          ⟨"", "ALICE@example.net", "Autocrypt(WKD)"⟩] ∧
    Reconciles [privateClaim, directoryClaim, ⟨"\talice@example.net", "WKD"⟩] workKey.identities
      (workKey.applyClaims [privateClaim, directoryClaim,
        ⟨"\talice@example.net", "WKD"⟩]).identities :=
  ⟨rfl, by decide +kernel, (reconciles_applyClaims rfl _).1⟩

end Key

end PgpInspect
