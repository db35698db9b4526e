import Mathlib.Data.List.Forall2
import Mathlib.Data.List.Induction
import Mathlib.Data.List.Nodup
import PgpInspect.Derivation

/-!
# Claims one after another

A claim from elsewhere is recorded in the comments of identities: as the whole comment of an
identity that is added for it, or as a mark behind the comment of each that has its address. After
any number of claims, the identities of a key are those that it had and those that were added, each
under all claims (`Key.applyClaims_eq`). A mark is never added to a comment that has it, so a claim
that left a mark is recorded for good.

A claim that was recognised by the whole comment is not: the mark of another claim behind the comment
hides it, and when it comes again it is marked too (`Key.applyClaims_hidden`). Nothing else can make
a claim count twice, which is the main statement (`Key.applyClaim_applyClaims_eq_iff`).
-/

namespace PgpInspect

namespace Key

variable {claim : IdentityClaim} {identity : Identity}

/-! ## One claim and one identity -/

/-- An identity tells that a claim was recorded: its comment is the origin or has the mark. -/
def Carries (claim : IdentityClaim) (identity : Identity) : Prop :=
  identity.comment = claim.origin ∨ (claimMark claim).toList <:+: identity.comment.toList

/-- An identity that carries a claim is not marked with it. -/
theorem markIdentity_of_carries (h : Carries claim identity) :
    markIdentity claim identity = identity :=
  if_pos (h.imp_right (Text.occursIn_iff _ _).mpr)

/-- An identity that does not carry a claim is marked with it. -/
theorem markIdentity_of_not_carries (h : ¬ Carries claim identity) :
    markIdentity claim identity =
      { identity with comment := identity.comment ++ claimMark claim } :=
  if_neg (mt (Or.imp_right (Text.occursIn_iff _ _).mp) h)

/-- A marked identity carries the claim. -/
theorem carries_markIdentity (claim : IdentityClaim) (identity : Identity) :
    Carries claim (markIdentity claim identity) := by
  by_cases h : Carries claim identity
  · rw [markIdentity_of_carries h]
    exact h
  · rw [markIdentity_of_not_carries h]
    refine .inr ?_
    rw [String.toList_append]
    exact (List.suffix_append _ _).isInfix

/-- The identities that marking leaves as they are carry the claim. -/
theorem markIdentity_eq_self_iff : markIdentity claim identity = identity ↔ Carries claim identity :=
  ⟨fun h => h ▸ carries_markIdentity claim identity, markIdentity_of_carries⟩

/-- An identity under a claim: marked if it has the address. -/
def underClaim (claim : IdentityClaim) (identity : Identity) : Identity :=
  if matchesClaim claim identity then markIdentity claim identity else identity

/-- Marking adds to the comment only. -/
theorem exists_underClaim_eq (claim : IdentityClaim) (identity : Identity) :
    ∃ added, underClaim claim identity = { identity with comment := identity.comment ++ added } := by
  unfold underClaim
  split
  · by_cases h : Carries claim identity
    · exact ⟨"", by rw [markIdentity_of_carries h, String.append_empty]⟩
    · exact ⟨_, markIdentity_of_not_carries h⟩
  · exact ⟨"", by rw [String.append_empty]⟩

/-- The address stays as it is. -/
@[simp]
theorem email_underClaim (claim : IdentityClaim) (identity : Identity) :
    (underClaim claim identity).email = identity.email := by
  obtain ⟨added, hadded⟩ := exists_underClaim_eq claim identity
  rw [hadded]

/-- Whether an identity has the address of a claim shows before and after any claim. -/
theorem matchesClaim_underClaim (other claim : IdentityClaim) (identity : Identity) :
    matchesClaim claim (underClaim other identity) = matchesClaim claim identity := by
  unfold matchesClaim
  rw [email_underClaim]

/-- The identities that a claim leaves as they are have another address or carry it. -/
theorem underClaim_eq_self_iff : underClaim claim identity = identity ↔
    (matchesClaim claim identity = true → Carries claim identity) := by
  unfold underClaim
  split
  · next hmatches => simp [hmatches, markIdentity_eq_self_iff]
  · next hmatches => simp [hmatches]

/-- An identity under a claim carries it if it has the address. -/
theorem carries_underClaim (h : matchesClaim claim identity = true) :
    Carries claim (underClaim claim identity) := by
  rw [underClaim, if_pos h]
  exact carries_markIdentity claim identity

/-! ## All claims and one identity -/

/-- An identity under claims, one after another. -/
def underClaims (claims : List IdentityClaim) (identity : Identity) : Identity :=
  claims.foldl (fun identity claim => underClaim claim identity) identity

/-- Without claims an identity stays as it is. -/
theorem underClaims_nil (identity : Identity) : underClaims [] identity = identity := rfl

/-- The first claim comes before the others. -/
theorem underClaims_cons (claim : IdentityClaim) (rest : List IdentityClaim)
    (identity : Identity) :
    underClaims (claim :: rest) identity = underClaims rest (underClaim claim identity) := by
  rw [underClaims, List.foldl_cons, underClaims]

/-- Claims come in order. -/
theorem underClaims_append (claims more : List IdentityClaim) (identity : Identity) :
    underClaims (claims ++ more) identity = underClaims more (underClaims claims identity) :=
  List.foldl_append

/-- The last claim comes after the others. -/
theorem underClaims_concat (claims : List IdentityClaim) (claim : IdentityClaim)
    (identity : Identity) :
    underClaims (claims ++ [claim]) identity = underClaim claim (underClaims claims identity) := by
  rw [underClaims_append, underClaims_cons, underClaims_nil]

/-- The address stays as it is. -/
@[simp]
theorem email_underClaims (claims : List IdentityClaim) (identity : Identity) :
    (underClaims claims identity).email = identity.email := by
  induction claims generalizing identity with
  | nil => rfl
  | cons claim rest ih => rw [underClaims_cons, ih, email_underClaim]

/-- Whether an identity has the address of a claim shows before and after any claims. -/
theorem matchesClaim_underClaims (claims : List IdentityClaim) (claim : IdentityClaim)
    (identity : Identity) :
    matchesClaim claim (underClaims claims identity) = matchesClaim claim identity := by
  unfold matchesClaim
  rw [email_underClaims]

/-- The mark of an origin. -/
def originMark (origin : String) : String := "(" ++ origin ++ ")"

/-- The mark of a claim is that of its origin. -/
theorem claimMark_eq (claim : IdentityClaim) : claimMark claim = originMark claim.origin := rfl

/-- The marks of origins, one after another. -/
def marksOf (origins : List String) : String := String.join (origins.map originMark)

/-- One origin more adds its mark. -/
theorem marksOf_concat (origins : List String) (origin : String) :
    marksOf (origins ++ [origin]) = marksOf origins ++ originMark origin := by
  apply String.toList_injective
  simp [marksOf, String.toList_join]

/-- The mark of one of the origins is among their marks. -/
theorem originMark_infix_marksOf {origins : List String} {origin : String} (h : origin ∈ origins) :
    (originMark origin).toList <:+: (marksOf origins).toList := by
  obtain ⟨before, after, rfl⟩ := List.append_of_mem h
  rw [marksOf, String.toList_join]
  exact ⟨(before.map originMark).flatMap String.toList, (after.map originMark).flatMap String.toList,
    by simp⟩

/-- What claims make of an identity: they add marks of different origins behind its comment, none of
which the comment has, and leave the rest of the identity alone. -/
structure AddsMarks (claims : List IdentityClaim) (identity : Identity) (origins : List String)
    (identity' : Identity) : Prop where
  /-- The marks come behind the comment. -/
  eq : identity' = { identity with comment := identity.comment ++ marksOf origins }
  /-- No mark is added twice. -/
  nodup : origins.Nodup
  /-- No mark is added to a comment that has it. -/
  fresh : ∀ origin ∈ origins, ¬ (originMark origin).toList <:+: identity.comment.toList
  /-- The marks are those of claims about the address of the identity. -/
  claimed : ∀ origin ∈ origins, ∃ claim ∈ claims, claim.origin = origin ∧
    matchesClaim claim identity = true

variable {claims : List IdentityClaim} {origins : List String}

/-- A claim about another address, or one that is carried, adds no mark. -/
theorem AddsMarks.concat_kept (h : AddsMarks claims identity origins (underClaims claims identity))
    (hkept : matchesClaim claim (underClaims claims identity) = true →
      Carries claim (underClaims claims identity)) :
    AddsMarks (claims ++ [claim]) identity origins (underClaims (claims ++ [claim]) identity) where
  eq := by rw [underClaims_concat, underClaim_eq_self_iff.mpr hkept, h.eq]
  nodup := h.nodup
  fresh := h.fresh
  claimed origin horigin := by
    obtain ⟨other, hother, hadded⟩ := h.claimed origin horigin
    exact ⟨other, List.mem_append_left _ hother, hadded⟩

/-- A claim about the address that is not carried adds its mark. -/
theorem AddsMarks.concat_marked
    (h : AddsMarks claims identity origins (underClaims claims identity))
    (hmatches : matchesClaim claim identity = true)
    (hcarries : ¬ Carries claim (underClaims claims identity)) :
    AddsMarks (claims ++ [claim]) identity (origins ++ [claim.origin])
      (underClaims (claims ++ [claim]) identity) := by
  -- Both the comment as it was and the marks behind it are without the new mark.
  have hnew : ¬ (originMark claim.origin).toList <:+:
      identity.comment.toList ++ (marksOf origins).toList := by
    rw [← String.toList_append]
    intro hoccurs
    refine hcarries (.inr ?_)
    rw [h.eq]
    exact hoccurs
  refine ⟨?_, ?_, ?_, ?_⟩
  · rw [underClaims_concat, underClaim, matchesClaim_underClaims, if_pos hmatches,
      markIdentity_of_not_carries hcarries, h.eq, marksOf_concat, String.append_assoc, claimMark_eq]
  · have hother : claim.origin ∉ origins := fun horigin =>
      hnew ((originMark_infix_marksOf horigin).trans (List.suffix_append _ _).isInfix)
    rw [List.nodup_append_comm]
    exact List.nodup_cons.mpr ⟨hother, h.nodup⟩
  · intro origin horigin
    rcases List.mem_append.mp horigin with hearlier | hlast
    · exact h.fresh origin hearlier
    · rw [List.mem_singleton.mp hlast]
      exact fun hoccurs => hnew (hoccurs.trans (List.prefix_append _ _).isInfix)
  · intro origin horigin
    rcases List.mem_append.mp horigin with hearlier | hlast
    · obtain ⟨other, hother, hadded⟩ := h.claimed origin hearlier
      exact ⟨other, List.mem_append_left _ hother, hadded⟩
    · exact ⟨claim, List.mem_append_right _ (List.mem_singleton_self claim),
        (List.mem_singleton.mp hlast).symm, hmatches⟩

/-- What claims do to an identity is to add marks. -/
theorem exists_addsMarks (claims : List IdentityClaim) (identity : Identity) :
    ∃ origins, AddsMarks claims identity origins (underClaims claims identity) := by
  induction claims using List.reverseRecOn with
  | nil =>
    refine ⟨[], ?_, List.nodup_nil, nofun, nofun⟩
    show identity = { identity with comment := identity.comment ++ "" }
    rw [String.append_empty]
  | append_singleton claims claim ih =>
    obtain ⟨origins, hadds⟩ := ih
    by_cases hkept : matchesClaim claim (underClaims claims identity) = true →
        Carries claim (underClaims claims identity)
    · exact ⟨origins, hadds.concat_kept hkept⟩
    · obtain ⟨hmatches, hcarries⟩ := Classical.not_imp.mp hkept
      rw [matchesClaim_underClaims] at hmatches
      exact ⟨origins ++ [claim.origin], hadds.concat_marked hmatches hcarries⟩

/-- A mark stays in the comment under any claims. -/
theorem infix_comment_underClaims {mark : List Char} (h : mark <:+: identity.comment.toList)
    (claims : List IdentityClaim) : mark <:+: (underClaims claims identity).comment.toList := by
  obtain ⟨origins, hadds⟩ := exists_addsMarks claims identity
  rw [hadds.eq, String.toList_append]
  exact h.trans (List.prefix_append _ _).isInfix

/-! ## Hidden claims -/

/-- A claim among others that an identity told by its whole comment when it came, and that other
claims have hidden: the comment is not the origin any more, and does not happen to have the mark. -/
structure Hides (claims : List IdentityClaim) (claim : IdentityClaim) (identity : Identity) :
    Prop where
  /-- The claim is about the address of the identity. -/
  address : matchesClaim claim identity = true
  /-- The comment was the origin when the claim came. -/
  told : ∃ before after, claims = before ++ claim :: after ∧
    (underClaims before identity).comment = claim.origin
  /-- The comment is not the origin any more. -/
  comment_ne : (underClaims claims identity).comment ≠ claim.origin
  /-- The comment does not have the mark. -/
  unmarked : ¬ (claimMark claim).toList <:+: (underClaims claims identity).comment.toList

/-- After claims, an identity with the address of one of them carries it unless it is hidden. -/
theorem carries_underClaims_iff (hmem : claim ∈ claims)
    (hmatches : matchesClaim claim identity = true) :
    Carries claim (underClaims claims identity) ↔ ¬ Hides claims claim identity := by
  constructor
  · rintro (htold | hmarked) hhides
    · exact hhides.comment_ne htold
    · exact hhides.unmarked hmarked
  · intro hshown
    by_contra hcarries
    obtain ⟨hne, hunmarked⟩ := not_or.mp hcarries
    obtain ⟨before, after, hclaims⟩ := List.append_of_mem hmem
    have hafter : underClaims claims identity =
        underClaims after (underClaim claim (underClaims before identity)) := by
      rw [hclaims, underClaims_append, underClaims_cons]
    -- The claim left no mark when it came, since a mark would still be there.
    have hcame : Carries claim (underClaim claim (underClaims before identity)) := by
      apply carries_underClaim
      rw [matchesClaim_underClaims, hmatches]
    have hnone : ¬ (claimMark claim).toList <:+:
        (underClaim claim (underClaims before identity)).comment.toList := by
      intro hoccurs
      rw [hafter] at hunmarked
      exact hunmarked (infix_comment_underClaims hoccurs after)
    have htold : (underClaims before identity).comment = claim.origin := by
      by_cases hbefore : Carries claim (underClaims before identity)
      · rw [underClaim_eq_self_iff.mpr fun _ => hbefore] at hcame hnone
        exact hcame.resolve_right hnone
      · rw [underClaim, matchesClaim_underClaims, if_pos hmatches,
          markIdentity_of_not_carries hbefore] at hnone
        rw [String.toList_append] at hnone
        exact absurd (List.suffix_append _ _).isInfix hnone
    exact hshown ⟨hmatches, ⟨before, after, hclaims, htold⟩, hne, hunmarked⟩

/-! ## The identities of a key -/

/-- A key with other identities. -/
def withIdentities (key : Key) (identities : List Identity) : Key := { key with identities }

/-- The identity that is added for a claim if none has its address. -/
def addedFor (claim : IdentityClaim) (identities : List Identity) : List Identity :=
  if identities.any (matchesClaim claim) then [] else [⟨"", claim.email, claim.origin⟩]

/-- The identities that are added for claims, one after another. -/
def addedBy (identities : List Identity) : (claims : List IdentityClaim) → List Identity
  | [] => []
  | claim :: rest =>
    addedFor claim identities ++ addedBy (identities ++ addedFor claim identities) rest

/-- A key after claims, one after another. -/
def applyClaims (key : Key) (claims : List IdentityClaim) : Key := claims.foldl applyClaim key

variable {key : Key} {identities : List Identity}

/-- A claim leaves identities as they are exactly if those with its address carry it. -/
theorem map_underClaim_eq_self_iff : identities.map (underClaim claim) = identities ↔
    ∀ identity ∈ identities, matchesClaim claim identity = true → Carries claim identity := by
  calc identities.map (underClaim claim) = identities
      ↔ identities.map (underClaim claim) = identities.map id := by rw [List.map_id]
    _ ↔ ∀ identity ∈ identities, underClaim claim identity = id identity := List.map_inj_left
    _ ↔ _ := forall₂_congr fun _ _ => underClaim_eq_self_iff

/-- A claim adds an identity if none has its address, and comes to all of them. -/
theorem applyClaim_eq (h : key.isSubkey = false) (claim : IdentityClaim) :
    key.applyClaim claim = key.withIdentities
      ((key.identities ++ addedFor claim key.identities).map (underClaim claim)) := by
  unfold applyClaim addedFor
  rw [if_neg (by simp [h])]
  split
  · rw [List.append_nil]
    rfl
  · next hnone =>
    rw [List.any_eq_true, not_exists] at hnone
    have hkept : (key.identities ++ [(⟨"", claim.email, claim.origin⟩ : Identity)]).map
        (underClaim claim) = key.identities ++ [⟨"", claim.email, claim.origin⟩] := by
      apply map_underClaim_eq_self_iff.mpr
      intro identity hmem hmatches
      rcases List.mem_append.mp hmem with hold | hnew
      · exact absurd ⟨hold, hmatches⟩ (hnone identity)
      · rw [List.mem_singleton.mp hnew]
        exact .inl rfl
    rw [hkept]
    rfl

/-- After a claim there is an identity with its address. -/
theorem exists_matches_addedFor (claim : IdentityClaim) (identities : List Identity) :
    ∃ identity ∈ identities ++ addedFor claim identities, matchesClaim claim identity = true := by
  unfold addedFor
  split
  · next hany =>
    rw [List.append_nil]
    exact List.any_eq_true.mp hany
  · exact ⟨_, List.mem_append_right _ (List.mem_singleton_self _), by simp [matchesClaim]⟩

/-- Which identity is added for a claim depends on the addresses that there are. -/
theorem addedFor_congr {identities' : List Identity}
    (h : identities.map Identity.email = identities'.map Identity.email) (claim : IdentityClaim) :
    addedFor claim identities = addedFor claim identities' := by
  have hmatches : matchesClaim claim =
      (fun email => normalizeEmail email == normalizeEmail claim.email) ∘ Identity.email := rfl
  rw [addedFor, addedFor, hmatches, ← List.any_map, ← List.any_map, h]

/-- Which identities are added for claims depends on the addresses that there are. -/
theorem addedBy_congr {identities' : List Identity}
    (h : identities.map Identity.email = identities'.map Identity.email)
    (claims : List IdentityClaim) : addedBy identities claims = addedBy identities' claims := by
  induction claims generalizing identities identities' with
  | nil => rfl
  | cons claim rest ih =>
    have hmore : (identities ++ addedFor claim identities').map Identity.email =
        (identities' ++ addedFor claim identities').map Identity.email := by
      rw [List.map_append, List.map_append, h]
    rw [addedBy, addedBy, addedFor_congr h, ih hmore]

/-- An identity that is added has an address that was not there. -/
theorem address_ne_of_mem_addedBy {new : Identity} (hnew : new ∈ addedBy identities claims)
    (hmem : identity ∈ identities) : normalizeEmail identity.email ≠ normalizeEmail new.email := by
  induction claims generalizing identities with
  | nil => cases hnew
  | cons claim rest ih =>
    rcases List.mem_append.mp hnew with hfirst | hrest
    · unfold addedFor at hfirst
      split at hfirst
      · cases hfirst
      · next hnone =>
        rw [List.any_eq_true, not_exists] at hnone
        rw [List.mem_singleton.mp hfirst]
        intro hsame
        exact hnone identity ⟨hmem, beq_iff_eq.mpr hsame⟩
    · exact ih hrest (List.mem_append_left _ hmem)

/-- A claim leaves identities as they are that were added when its address was there. -/
theorem underClaim_of_mem_addedBy {new : Identity} (hnew : new ∈ addedBy identities claims)
    (h : ∃ identity ∈ identities, matchesClaim claim identity = true) :
    underClaim claim new = new := by
  obtain ⟨identity, hmem, hmatches⟩ := h
  refine underClaim_eq_self_iff.mpr fun hmatchesNew => ?_
  have hsame : normalizeEmail identity.email = normalizeEmail new.email :=
    (beq_iff_eq.mp hmatches).trans (beq_iff_eq.mp hmatchesNew).symm
  exact absurd hsame (address_ne_of_mem_addedBy hnew hmem)

/-- After claims, the identities of a key are those that it had and those that were added, under all
of the claims. -/
theorem applyClaims_eq (h : key.isSubkey = false) (claims : List IdentityClaim) :
    key.applyClaims claims = key.withIdentities
      ((key.identities ++ addedBy key.identities claims).map (underClaims claims)) := by
  induction claims generalizing key with
  | nil =>
    show key = key.withIdentities ((key.identities ++ []).map id)
    rw [List.append_nil, List.map_id]
    cases key
    rfl
  | cons claim rest ih =>
    obtain ⟨first, hfirst⟩ : ∃ first, first = key.identities ++ addedFor claim key.identities :=
      ⟨_, rfl⟩
    have hadded : addedBy key.identities (claim :: rest) =
        addedFor claim key.identities ++ addedBy first rest := by rw [addedBy, hfirst]
    -- The claim changes no address, so that the others add the same as without it.
    have hsame : addedBy (first.map (underClaim claim)) rest = addedBy first rest := by
      apply addedBy_congr
      simp [Function.comp_def]
    have hrest : (addedBy first rest).map (underClaims (claim :: rest)) =
        (addedBy first rest).map (underClaims rest) := by
      apply List.map_congr_left
      intro new hnew
      rw [hfirst] at hnew
      have hkept := underClaim_of_mem_addedBy hnew (exists_matches_addedFor claim key.identities)
      rw [underClaims_cons, hkept]
    have hnext : (key.withIdentities (first.map (underClaim claim))).isSubkey = false := h
    calc key.applyClaims (claim :: rest)
        = (key.applyClaim claim).applyClaims rest := rfl
      _ = (key.withIdentities (first.map (underClaim claim))).applyClaims rest := by
          rw [applyClaim_eq h, hfirst]
      _ = key.withIdentities ((first.map (underClaim claim) ++
            addedBy (first.map (underClaim claim)) rest).map (underClaims rest)) := ih hnext
      _ = key.withIdentities ((first ++ addedBy first rest).map (underClaims (claim :: rest))) := by
          have hcons : underClaims rest ∘ underClaim claim = underClaims (claim :: rest) :=
            funext fun identity => (underClaims_cons claim rest identity).symm
          rw [hsame, List.map_append, List.map_map, List.map_append, hrest, hcons]
      _ = _ := by rw [hadded, hfirst, List.append_assoc]

/-- After claims there is an identity with the address of each. -/
theorem exists_matches_addedBy (hmem : claim ∈ claims) (identities : List Identity) :
    ∃ identity ∈ identities ++ addedBy identities claims, matchesClaim claim identity = true := by
  induction claims generalizing identities with
  | nil => cases hmem
  | cons first rest ih =>
    rw [addedBy, ← List.append_assoc]
    rcases List.mem_cons.mp hmem with rfl | hrest
    · obtain ⟨identity, hidentity, hmatches⟩ := exists_matches_addedFor claim identities
      exact ⟨identity, List.mem_append_left _ hidentity, hmatches⟩
    · exact ih hrest _

/-- A claim that was recorded adds no identity when it comes again. -/
theorem addedFor_applyClaims (h : key.isSubkey = false) (hmem : claim ∈ claims) :
    addedFor claim (key.applyClaims claims).identities = [] := by
  obtain ⟨identity, hidentity, hmatches⟩ := exists_matches_addedBy hmem key.identities
  rw [applyClaims_eq h]
  refine if_pos (List.any_eq_true.mpr ⟨_, List.mem_map_of_mem hidentity, ?_⟩)
  rw [matchesClaim_underClaims, hmatches]

/-! ## A claim that comes again -/

/-- A claim that comes again after others changes nothing unless an identity hides it, and no claims
put a mark into a comment that has it, or put one there twice. -/
theorem applyClaim_applyClaims_eq_iff (h : key.isSubkey = false) (hmem : claim ∈ claims) :
    ((key.applyClaims claims).applyClaim claim = key.applyClaims claims ↔
      ∀ identity ∈ key.identities ++ addedBy key.identities claims,
        ¬ Hides claims claim identity) ∧
    List.Forall₂ (fun identity identity' => ∃ origins, AddsMarks claims identity origins identity')
      (key.identities ++ addedBy key.identities claims) (key.applyClaims claims).identities := by
  have hsubkey : (key.applyClaims claims).isSubkey = false := by
    rw [applyClaims_eq h]
    exact h
  constructor
  · rw [applyClaim_eq hsubkey, addedFor_applyClaims h hmem, List.append_nil, applyClaims_eq h]
    calc _ ↔ ((key.identities ++ addedBy key.identities claims).map (underClaims claims)).map
            (underClaim claim) =
              (key.identities ++ addedBy key.identities claims).map (underClaims claims) :=
          ⟨congrArg identities, congrArg key.withIdentities⟩
      _ ↔ ∀ identity ∈ key.identities ++ addedBy key.identities claims,
            matchesClaim claim identity = true → Carries claim (underClaims claims identity) := by
          rw [map_underClaim_eq_self_iff, List.forall_mem_map]
          simp only [matchesClaim_underClaims]
      _ ↔ _ := forall₂_congr fun identity _ =>
          ⟨fun hcarries hhides =>
              (carries_underClaims_iff hmem hhides.address).mp (hcarries hhides.address) hhides,
            fun hshown hmatches => (carries_underClaims_iff hmem hmatches).mpr hshown⟩
  · rw [applyClaims_eq h]
    apply List.forall₂_map_right_iff.mpr
    exact List.forall₂_same.mpr fun identity _ => exists_addsMarks claims identity

/-- A claim of a mail header. -/
def headerClaim : IdentityClaim := ⟨"alice@example.org", "Autocrypt"⟩

/-- A claim of a directory about the same address. -/
def directoryClaim : IdentityClaim := ⟨"Alice@example.org ", "WKD"⟩

/-- A key with an identity that has the address of both claims. -/
def workKey : Key := { identities := [⟨"Alice", "alice@example.org", "work"⟩] }

/-- Both claims leave a mark, so that the first one changes nothing when it comes again. -/
theorem applyClaims_workKey : workKey.isSubkey = false ∧
    headerClaim ∈ [headerClaim, directoryClaim] ∧
    (workKey.applyClaims [headerClaim, directoryClaim]).identities =
      [⟨"Alice", "alice@example.org", "work(Autocrypt)(WKD)"⟩] ∧
    (workKey.applyClaims [headerClaim, directoryClaim]).applyClaim headerClaim =
      workKey.applyClaims [headerClaim, directoryClaim] := by
  have hmem : headerClaim ∈ [headerClaim, directoryClaim] := List.mem_cons_self
  have hidentities : workKey.identities ++
      addedBy workKey.identities [headerClaim, directoryClaim] =
        [⟨"Alice", "alice@example.org", "work"⟩] := by decide +kernel
  refine ⟨rfl, hmem, by decide +kernel, (applyClaim_applyClaims_eq_iff rfl hmem).1.mpr ?_⟩
  rw [hidentities]
  intro identity hidentity hhides
  rw [List.mem_singleton.mp hidentity] at hhides
  exact hhides.unmarked (by decide +kernel)

/-- A key without identities gets one for the first claim, whose comment is the origin. The second
claim marks it and so hides the first, which is marked too when it comes again. -/
theorem applyClaims_hidden : ({} : Key).isSubkey = false ∧
    headerClaim ∈ [headerClaim, directoryClaim] ∧
    (({} : Key).applyClaims [headerClaim, directoryClaim]).identities =
      [⟨"", "alice@example.org", "Autocrypt(WKD)"⟩] ∧
    ((({} : Key).applyClaims [headerClaim, directoryClaim]).applyClaim headerClaim).identities =
      [⟨"", "alice@example.org", "Autocrypt(WKD)(Autocrypt)"⟩] ∧
    (({} : Key).applyClaims [headerClaim, directoryClaim]).applyClaim headerClaim ≠
      ({} : Key).applyClaims [headerClaim, directoryClaim] := by
  have hbefore : (({} : Key).applyClaims [headerClaim, directoryClaim]).identities =
      [⟨"", "alice@example.org", "Autocrypt(WKD)"⟩] := by decide +kernel
  have hafter :
      ((({} : Key).applyClaims [headerClaim, directoryClaim]).applyClaim headerClaim).identities =
        [⟨"", "alice@example.org", "Autocrypt(WKD)(Autocrypt)"⟩] := by decide +kernel
  refine ⟨rfl, List.mem_cons_self, hbefore, hafter, fun hsame => ?_⟩
  rw [hsame, hbefore] at hafter
  exact absurd hafter (by decide)

end Key

end PgpInspect
