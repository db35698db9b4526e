import PgpInspect.Proofs.Key.Claims
import PgpInspect.Proofs.Key.Usage

/-!
# Deriving again

What is derived for a key stands in the key, so that the next derivation finds it there. At the same
time and with the same claim it changes nothing (`deriveKeys_deriveKeys`), whatever the key was: a
key that has all that is derived for it (`Key.IsDerived`) stays as it is, and each of the three
derivations leaves such a key behind without touching what the other two look at.

At another time the capabilities are those of that time if a subkey with letters is unexpired then.
If none is, the letters that were inherited before stay
(`Key.inheritCapabilities_twice_of_eq_nil`), since nothing takes them out: a key whose last subkey
with letters has expired in the meantime keeps showing them (`Ownership.capabilities_again_iff`).
-/

namespace PgpInspect

namespace Capability

/-- The own letters of a key are those in front of what it inherits. -/
theorem own_append (text inherited : String) : own (own text ++ "+" ++ inherited) = own text := by
  have hown : ∀ letter ∈ text.toList.takeWhile (· != '+'), (letter != '+') = true := by
    intro letter hletter
    exact List.mem_takeWhile_imp (p := (· != '+')) hletter
  have htext : (own text ++ "+" ++ inherited).toList =
      text.toList.takeWhile (· != '+') ++ '+' :: inherited.toList := by simp [own]
  rw [own, htext, List.takeWhile_append_of_pos hown, List.takeWhile_cons_of_neg (by decide),
    List.append_nil, own]

end Capability

namespace Key

variable {key : Key} {now : Binary64} {claim : Option IdentityClaim}

/-! ## Inherited letters -/

/-- A key without letters to inherit stays as it is. -/
theorem inheritCapabilities_of_eq_nil (h : key.inheritedLetters now = []) :
    key.inheritCapabilities now = key := by
  unfold inheritCapabilities
  rw [h]
  rfl

/-- The letters that are inherited come behind the own letters. -/
theorem inheritCapabilities_of_ne_nil (h : key.inheritedLetters now ≠ []) :
    key.inheritCapabilities now = { key with
      capabilities := Capability.own key.capabilities ++ "+" ++
        Capability.arrange (key.inheritedLetters now) } := by
  unfold inheritCapabilities
  exact if_neg (by simpa using h)

/-- The own letters stay as they are. -/
theorem own_inheritCapabilities (key : Key) (now : Binary64) :
    Capability.own (key.inheritCapabilities now).capabilities =
      Capability.own key.capabilities := by
  by_cases h : key.inheritedLetters now = []
  · rw [inheritCapabilities_of_eq_nil h]
  · rw [inheritCapabilities_of_ne_nil h]
    exact Capability.own_append key.capabilities _

/-! ## At the same time -/

/-- A key that has all that is derived for it at `now` under a claim. -/
structure IsDerived (now : Binary64) (claim : Option IdentityClaim) (key : Key) : Prop where
  /-- Somebody has judged the key if it has expired. -/
  judged : key.isExpired now = true → key.validity.isOpen = false
  /-- The letters of unexpired subkeys stand behind its own, if there are any. -/
  inherits : key.inheritedLetters now ≠ [] → key.capabilities =
    Capability.own key.capabilities ++ "+" ++ Capability.arrange (key.inheritedLetters now)
  /-- Unless it is a subkey, identities have the address of the claim, and they carry it. -/
  claimed : ∀ c, claim = some c → key.isSubkey = false →
    (∃ identity ∈ key.identities, matchesClaim c identity = true) ∧
      ∀ identity ∈ key.identities, matchesClaim c identity = true → Carries c identity

/-- A key that somebody has judged if it has expired keeps its validity. -/
theorem synthesizeValidity_eq_self (h : key.isExpired now = true → key.validity.isOpen = false) :
    key.synthesizeValidity now = key := by
  unfold synthesizeValidity
  refine if_neg fun hboth => ?_
  rw [Bool.and_eq_true] at hboth
  rw [h hboth.1] at hboth
  exact Bool.false_ne_true hboth.2

/-- A key that shows the letters of its unexpired subkeys keeps its capabilities. -/
theorem inheritCapabilities_eq_self (h : key.inheritedLetters now ≠ [] → key.capabilities =
    Capability.own key.capabilities ++ "+" ++ Capability.arrange (key.inheritedLetters now)) :
    key.inheritCapabilities now = key := by
  by_cases hnone : key.inheritedLetters now = []
  · exact inheritCapabilities_of_eq_nil hnone
  · rw [inheritCapabilities_of_ne_nil hnone, ← h hnone]
    cases key
    rfl

/-- A key whose identities carry a claim keeps them. -/
theorem applyClaim_eq_self {c : IdentityClaim} (h : key.isSubkey = false →
    (∃ identity ∈ key.identities, matchesClaim c identity = true) ∧
      ∀ identity ∈ key.identities, matchesClaim c identity = true → Carries c identity) :
    key.applyClaim c = key := by
  cases hsub : key.isSubkey with
  | true =>
    unfold applyClaim
    exact if_pos hsub
  | false =>
    obtain ⟨hmatches, hcarries⟩ := h hsub
    have hadded : addedFor c key.identities = [] := if_pos (List.any_eq_true.mpr hmatches)
    rw [applyClaim_eq hsub, hadded, List.append_nil, map_underClaim_eq_self_iff.mpr hcarries]
    cases key
    rfl

/-- A key that has all that is derived for it stays as it is. -/
theorem IsDerived.derive_eq (h : IsDerived now claim key) : key.derive now claim = key := by
  unfold derive
  rw [synthesizeValidity_eq_self h.judged, inheritCapabilities_eq_self h.inherits]
  cases hclaim : claim with
  | none => rfl
  | some c => exact applyClaim_eq_self (h.claimed c hclaim)

/-- The letters that are inherited depend on the subkeys only. -/
theorem inheritedLetters_derive (key : Key) (now later : Binary64) (claim : Option IdentityClaim) :
    (key.derive now claim).inheritedLetters later = key.inheritedLetters later := by
  unfold inheritedLetters
  rw [subkeys_derive]

/-- After a claim, identities have its address, and they carry it. -/
theorem carries_applyClaim (key : Key) (c : IdentityClaim)
    (h : (key.applyClaim c).isSubkey = false) :
    (∃ identity ∈ (key.applyClaim c).identities, matchesClaim c identity = true) ∧
      ∀ identity ∈ (key.applyClaim c).identities, matchesClaim c identity = true →
        Carries c identity := by
  have hsub : key.isSubkey = false := by
    obtain ⟨identities, happlied⟩ := key.exists_applyClaim_eq c
    rw [happlied] at h
    exact h
  rw [applyClaim_eq hsub]
  constructor
  · obtain ⟨identity, hmem, hidentity⟩ := exists_matches_addedFor c key.identities
    exact ⟨underClaim c identity, List.mem_map_of_mem hmem,
      (matchesClaim_underClaim c c identity).trans hidentity⟩
  · show ∀ identity ∈ (key.identities ++ addedFor c key.identities).map (underClaim c), _
    rw [List.forall_mem_map]
    intro identity _ hidentity
    rw [matchesClaim_underClaim] at hidentity
    exact carries_underClaim hidentity

/-- The derivation leaves a key behind that has all that is derived for it. -/
theorem isDerived_derive (key : Key) (now : Binary64) (claim : Option IdentityClaim) :
    IsDerived now claim (key.derive now claim) where
  judged hexpired := by
    rw [isExpired_derive] at hexpired
    obtain ⟨identities, hderive⟩ := key.exists_derive_eq now claim
    rw [hderive]
    unfold synthesizeValidity
    rw [hexpired, Bool.true_and]
    cases hopen : key.validity.isOpen with
    | true => rfl
    | false => exact hopen
  inherits hnonempty := by
    rw [inheritedLetters_derive] at hnonempty ⊢
    rw [capabilities_derive, own_inheritCapabilities, inheritCapabilities_of_ne_nil hnonempty]
  claimed c hclaim hsub := by
    rw [hclaim] at hsub ⊢
    exact carries_applyClaim _ c hsub

/-- The derivation changes validity, capabilities and identities only. -/
theorem derive_eq_with (key : Key) (now : Binary64) (claim : Option IdentityClaim) :
    key.derive now claim = { key with
      validity := (key.derive now claim).validity
      capabilities := (key.derive now claim).capabilities
      identities := (key.derive now claim).identities } := by
  obtain ⟨identities, hderive⟩ := key.exists_derive_eq now claim
  rw [hderive]

end Key

/-- Deriving again at the same time and with the same claim changes nothing for any keys, and the
derivation changes nothing but the validity, the capabilities and the identities of a key: neither
its subkeys nor anything else. -/
theorem deriveKeys_deriveKeys (keys : List Key) (now : Binary64) (claim : Option IdentityClaim) :
    deriveKeys (deriveKeys keys now claim) now claim = deriveKeys keys now claim ∧
      List.Forall₂ (fun key derived => derived = { key with
          validity := derived.validity
          capabilities := derived.capabilities
          identities := derived.identities }) keys (deriveKeys keys now claim) := by
  constructor
  · unfold deriveKeys
    rw [List.map_map]
    exact List.map_congr_left fun key _ => (key.isDerived_derive now claim).derive_eq
  · apply List.forall₂_map_right_iff.mpr
    exact List.forall₂_same.mpr fun key _ => key.derive_eq_with now claim

/-! ## At another time -/

namespace Key

variable {key : Key} {later : Binary64}

/-- The letters of subkeys do not change the subkeys. -/
theorem inheritedLetters_inheritCapabilities (key : Key) (earlier later : Binary64) :
    (key.inheritCapabilities earlier).inheritedLetters later = key.inheritedLetters later := by
  unfold inheritCapabilities
  dsimp only
  split <;> rfl

/-- Inheriting again takes the letters of the later time in place of those of the earlier one. -/
theorem inheritCapabilities_twice_of_ne_nil (h : key.inheritedLetters later ≠ [])
    (earlier : Binary64) : (key.inheritCapabilities earlier).inheritCapabilities later =
      key.inheritCapabilities later := by
  have hlater := key.inheritedLetters_inheritCapabilities earlier later
  rw [inheritCapabilities_of_ne_nil (hlater ▸ h), own_inheritCapabilities, hlater,
    inheritCapabilities_of_ne_nil h]
  by_cases hearlier : key.inheritedLetters earlier = []
  · rw [inheritCapabilities_of_eq_nil hearlier]
  · rw [inheritCapabilities_of_ne_nil hearlier]

/-- Inheriting again keeps the letters of the earlier time if there are none at the later one. -/
theorem inheritCapabilities_twice_of_eq_nil (h : key.inheritedLetters later = [])
    (earlier : Binary64) : (key.inheritCapabilities earlier).inheritCapabilities later =
      key.inheritCapabilities earlier :=
  inheritCapabilities_of_eq_nil ((key.inheritedLetters_inheritCapabilities earlier later).trans h)

end Key

namespace Capability

variable {own inherited : Set Char} {text : String}

/-- A text shows inherited letters exactly if it has a `+`, which is no letter. -/
theorem Shows.plus_mem_iff (h : Shows own inherited text) (hown : '+' ∉ own) :
    '+' ∈ text.toList ↔ inherited.Nonempty := by
  cases h with
  | alone hnone hspells =>
    rw [hspells.mem_iff, hnone]
    exact iff_of_false hown Set.not_nonempty_empty
  | inheriting hsome hspells hback => exact iff_of_true (by simp) hsome

end Capability

namespace Ownership

/-- A primary key inherits letters exactly if one of its unexpired subkeys has some. -/
theorem inheritedLetters_eq_nil_iff (records : List PacketRecord) (place : PublicKey × Nat)
    (now : Binary64) : (primaryKey records place).inheritedLetters now = [] ↔
      unexpiredLetters records place (primaryKey records place).subkeys now = ∅ := by
  obtain ⟨letters, hinherited, hletters⟩ := exists_inheritedLetters records place now
  rw [hinherited, ← hletters, List.map_eq_nil_iff]
  exact ⟨fun hnil => by simp [hnil], fun hempty =>
    List.eq_nil_iff_forall_not_mem.mpr fun letter hmem => (hempty ▸ hmem : letter ∈ (∅ : Set Char))⟩

/-- What a primary key shows that inherits the letters of its subkeys at one time and then at
another. -/
structure ShowsAgain (records : List PacketRecord) (place : PublicKey × Nat)
    (earlier later : Binary64) (key : Key) : Prop where
  /-- It shows those of the later time, if there are any. -/
  of_nonempty : (unexpiredLetters records place key.subkeys later).Nonempty →
    Capability.Shows (ownLetters records place) (unexpiredLetters records place key.subkeys later)
      ((key.inheritCapabilities earlier).inheritCapabilities later).capabilities
  /-- It shows those of the earlier time, if there are none at the later one. -/
  of_empty : unexpiredLetters records place key.subkeys later = ∅ →
    Capability.Shows (ownLetters records place) (unexpiredLetters records place key.subkeys earlier)
      ((key.inheritCapabilities earlier).inheritCapabilities later).capabilities
  /-- It shows what it would without the earlier time, unless there are letters at the earlier time
  and none at the later one. -/
  eq_iff : ((key.inheritCapabilities earlier).inheritCapabilities later).capabilities =
      (key.inheritCapabilities later).capabilities ↔
    (unexpiredLetters records place key.subkeys later).Nonempty ∨
      unexpiredLetters records place key.subkeys earlier = ∅

/-- A primary key of a stream that inherits twice. -/
theorem showsAgain_primaryKey (records : List PacketRecord) (place : PublicKey × Nat)
    (earlier later : Binary64) :
    ShowsAgain records place earlier later (primaryKey records place) := by
  have hnil := inheritedLetters_eq_nil_iff records place
  have hshows := shows_inheritCapabilities records place
  have hplus : '+' ∉ ownLetters records place := fun hmem =>
    (Key.lt_and_ne_of_mem_flagLetters hmem).2 rfl
  have htwice (h : (unexpiredLetters records place (primaryKey records place).subkeys
      later).Nonempty) := Key.inheritCapabilities_twice_of_ne_nil
        (mt (hnil later).mp h.ne_empty) earlier
  have honce (h : unexpiredLetters records place (primaryKey records place).subkeys later = ∅) :=
    Key.inheritCapabilities_twice_of_eq_nil ((hnil later).mpr h) earlier
  refine ⟨fun h => ?_, fun h => ?_, ?_⟩
  · rw [htwice h]
    exact hshows later
  · rw [honce h]
    exact hshows earlier
  · rcases Set.eq_empty_or_nonempty
      (unexpiredLetters records place (primaryKey records place).subkeys later) with hnone | hsome
    · rw [honce hnone]
      constructor
      · -- Without letters at the later time there is no `+`, and so there were none before.
        intro hsame
        have hearlier := (hshows earlier).plus_mem_iff hplus
        rw [hsame, (hshows later).plus_mem_iff hplus, hnone] at hearlier
        exact .inr (Set.not_nonempty_iff_eq_empty.mp (mt hearlier.mpr Set.not_nonempty_empty))
      · rintro (hsome | hearlier)
        · exact absurd hnone hsome.ne_empty
        · rw [Key.inheritCapabilities_of_eq_nil ((hnil earlier).mpr hearlier),
            Key.inheritCapabilities_of_eq_nil ((hnil later).mpr hnone)]
    · rw [htwice hsome]
      exact iff_of_true rfl (.inl hsome)

/-- Every key of a stream that inherits the letters of its subkeys at one time and then at another
shows what it would at the later time alone, unless some subkey with letters was unexpired at the
earlier time and none is at the later one; then it keeps the letters of the earlier time. -/
theorem capabilities_again_iff (records : List PacketRecord) :
    List.Forall₂ (fun place key => ∀ earlier later, ShowsAgain records place earlier later key)
      (primaries records) (assembleKeys records).1 := by
  rw [assembleKeys_fst_eq]
  apply List.forall₂_map_right_iff.mpr
  exact List.forall₂_same.mpr fun place _ => showsAgain_primaryKey records place

/-- A key for certificates and signatures with a subkey for encryption, which expires after 100
seconds. -/
def agingRecords : List PacketRecord :=
  [.publicKey ⟨6, false, false, 4, "AAAAAAAAAAAAAAAAAAAAAAAAAAAAAAAAAAAAAAAA", 22, 0, 0, none,
      some "1.3.6.1.4.1.11591.15.1"⟩,
    .signature ⟨2, 4, 31, 0, [⟨27, false, [0x03]⟩]⟩,
    .publicKey ⟨14, true, false, 4, "BBBBBBBBBBBBBBBBBBBBBBBBBBBBBBBBBBBBBBBB", 18, 0, 0, none,
      some "1.3.6.1.4.1.3029.1.5.1"⟩,
    .signature ⟨2, 4, 24, 0, [⟨9, false, [0, 0, 0, 100]⟩, ⟨27, false, [0x0C]⟩]⟩]

/-- The subkey of that stream. -/
def agingSubkey : Key where
  fingerprint := "BBBBBBBBBBBBBBBBBBBBBBBBBBBBBBBBBBBBBBBB"
  algorithmLabel := Algorithm.label 18
  algorithm := 18
  size := 256
  expires := 100
  capabilities := "e"
  isSubkey := true

/-- The key of that stream. -/
def agingKey : Key where
  fingerprint := "AAAAAAAAAAAAAAAAAAAAAAAAAAAAAAAAAAAAAAAA"
  algorithmLabel := Algorithm.label 22
  algorithm := 22
  size := 256
  capabilities := "cs"
  subkeys := [agingSubkey]

/-- The letter of the subkey stays as it is. -/
theorem arrange_encrypt : Capability.arrange ["e"] = "e" :=
  Capability.arrange_map_singleton (List.pairwise_singleton _ 'e') (by simp)

/-- The stream gives that key. -/
theorem assembleKeys_agingRecords : (assembleKeys agingRecords).1 = [agingKey] := by
  -- Sorting does not reduce, so the letters are found apart from the run over the records.
  have hletters : Capability.merge "" ((Capability.granted 3).map String.singleton) = "cs" := by
    show Capability.arrange (['c', 's'].map String.singleton) = String.ofList ['c', 's']
    exact Capability.arrange_map_singleton (by decide) (by simp)
  have hsubletters : Capability.merge "" ((Capability.granted 12).map String.singleton) = "e" :=
    arrange_encrypt
  have hexpires : ({ agingSubkey with capabilities := "", expires := 0 }).applyExpiration 100 =
      { agingSubkey with capabilities := "" } := by
    have hcandidate : (0 : Binary64) + 100 = 100 := by decide +kernel
    unfold Key.applyExpiration agingSubkey
    dsimp only
    rw [hcandidate, if_neg (by decide +kernel), if_pos (by decide +kernel)]
  have hsubkey : ({ agingSubkey with capabilities := "" } : Key).applyFlags 12 = agingSubkey := by
    unfold Key.applyFlags
    dsimp only
    rw [hsubletters]
    rfl
  have hkey : { ({ agingKey with capabilities := "", subkeys := [] } : Key).applyFlags 3 with
      subkeys := [agingSubkey] } = agingKey := by
    unfold Key.applyFlags
    dsimp only
    rw [hletters]
    rfl
  calc (assembleKeys agingRecords).1
      = [{ ({ agingKey with capabilities := "", subkeys := [] } : Key).applyFlags 3 with
          subkeys := [(({ agingSubkey with capabilities := "", expires := 0 } : Key).applyExpiration
            100).applyFlags 12] }] := rfl
    _ = [agingKey] := by rw [hexpires, hsubkey, hkey]

/-- Derived at 50 and again at 200, the key still shows the letter of the subkey, which it does not
when it is derived at 200 only. -/
theorem capabilities_agingRecords : (50 : Binary64) ≤ 200 ∧
    ((assembleKeys agingRecords).1.map fun key =>
      ((key.inheritCapabilities 50).inheritCapabilities 200).capabilities) = ["cs+e"] ∧
    ((assembleKeys agingRecords).1.map fun key =>
      (key.inheritCapabilities 200).capabilities) = ["cs"] ∧
    ∃ key ∈ (assembleKeys agingRecords).1,
      ((key.inheritCapabilities 50).inheritCapabilities 200).capabilities ≠
        (key.inheritCapabilities 200).capabilities := by
  have hearlier : agingKey.inheritedLetters 50 = ["e"] := by decide +kernel
  have hlater : agingKey.inheritedLetters 200 = [] := by decide +kernel
  have hown : Capability.own agingKey.capabilities = "cs" := by decide +kernel
  have htwice : ((agingKey.inheritCapabilities 50).inheritCapabilities 200).capabilities =
      "cs+e" := by
    rw [Key.inheritCapabilities_twice_of_eq_nil hlater,
      Key.inheritCapabilities_of_ne_nil (hearlier ▸ List.cons_ne_nil _ _), hearlier, hown,
      arrange_encrypt]
    rfl
  have honce : (agingKey.inheritCapabilities 200).capabilities = "cs" := by
    rw [Key.inheritCapabilities_of_eq_nil hlater]
    rfl
  rw [assembleKeys_agingRecords]
  refine ⟨by decide +kernel, congrArg (fun text => [text]) htwice,
    congrArg (fun text => [text]) honce, agingKey, List.mem_singleton_self _, ?_⟩
  rw [htwice, honce]
  decide

end Ownership

end PgpInspect
