import PgpInspect.Proofs.Key.Letters

/-!
# What descriptions say about expiry

The expiry of a key is compared with `now` three times: for its validity, for the letters that it
passes on to its primary key, and for what is described. A description is one verdict all the same
(`KeyFacts.AgreesOnExpiry`, `KeyDescription.AgreesOnExpiry`), at every time and for every stream
(`Ownership.expiry_describe`), since the derivation leaves the expiry of keys alone and nobody else
judges them. That the `!` of a summary is not a character of the capabilities in front of it follows
from their language (`Key.getLast?_summary_eq_iff`).
-/

namespace PgpInspect

/-- The verdict on a key at `now` that its facts tell. -/
structure KeyFacts.AgreesOnExpiry (facts : KeyFacts) (now : Binary64) : Prop where
  /-- The key has expired if its expiry is set and `now` is after it. -/
  expired_iff : facts.expired = true ↔ 0 < facts.key.expires ∧ facts.key.expires < now
  /-- It is usable unless it has expired. -/
  usable_eq : facts.usable = !facts.expired
  /-- Its summary ends in `!` if it has expired. -/
  summary_iff : facts.summary.toList.getLast? = some '!' ↔ facts.expired = true

/-- The verdict on a key and its subkeys at `now` that a description tells, where the key is the one
assembled with what is derived for it. -/
structure KeyDescription.AgreesOnExpiry (description : KeyDescription) (assembled : Key)
    (now : Binary64) : Prop where
  /-- The facts about the key are one verdict. -/
  facts : description.facts.AgreesOnExpiry now
  /-- The validity of the key is this verdict. -/
  code_eq : description.facts.key.validity.code = if description.facts.expired then "e" else "?"
  /-- The subkeys described are those assembled. -/
  keys_eq : description.subkeys.map KeyFacts.key = assembled.subkeys
  /-- The facts about each subkey are one verdict, and its validity tells none. -/
  subkeys : ∀ subkey ∈ description.subkeys,
    subkey.AgreesOnExpiry now ∧ subkey.key.validity.code = "?"
  /-- The letters that the key inherits are those of the subkeys told not to have expired. -/
  inherited_eq : assembled.inheritedLetters now =
    (description.subkeys.filter fun subkey => !subkey.expired).flatMap fun subkey =>
      Capability.lettersOf subkey.key.capabilities
  /-- The key shows the letters that it had and those that it inherits. -/
  capabilities : Capability.Shows {letter | letter ∈ assembled.capabilities.toList}
    {letter | ∃ subkey ∈ description.subkeys, subkey.expired = false ∧
      letter ∈ subkey.key.capabilities.toList}
    description.facts.key.capabilities

namespace Key

variable {key : Key} {now : Binary64}

/-! ## The end of a summary -/

/-- A summary ends in the capabilities behind a `/`, and a `!` if the key is not usable. -/
theorem exists_toList_summary (key : Key) (whole : Bool) (now : Binary64) :
    ∃ front : List Char, (key.summary whole now).toList =
      front ++ ('/' :: key.capabilities.toList) ++ if key.isUsable now then [] else ['!'] := by
  -- What stands in front of the last `/` plays no part.
  obtain ⟨parts, hparts⟩ : ∃ parts : List String, key.summary whole now =
      String.join (parts ++ ["/", key.capabilities, if key.isUsable now then "" else "!"]) :=
    ⟨[_, _, _, _, _, _], rfl⟩
  refine ⟨parts.flatMap String.toList, ?_⟩
  rw [hparts, String.toList_join]
  cases key.isUsable now <;> simp

/-- A summary ends in `!` exactly if the key is not usable, as capabilities have no `!`. -/
theorem getLast?_summary_eq_iff (h : Capability.IsText key.capabilities.toList) (whole : Bool) :
    (key.summary whole now).toList.getLast? = some '!' ↔ key.isUsable now = false := by
  obtain ⟨front, hsummary⟩ := key.exists_toList_summary whole now
  rw [hsummary]
  cases key.isUsable now with
  | false =>
    rw [if_neg (by decide), List.getLast?_concat]
    exact iff_of_true rfl rfl
  | true =>
    -- The last character is the `/` or one of the capabilities.
    have hnone : '!' ∉ '/' :: key.capabilities.toList := by
      rw [List.mem_cons, not_or]
      exact ⟨by decide, fun hmem => absurd (h.subset hmem) (by decide)⟩
    rw [if_pos rfl, List.append_nil, List.getLast?_append_of_ne_nil _ (List.cons_ne_nil _ _)]
    exact iff_of_false (fun hlast => hnone (List.mem_of_getLast? hlast)) (by decide)

/-! ## Facts about a key -/

/-- A key has expired if its expiry is set and `now` is after it. -/
theorem isExpired_iff : key.isExpired now = true ↔ 0 < key.expires ∧ key.expires < now := by
  rw [isExpired, Bool.and_eq_true, decide_eq_true_iff, decide_eq_true_iff]

/-- The facts about a key are one verdict if only its expiry keeps it from being usable. -/
theorem agreesOnExpiry_facts (htext : Capability.IsText key.capabilities.toList)
    (husable : key.isUsable now = !key.isExpired now) (whole : Bool) :
    (key.facts whole now).AgreesOnExpiry now where
  expired_iff := isExpired_iff
  usable_eq := husable
  summary_iff := by
    show (key.summary whole now).toList.getLast? = some '!' ↔ key.isExpired now = true
    rw [getLast?_summary_eq_iff htext, husable, Bool.not_eq_false']

/-- The validity of a key that nobody else has judged tells whether it has expired. -/
theorem validity_derive (h : key.validity = .unknown) (now : Binary64)
    (claim : Option IdentityClaim) :
    (key.derive now claim).validity = if key.isExpired now then .expired else .unknown := by
  obtain ⟨identities, hderive⟩ := key.exists_derive_eq now claim
  rw [hderive]
  unfold synthesizeValidity
  cases key.isExpired now <;> simp [h, Validity.isOpen]

end Key

namespace Ownership

variable {now : Binary64}

/-! ## Keys of a stream -/

/-- The facts about a subkey are one verdict. -/
theorem agreesOnExpiry_subkey (records : List PacketRecord) (place : PublicKey × Nat)
    (whole : Bool) : ((signedKey records place).facts whole now).AgreesOnExpiry now := by
  apply Key.agreesOnExpiry_facts (isText_signedKey records place)
  rw [Key.isUsable, validity_signedKey]
  rfl

/-- The facts about a primary key are one verdict after the derivation. -/
theorem agreesOnExpiry_primaryKey (records : List PacketRecord) (place : PublicKey × Nat)
    (claim : Option IdentityClaim) (whole : Bool) :
    (((primaryKey records place).derive now claim).facts whole now).AgreesOnExpiry now := by
  apply Key.agreesOnExpiry_facts (isText_derive records place now claim)
  rw [Key.isUsable_derive (validity_primaryKey records place), Key.isExpired_derive]

/-- The subkeys in the description of a primary key are those that belong to it. -/
theorem subkeys_describe (records : List PacketRecord) (place : PublicKey × Nat) (now : Binary64)
    (claim : Option IdentityClaim) (whole : Bool) :
    (((primaryKey records place).derive now claim).describe whole now).subkeys =
      (subkeysOf place.2 records).map fun sub => (signedKey records sub).facts whole now := by
  unfold Key.describe
  rw [Key.subkeys_derive]
  exact List.map_map

/-- The letters of the subkeys told not to have expired are those of the unexpired subkeys. -/
theorem setOf_letters_describe (records : List PacketRecord) (place : PublicKey × Nat)
    (now : Binary64) (claim : Option IdentityClaim) (whole : Bool) :
    {letter | ∃ subkey ∈ (((primaryKey records place).derive now claim).describe whole now).subkeys,
        subkey.expired = false ∧ letter ∈ subkey.key.capabilities.toList} =
      unexpiredLetters records place (primaryKey records place).subkeys now := by
  ext letter
  rw [mem_unexpiredLetters_iff, subkeys_describe]
  simp only [← (spells_signedKey records _).mem_iff]
  simp [Key.facts]

/-- The description of a primary key after the derivation is one verdict. -/
theorem agreesOnExpiry_describe (records : List PacketRecord) (place : PublicKey × Nat)
    (now : Binary64) (claim : Option IdentityClaim) (whole : Bool) :
    (((primaryKey records place).derive now claim).describe whole now).AgreesOnExpiry
      (primaryKey records place) now where
  facts := agreesOnExpiry_primaryKey records place claim whole
  code_eq := by
    -- The validity was derived before the description asks again, and the expiry is the same.
    show ((primaryKey records place).derive now claim).validity.code =
      if ((primaryKey records place).derive now claim).isExpired now then "e" else "?"
    rw [Key.isExpired_derive, Key.validity_derive (validity_primaryKey records place)]
    cases (primaryKey records place).isExpired now <;> rfl
  keys_eq := by
    rw [subkeys_describe, List.map_map]
    rfl
  subkeys := by
    rw [subkeys_describe, List.forall_mem_map]
    intro sub _
    refine ⟨agreesOnExpiry_subkey records sub whole, ?_⟩
    -- Nothing is derived for a subkey, so that its validity stays open even if it has expired.
    show (signedKey records sub).validity.code = "?"
    rw [validity_signedKey]
    rfl
  inherited_eq := by
    rw [inheritedLetters_primaryKey, subkeys_describe, List.filter_map, List.flatMap_map]
    rfl
  capabilities := by
    have hown : {letter | letter ∈ (primaryKey records place).capabilities.toList} =
        ownLetters records place := Set.ext (spells_signedKey records place).mem_iff
    rw [hown, setOf_letters_describe]
    show Capability.Shows _ _ ((primaryKey records place).derive now claim).capabilities
    rw [Key.capabilities_derive]
    exact shows_inheritCapabilities records place now

/-- The derived keys of a stream are its primary keys, each derived for itself. -/
theorem interpretRecords_fst (records : List PacketRecord) (now : Binary64)
    (claim : Option IdentityClaim) : (interpretRecords records now claim).1 =
      (primaries records).map fun place => (primaryKey records place).derive now claim := by
  calc (interpretRecords records now claim).1
      = deriveKeys (assembleKeys records).1 now claim := rfl
    _ = deriveKeys (keys records) now claim := by rw [assembleKeys_fst_eq]
    _ = (primaries records).map fun place => (primaryKey records place).derive now claim :=
        List.map_map

/-- Derivation and description agree on expiry for every key of every stream at every time. -/
theorem expiry_describe (records : List PacketRecord) (now : Binary64)
    (claim : Option IdentityClaim) (whole : Bool) :
    List.Forall₂ (fun assembled key => (key.describe whole now).AgreesOnExpiry assembled now)
      (assembleKeys records).1 (interpretRecords records now claim).1 := by
  rw [assembleKeys_fst_eq, interpretRecords_fst]
  apply List.forall₂_map_left_iff.mpr
  apply List.forall₂_map_right_iff.mpr
  exact List.forall₂_same.mpr fun place _ => agreesOnExpiry_describe records place now claim whole

end Ownership

end PgpInspect
