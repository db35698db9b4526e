import Mathlib.Tactic.SplitIfs
import PgpInspect.Description
import PgpInspect.Inspection
import PgpInspect.Proofs.Key.Capability
import PgpInspect.Proofs.Key.Taken

/-!
# What a key may be used for

The letters of a key are those that the key flags taken of its signatures grant
(`Key.grantedLetters`). Behind a `+` a primary key shows the letters of its subkeys that have not
expired, if there are any (`Capability.Shows`). So a key can be used for encryption or for
signatures exactly when it has not expired and the letter is granted to it or to one of these
subkeys (`Ownership.usage_interpretRecords`).
-/

namespace PgpInspect

namespace Capability

/-! ## Own and inherited letters -/

/-- A text that is the own letters of a key and, behind a `+`, those that it inherits, if any. -/
inductive Shows (own inherited : Set Char) : (text : String) → Prop
  /-- Nothing is inherited. -/
  | alone {text : String} : inherited = ∅ → Spells own text → Shows own inherited text
  /-- Something is inherited. -/
  | inheriting {front back : String} : inherited.Nonempty → Spells own front →
      Spells inherited back → Shows own inherited (front ++ "+" ++ back)

/-- The letters of a text are its own and those that it inherits. -/
theorem Shows.mem_iff {own inherited : Set Char} {text : String} (h : Shows own inherited text)
    {letter : Char} (hletter : letter ≠ '+') :
    letter ∈ text.toList ↔ letter ∈ own ∨ letter ∈ inherited := by
  cases h with
  | alone hnone hown =>
    rw [hown.mem_iff, hnone]
    simp
  | inheriting _ hown hinherited =>
    rw [← hown.mem_iff, ← hinherited.mem_iff]
    simp [hletter]

end Capability

namespace Key

/-! ## The letters of a key -/

/-- The letters that key flags among subpackets grant, by their first octets. -/
def flagLetters (subpackets : List Subpacket) : Set Char :=
  {letter | ∃ subpacket ∈ subpackets, subpacket.type = Subpacket.keyFlags ∧
    ∃ flags, subpacket.data.head? = some flags ∧ Capability.Grants flags letter}

/-- The letters that the key flags taken of signatures grant. -/
def grantedLetters (signatures : List (Signature × Nat)) : Set Char :=
  flagLetters (takenOf signatures)

/-- A letter of key flags is written by one unit and is not a `+`. -/
theorem lt_and_ne_of_mem_flagLetters {subpackets : List Subpacket} {letter : Char}
    (h : letter ∈ flagLetters subpackets) : letter.toNat < 0x10000 ∧ letter ≠ '+' := by
  obtain ⟨-, -, -, flags, -, hgrants⟩ := h
  exact hgrants.lt_and_ne

/-- One subpacket more adds its letters. -/
theorem flagLetters_append (subpackets subpackets' : List Subpacket) :
    flagLetters (subpackets ++ subpackets') =
      flagLetters subpackets ∪ flagLetters subpackets' := by
  ext letter
  simp [flagLetters, or_and_right, exists_or]

variable {key : Key} {before : List Subpacket}

/-- A key that has the letters of the subpackets so far has those of one subpacket more. -/
theorem spells_take (h : Capability.Spells (flagLetters before) key.capabilities)
    (subpacket : Subpacket) :
    Capability.Spells (flagLetters (before ++ [subpacket])) (key.take subpacket).capabilities := by
  have hsame (hnone : flagLetters [subpacket] = ∅) (key' : Key)
      (hkey' : key'.capabilities = key.capabilities) :
      Capability.Spells (flagLetters (before ++ [subpacket])) key'.capabilities := by
    rw [flagLetters_append, hnone, Set.union_empty, hkey']
    exact h
  have hdistinct : Subpacket.keyExpiration ≠ Subpacket.keyFlags := by decide
  unfold take
  split
  · next htype =>
    apply hsame
    · simp [flagLetters, htype, hdistinct]
    · rw [applyExpiration_eq_withTerms]
      rfl
  · split
    · next htype =>
      split
      · next hdata =>
        apply hsame
        · simp [flagLetters, hdata]
        · rfl
      · next flags rest hdata =>
        have hletters : flagLetters [subpacket] =
            {letter | letter ∈ Capability.granted flags.toNat} := by
          ext letter
          simp [flagLetters, htype, hdata, Capability.mem_granted_iff]
        rw [flagLetters_append, hletters]
        apply h.merge
        · exact fun letter hletter => (lt_and_ne_of_mem_flagLetters hletter).1
        · intro letter hletter
          exact ((Capability.mem_granted_iff flags letter).mp hletter).lt_and_ne.1
    · next htype =>
      apply hsame
      · simp [flagLetters, htype]
      · rfl

/-- A key that has the letters of the subpackets so far has those of all that follow. -/
theorem spells_foldl_take (h : Capability.Spells (flagLetters before) key.capabilities)
    (subpackets : List Subpacket) :
    Capability.Spells (flagLetters (before ++ subpackets))
      (subpackets.foldl take key).capabilities := by
  induction subpackets generalizing key before with
  | nil =>
    rw [List.append_nil]
    exact h
  | cons subpacket rest ih =>
    rw [List.append_cons, List.foldl_cons]
    exact ih (spells_take h subpacket)

/-- The capabilities of a key under signatures are the letters that these grant. -/
theorem spells_signedBy (signatures : List (Signature × Nat)) (packet : PublicKey) :
    Capability.Spells (grantedLetters signatures) (signedBy signatures packet).capabilities := by
  have hnone : Capability.Spells (flagLetters []) (Assembly.keyOf packet).capabilities :=
    ⟨fun letter => by simp [flagLetters, Assembly.keyOf], List.Pairwise.nil⟩
  rw [signedBy_eq_foldl]
  exact spells_foldl_take hnone (takenOf signatures)

/-! ## What is derived -/

/-- A key that has expired is marked so if nobody has judged it. -/
theorem synthesizeValidity_eq (key : Key) (now : Binary64) :
    key.synthesizeValidity now =
      { key with validity := (key.synthesizeValidity now).validity } := by
  unfold synthesizeValidity
  split
  · rfl
  · cases key
    rfl

/-- The letters of subkeys change the capabilities only, and do not look at the validity. -/
theorem inheritCapabilities_withValidity (key : Key) (now : Binary64) (validity : Validity) :
    { key with validity }.inheritCapabilities now =
      { key with validity, capabilities := (key.inheritCapabilities now).capabilities } := by
  have hinherited : { key with validity }.inheritedLetters now = key.inheritedLetters now := rfl
  unfold inheritCapabilities
  rw [hinherited]
  dsimp only
  split <;> rfl

/-- A claim changes the identities only. -/
theorem exists_applyClaim_eq (key : Key) (claim : IdentityClaim) :
    ∃ identities, key.applyClaim claim = { key with identities } := by
  unfold applyClaim
  split_ifs
  · exact ⟨key.identities, by cases key; rfl⟩
  · exact ⟨_, rfl⟩
  · exact ⟨_, rfl⟩

/-- A claim does not look at the validity and the capabilities. -/
theorem applyClaim_withDerived (key : Key) (claim : IdentityClaim) (validity : Validity)
    (capabilities : String) :
    { key with validity, capabilities }.applyClaim claim =
      { key.applyClaim claim with validity, capabilities } := by
  unfold applyClaim
  dsimp only
  split_ifs <;> rfl

/-- The three derivations of a key do not look at what the others derive. -/
theorem derive_eq (key : Key) (now : Binary64) (claim : Option IdentityClaim) :
    key.derive now claim =
      { claim.elim key key.applyClaim with
        validity := (key.synthesizeValidity now).validity
        capabilities := (key.inheritCapabilities now).capabilities } := by
  have hderived : (key.synthesizeValidity now).inheritCapabilities now =
      { key with
        validity := (key.synthesizeValidity now).validity
        capabilities := (key.inheritCapabilities now).capabilities } := by
    rw [synthesizeValidity_eq, inheritCapabilities_withValidity]
  unfold derive
  rw [hderived]
  cases claim with
  | none => rfl
  | some claim => exact key.applyClaim_withDerived claim _ _

/-- What is derived for a key changes its validity, capabilities and identities only. -/
theorem exists_derive_eq (key : Key) (now : Binary64) (claim : Option IdentityClaim) :
    ∃ identities, key.derive now claim =
      { key with
        validity := (key.synthesizeValidity now).validity
        capabilities := (key.inheritCapabilities now).capabilities
        identities } := by
  rw [derive_eq]
  cases claim with
  | none => exact ⟨key.identities, rfl⟩
  | some claim =>
    obtain ⟨identities, happlied⟩ := key.exists_applyClaim_eq claim
    refine ⟨identities, ?_⟩
    rw [Option.elim_some, happlied]

/-- The subkeys stay as they are. -/
theorem subkeys_derive (key : Key) (now : Binary64) (claim : Option IdentityClaim) :
    (key.derive now claim).subkeys = key.subkeys := by
  obtain ⟨identities, hderive⟩ := key.exists_derive_eq now claim
  rw [hderive]

/-- The capabilities become those with the letters of the subkeys. -/
theorem capabilities_derive (key : Key) (now : Binary64) (claim : Option IdentityClaim) :
    (key.derive now claim).capabilities = (key.inheritCapabilities now).capabilities := by
  obtain ⟨identities, hderive⟩ := key.exists_derive_eq now claim
  rw [hderive]

/-- The expiry stays as it is. -/
theorem isExpired_derive (key : Key) (now : Binary64) (claim : Option IdentityClaim) :
    (key.derive now claim).isExpired now = key.isExpired now := by
  obtain ⟨identities, hderive⟩ := key.exists_derive_eq now claim
  rw [hderive]
  rfl

/-- A key that nobody has judged is usable after the derivation if it has not expired. -/
theorem isUsable_derive {key : Key} (h : key.validity = .unknown) (now : Binary64)
    (claim : Option IdentityClaim) :
    (key.derive now claim).isUsable now = !key.isExpired now := by
  obtain ⟨identities, hderive⟩ := exists_derive_eq key now claim
  have hvalidity : (key.derive now claim).validity = (key.synthesizeValidity now).validity := by
    rw [hderive]
  unfold isUsable
  rw [isExpired_derive, hvalidity]
  unfold synthesizeValidity
  cases key.isExpired now with
  | false => simp [h, Validity.isOpen]
  | true => simp [h, Validity.isOpen]

end Key

namespace Ownership

variable {records : List PacketRecord} {place : PublicKey × Nat}

/-- The letters of the key at a position. -/
def ownLetters (records : List PacketRecord) (place : PublicKey × Nat) : Set Char :=
  Key.grantedLetters (signaturesOn place.2 records)

/-- The letters of the subkeys of a position that have not expired at `now`. -/
def unexpiredLetters (records : List PacketRecord) (place : PublicKey × Nat)
    (subkeys : List Key) (now : Binary64) : Set Char :=
  {letter | ∃ item ∈ (subkeysOf place.2 records).zip subkeys,
    item.2.isExpired now = false ∧ letter ∈ ownLetters records item.1}

/-- What the primary key at a position, with its subkeys, may be used for at `now`. -/
structure HasUsage (records : List PacketRecord) (place : PublicKey × Nat) (now : Binary64)
    (key : Key) : Prop where
  /-- The capabilities of a subkey are its letters. -/
  subkeys : List.Forall₂ (fun sub subkey =>
    Capability.Spells (ownLetters records sub) subkey.capabilities)
    (subkeysOf place.2 records) key.subkeys
  /-- The capabilities of the key are its letters and those of its unexpired subkeys. -/
  capabilities : Capability.Shows (ownLetters records place)
    (unexpiredLetters records place key.subkeys now) key.capabilities
  /-- The key can be used for encryption if it has not expired and it or an unexpired subkey has
  the letter. -/
  canEncrypt_iff : key.canEncrypt now = true ↔ key.isExpired now = false ∧
    ('e' ∈ ownLetters records place ∨ 'e' ∈ unexpiredLetters records place key.subkeys now)
  /-- The key can be used for signatures if it has not expired and it or an unexpired subkey has
  the letter. -/
  canSign_iff : key.canSign now = true ↔ key.isExpired now = false ∧
    ('s' ∈ ownLetters records place ∨ 's' ∈ unexpiredLetters records place key.subkeys now)

/-- The letters of a key in a stream are its capabilities before any are inherited. -/
theorem spells_signedKey (records : List PacketRecord) (place : PublicKey × Nat) :
    Capability.Spells (ownLetters records place) (signedKey records place).capabilities := by
  rw [signedKey_eq_signedBy]
  exact Key.spells_signedBy _ _

/-- The capabilities of a key in a stream are its own, as they have no `+`. -/
theorem own_signedKey (records : List PacketRecord) (place : PublicKey × Nat) :
    Capability.own (signedKey records place).capabilities =
      (signedKey records place).capabilities := by
  apply Capability.own_eq_self
  rw [(spells_signedKey records place).mem_iff]
  exact fun hplus => (Key.lt_and_ne_of_mem_flagLetters hplus).2 rfl

/-- A letter of an unexpired subkey, by the packet of the subkey. -/
theorem mem_unexpiredLetters_iff {now : Binary64} {letter : Char} :
    letter ∈ unexpiredLetters records place (primaryKey records place).subkeys now ↔
      ∃ sub ∈ subkeysOf place.2 records, (signedKey records sub).isExpired now = false ∧
        letter ∈ ownLetters records sub := by
  have hzip : (subkeysOf place.2 records).zip (primaryKey records place).subkeys =
      (subkeysOf place.2 records).map fun sub => (sub, signedKey records sub) := by
    rw [← List.zip_map', List.map_id']
    rfl
  unfold unexpiredLetters
  rw [hzip]
  simp [List.mem_map]

/-- The letters that a primary key inherits are those of its unexpired subkeys, none of which
inherits any. -/
theorem inheritedLetters_primaryKey (records : List PacketRecord) (place : PublicKey × Nat)
    (now : Binary64) : (primaryKey records place).inheritedLetters now =
      ((subkeysOf place.2 records).filter fun sub =>
        !(signedKey records sub).isExpired now).flatMap fun sub =>
          Capability.lettersOf (signedKey records sub).capabilities := by
  have hsubkeys : (primaryKey records place).subkeys =
      (subkeysOf place.2 records).map (signedKey records) := rfl
  unfold Key.inheritedLetters
  rw [hsubkeys, List.filter_map, List.flatMap_map]
  simp only [own_signedKey, Function.comp_def]

/-- The letters that a primary key inherits, as a set. -/
theorem exists_inheritedLetters (records : List PacketRecord) (place : PublicKey × Nat)
    (now : Binary64) : ∃ letters : List Char,
      (primaryKey records place).inheritedLetters now = letters.map String.singleton ∧
        {letter | letter ∈ letters} =
          unexpiredLetters records place (primaryKey records place).subkeys now := by
  refine ⟨((subkeysOf place.2 records).filter fun sub =>
    !(signedKey records sub).isExpired now).flatMap fun sub =>
      (signedKey records sub).capabilities.toList, ?_, ?_⟩
  · rw [inheritedLetters_primaryKey, List.map_flatMap]
    rfl
  · ext letter
    rw [mem_unexpiredLetters_iff]
    simp [(spells_signedKey records _).mem_iff, and_assoc]

/-- The capabilities of a primary key after the derivation. -/
theorem shows_inheritCapabilities (records : List PacketRecord) (place : PublicKey × Nat)
    (now : Binary64) :
    Capability.Shows (ownLetters records place)
      (unexpiredLetters records place (primaryKey records place).subkeys now)
      ((primaryKey records place).inheritCapabilities now).capabilities := by
  obtain ⟨letters, hinherited, hletters⟩ := exists_inheritedLetters records place now
  have hown := spells_signedKey records place
  have hcapabilities : (primaryKey records place).capabilities =
      (signedKey records place).capabilities := rfl
  unfold Key.inheritCapabilities
  rw [hinherited, hcapabilities, own_signedKey, ← hletters]
  cases letters with
  | nil => exact .alone (by simp) hown
  | cons letter rest =>
    refine .inheriting ⟨letter, List.mem_cons_self⟩ hown (Capability.spells_arrange ?_)
    intro other hother
    have hmem : other ∈ unexpiredLetters records place (primaryKey records place).subkeys now := by
      rw [← hletters]
      exact hother
    obtain ⟨item, -, -, hitem⟩ := hmem
    exact (Key.lt_and_ne_of_mem_flagLetters hitem).1

/-- Nobody has judged a key of a stream. -/
theorem validity_signedKey (records : List PacketRecord) (place : PublicKey × Nat) :
    (signedKey records place).validity = .unknown := by
  obtain ⟨capabilities, expires, hsigned⟩ := exists_signedKey_eq_withTerms records place
  rw [hsigned]
  rfl

/-- What belongs to a key does not judge it. -/
theorem validity_primaryKey (records : List PacketRecord) (place : PublicKey × Nat) :
    (primaryKey records place).validity = .unknown := validity_signedKey records place

/-- A primary key that shows a letter after the derivation and is usable has not expired, and the
letter is its own or that of an unexpired subkey. -/
theorem contains_and_isUsable_iff {now : Binary64} {claim : Option IdentityClaim} {letter : Char}
    (hletter : letter ≠ '+') :
    (((primaryKey records place).derive now claim).capabilities.toList.contains letter &&
        ((primaryKey records place).derive now claim).isUsable now) = true ↔
      (primaryKey records place).isExpired now = false ∧ (letter ∈ ownLetters records place ∨
        letter ∈ unexpiredLetters records place (primaryKey records place).subkeys now) := by
  rw [Bool.and_eq_true, List.contains_iff_mem, Key.capabilities_derive,
    (shows_inheritCapabilities records place now).mem_iff hletter,
    Key.isUsable_derive (validity_primaryKey records place), Bool.not_eq_true', and_comm]

/-- The usage of a primary key after the derivation. -/
theorem hasUsage_derive (records : List PacketRecord) (place : PublicKey × Nat) (now : Binary64)
    (claim : Option IdentityClaim) :
    HasUsage records place now ((primaryKey records place).derive now claim) := by
  refine ⟨?_, ?_, ?_, ?_⟩
  · rw [Key.subkeys_derive]
    apply List.forall₂_map_right_iff.mpr
    exact List.forall₂_same.mpr fun sub _ => spells_signedKey records sub
  · rw [Key.subkeys_derive, Key.capabilities_derive]
    exact shows_inheritCapabilities records place now
  · rw [Key.subkeys_derive, Key.isExpired_derive]
    exact contains_and_isUsable_iff (by decide)
  · rw [Key.subkeys_derive, Key.isExpired_derive]
    exact contains_and_isUsable_iff (by decide)

/-- Every key that is derived from a stream may be used for what the key flags taken of its
signatures say, and of those of its subkeys that have not expired. -/
theorem usage_interpretRecords (records : List PacketRecord) (now : Binary64)
    (claim : Option IdentityClaim) :
    List.Forall₂ (fun place key => HasUsage records place now key) (primaries records)
      (interpretRecords records now claim).1 := by
  have hkeys : (interpretRecords records now claim).1 =
      (primaries records).map fun place => (primaryKey records place).derive now claim := by
    calc (interpretRecords records now claim).1
        = deriveKeys (assembleKeys records).1 now claim := rfl
      _ = deriveKeys (keys records) now claim := by rw [assembleKeys_fst_eq]
      _ = (primaries records).map fun place => (primaryKey records place).derive now claim :=
          List.map_map
  rw [hkeys]
  apply List.forall₂_map_right_iff.mpr
  exact List.forall₂_same.mpr fun place _ => hasUsage_derive records place now claim

end Ownership

end PgpInspect
