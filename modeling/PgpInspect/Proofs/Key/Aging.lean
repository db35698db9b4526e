import PgpInspect.Proofs.Binary64
import PgpInspect.Proofs.Key.Description
import PgpInspect.Proofs.Key.Rederivation

/-!
# Keys do not recover with time

Of what is derived for a key, the validity and the capabilities depend on the time, and they are all
that does. What has expired at one time has expired at every later one, so at the later time a
primary key has fewer unexpired subkeys to inherit letters from, and it is itself less usable. So a
stream that is interpreted later gives the same keys with no letter more, and no key can be used
that could not be used before (`Ownership.wanes_interpretRecords`).
-/

namespace PgpInspect

namespace Capability

/-- Fewer inherited letters make a text with no character more. -/
theorem Shows.subset {own inherited inherited' : Set Char} {text text' : String}
    (h : Shows own inherited text) (h' : Shows own inherited' text') (hown : '+' ∉ own)
    (hsubset : inherited' ⊆ inherited) : text'.toList ⊆ text.toList := by
  intro letter hletter
  by_cases hplus : letter = '+'
  · rw [hplus] at hletter ⊢
    rw [h'.plus_mem_iff hown] at hletter
    exact (h.plus_mem_iff hown).mpr (hletter.mono hsubset)
  · rw [h'.mem_iff hplus] at hletter
    exact (h.mem_iff hplus).mpr (hletter.imp_right fun hinherited => hsubset hinherited)

end Capability

namespace Key

variable {now later : Binary64}

/-- A key that has expired has expired at any later time. -/
theorem isExpired_of_le (h : now ≤ later) {key : Key} (hexpired : key.isExpired now = true) :
    key.isExpired later = true := by
  unfold isExpired at hexpired ⊢
  rw [Bool.and_eq_true, decide_eq_true_eq, decide_eq_true_eq] at hexpired ⊢
  exact ⟨hexpired.1, Binary64.lt_of_lt_of_le hexpired.2 h⟩

/-- A key that has not expired has not at any earlier time. -/
theorem isExpired_eq_false_of_le (h : now ≤ later) {key : Key}
    (hunexpired : key.isExpired later = false) : key.isExpired now = false := by
  rw [Bool.eq_false_iff] at hunexpired ⊢
  exact fun hexpired => hunexpired (isExpired_of_le h hexpired)

/-- What is left at a later time of a key that is derived at both. -/
structure Wanes (now later : Binary64) (key key' : Key) : Prop where
  /-- Everything but the validity and the capabilities is the same. -/
  eq_with : key' = { key with validity := key'.validity, capabilities := key'.capabilities }
  /-- There is no letter that was not there. -/
  capabilities_subset : key'.capabilities.toList ⊆ key.capabilities.toList
  /-- If the key is usable, it was. -/
  isUsable_of : key'.isUsable later = true → key.isUsable now = true
  /-- If the key can be used for encryption, it could. -/
  canEncrypt_of : key'.canEncrypt later = true → key.canEncrypt now = true
  /-- If the key can be used for signatures, it could. -/
  canSign_of : key'.canSign later = true → key.canSign now = true

/-- The validity and the capabilities are all that depends on the time. -/
theorem derive_eq_with_time (key : Key) (now later : Binary64) (claim : Option IdentityClaim) :
    key.derive later claim = { key.derive now claim with
      validity := (key.derive later claim).validity
      capabilities := (key.derive later claim).capabilities } := by
  rw [key.derive_eq now claim, key.derive_eq later claim]

/-- A key wanes if it loses letters only and is no more usable than it was. -/
theorem Wanes.of_subset {key key' : Key}
    (heq : key' = { key with validity := key'.validity, capabilities := key'.capabilities })
    (hsubset : key'.capabilities.toList ⊆ key.capabilities.toList)
    (husable : key'.isUsable later = true → key.isUsable now = true) :
    Wanes now later key key' := by
  have hcan (letter : Char)
      (h : (key'.capabilities.toList.contains letter && key'.isUsable later) = true) :
      (key.capabilities.toList.contains letter && key.isUsable now) = true := by
    rw [Bool.and_eq_true, List.contains_iff_mem] at h ⊢
    exact ⟨hsubset h.1, husable h.2⟩
  exact ⟨heq, hsubset, husable, hcan 'e', hcan 's'⟩

end Key

namespace Ownership

variable {now later : Binary64}

/-- At a later time, no letters of unexpired subkeys are there that were not. -/
theorem unexpiredLetters_subset_of_le (h : now ≤ later) (records : List PacketRecord)
    (place : PublicKey × Nat) (subkeys : List Key) :
    unexpiredLetters records place subkeys later ⊆ unexpiredLetters records place subkeys now := by
  rintro letter ⟨item, hitem, hunexpired, hletter⟩
  exact ⟨item, hitem, Key.isExpired_eq_false_of_le h hunexpired, hletter⟩

/-- A primary key of a stream wanes with time. -/
theorem wanes_derive (h : now ≤ later) (records : List PacketRecord) (place : PublicKey × Nat)
    (claim : Option IdentityClaim) :
    Key.Wanes now later ((primaryKey records place).derive now claim)
      ((primaryKey records place).derive later claim) := by
  apply Key.Wanes.of_subset
  · exact Key.derive_eq_with_time _ now later claim
  · rw [Key.capabilities_derive, Key.capabilities_derive]
    have hplus : '+' ∉ ownLetters records place := fun hmem =>
      (Key.lt_and_ne_of_mem_flagLetters hmem).2 rfl
    exact (shows_inheritCapabilities records place now).subset
      (shows_inheritCapabilities records place later) hplus
      (unexpiredLetters_subset_of_le h records place _)
  · have hvalidity := validity_primaryKey records place
    rw [Key.isUsable_derive hvalidity, Key.isUsable_derive hvalidity, Bool.not_eq_true',
      Bool.not_eq_true']
    exact Key.isExpired_eq_false_of_le h

/-- Interpreted at a later time, a stream gives the same keys, but with no letter more, and none can
be used that could not be used before. -/
theorem wanes_interpretRecords (h : now ≤ later) (records : List PacketRecord)
    (claim : Option IdentityClaim) :
    List.Forall₂ (Key.Wanes now later) (interpretRecords records now claim).1
      (interpretRecords records later claim).1 := by
  rw [interpretRecords_fst, interpretRecords_fst, List.forall₂_map_left_iff,
    List.forall₂_map_right_iff]
  exact List.forall₂_same.mpr fun place _ => wanes_derive h records place claim

/-- Interpreted at 50, `agingRecords` give a key that can be used for encryption; at 200 they give
the same key without the letter of its subkey. -/
theorem wanes_agingRecords : (50 : Binary64) ≤ 200 ∧
    (interpretRecords agingRecords 50 none).1 = [{ agingKey with capabilities := "cs+e" }] ∧
    (interpretRecords agingRecords 200 none).1 = [agingKey] ∧
    List.Forall₂ (Key.Wanes 50 200) (interpretRecords agingRecords 50 none).1
      (interpretRecords agingRecords 200 none).1 := by
  have hle : (50 : Binary64) ≤ 200 := by decide +kernel
  have hkeys (time : Binary64) : (interpretRecords agingRecords time none).1 =
      [(agingKey.synthesizeValidity time).inheritCapabilities time] := by
    show deriveKeys (assembleKeys agingRecords).1 time none = _
    rw [assembleKeys_agingRecords]
    rfl
  have hkept (time : Binary64) : agingKey.synthesizeValidity time = agingKey :=
    if_neg (by simp [Key.isExpired, agingKey, Binary64.lt_irrefl])
  have hearlier : agingKey.inheritedLetters 50 = ["e"] := by decide +kernel
  have hlater : agingKey.inheritedLetters 200 = [] := by decide +kernel
  have hown : Capability.own agingKey.capabilities = "cs" := by decide +kernel
  refine ⟨hle, ?_, ?_, wanes_interpretRecords hle agingRecords none⟩
  · rw [hkeys, hkept, Key.inheritCapabilities_of_ne_nil (hearlier ▸ List.cons_ne_nil _ _),
      hearlier, hown, arrange_encrypt]
    rfl
  · rw [hkeys, hkept, Key.inheritCapabilities_of_eq_nil hlater]

end Ownership

end PgpInspect
