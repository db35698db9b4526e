import Mathlib.Tactic.SplitIfs
import PgpInspect.Key.Binding

/-!
# What a signature leaves alone

A signature changes the capabilities and the expiry of a key and nothing else
(`applySignature_eq_withTerms`), and it does not look at identities and subkeys
(`applySignature_withParts`). So it does not matter in which order a key gets its identities, its
subkeys and its signatures.
-/

namespace PgpInspect.Key

/-- A key with other capabilities and another expiry. -/
def withTerms (key : Key) (capabilities : String) (expires : Binary64) : Key :=
  { key with capabilities, expires }

/-- A key with other identities and subkeys. -/
def withParts (key : Key) (identities : List Identity) (subkeys : List Key) : Key :=
  { key with identities, subkeys }

/-- A key has its own capabilities and expiry. -/
theorem withTerms_self (key : Key) : key.withTerms key.capabilities key.expires = key := by
  cases key
  rfl

/-- A key has its own identities and subkeys. -/
theorem withParts_self (key : Key) : key.withParts key.identities key.subkeys = key := by
  cases key
  rfl

/-! ## Capabilities and expiry only -/

/-- An expiration changes the expiry only. -/
theorem applyExpiration_eq_withTerms (key : Key) (seconds : Binary64) :
    key.applyExpiration seconds =
      key.withTerms key.capabilities (key.applyExpiration seconds).expires := by
  unfold applyExpiration
  dsimp only
  split_ifs
  · exact (withTerms_self key).symm
  · rfl
  · exact (withTerms_self key).symm

/-- A subpacket changes capabilities and expiry only. -/
theorem eq_withTerms_of_applySubpacket {key key' : Key} {subpacket : Subpacket}
    (h : key.applySubpacket subpacket = .ok key') :
    key' = key.withTerms key'.capabilities key'.expires := by
  unfold applySubpacket at h
  split at h
  · split at h
    · cases h
    · cases h
      rw [applyExpiration_eq_withTerms]
      rfl
  · split at h
    · split at h
      · cases h
      · cases h
        rfl
    · cases h
      exact (withTerms_self key).symm

/-- Subpackets change capabilities and expiry only. -/
theorem applySubpackets_eq_withTerms (key : Key) (subpackets : List Subpacket) :
    (key.applySubpackets subpackets).1 =
      key.withTerms (key.applySubpackets subpackets).1.capabilities
        (key.applySubpackets subpackets).1.expires := by
  induction subpackets generalizing key with
  | nil => exact (withTerms_self key).symm
  | cons subpacket rest ih =>
    rw [applySubpackets]
    cases h : key.applySubpacket subpacket with
    | error cause => exact (withTerms_self key).symm
    | ok key' =>
      have hkey' := eq_withTerms_of_applySubpacket h
      dsimp only
      rw [ih key', hkey']
      rfl

/-- A signature changes capabilities and expiry only. -/
theorem applySignature_eq_withTerms (key : Key) (signature : Signature) :
    (key.applySignature signature).1 =
      key.withTerms (key.applySignature signature).1.capabilities
        (key.applySignature signature).1.expires :=
  applySubpackets_eq_withTerms key signature.subpackets

/-! ## Identities and subkeys do not matter -/

variable (key : Key) (identities : List Identity) (subkeys : List Key)

/-- An expiration does not look at identities and subkeys. -/
theorem applyExpiration_withParts (seconds : Binary64) :
    (key.withParts identities subkeys).applyExpiration seconds =
      (key.applyExpiration seconds).withParts identities subkeys := by
  unfold applyExpiration withParts
  dsimp only
  split_ifs <;> rfl

/-- A subpacket does not look at identities and subkeys. -/
theorem applySubpacket_withParts (subpacket : Subpacket) :
    (key.withParts identities subkeys).applySubpacket subpacket =
      (key.applySubpacket subpacket).map (·.withParts identities subkeys) := by
  unfold applySubpacket
  split_ifs
  · rfl
  · rw [applyExpiration_withParts]
    rfl
  · cases subpacket.data <;> rfl
  · rfl

/-- Subpackets do not look at identities and subkeys. -/
theorem applySubpackets_withParts (subpackets : List Subpacket) :
    (key.withParts identities subkeys).applySubpackets subpackets =
      ((key.applySubpackets subpackets).1.withParts identities subkeys,
        (key.applySubpackets subpackets).2) := by
  induction subpackets generalizing key with
  | nil => rfl
  | cons subpacket rest ih =>
    rw [applySubpackets, applySubpackets, applySubpacket_withParts]
    cases key.applySubpacket subpacket with
    | error cause => rfl
    | ok key' => exact ih key'

/-- A signature does not look at identities and subkeys. -/
theorem applySignature_withParts (signature : Signature) :
    ((key.withParts identities subkeys).applySignature signature).1 =
      (key.applySignature signature).1.withParts identities subkeys := by
  unfold applySignature
  rw [applySubpackets_withParts]

end PgpInspect.Key
