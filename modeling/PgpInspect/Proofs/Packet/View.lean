import Mathlib.Data.Rat.Defs
import PgpInspect.Packet.Record

/-!
# What the tag of a packet decides about its record

The view of a packet is chosen by its tag, and whether a key packet is a subkey is read off the tag
alone, whatever is in the body.
-/

namespace PgpInspect

/-- A number is an integer exactly if it is the number of that integer. -/
theorem Binary64.toInt?_eq_some_iff {number : Binary64} {n : Int} :
    number.toInt? = some n ↔ number = (n : Binary64) := by
  constructor
  · intro h
    cases number with
    | finite value =>
      simp only [toInt?] at h
      split at h
      · next hden =>
        cases h
        exact congrArg Binary64.finite (Rat.coe_int_num_of_den_eq_one hden).symm
      · cases h
    | infinite negative => cases h
    | undefined => cases h
  · rintro rfl
    rfl

/-- The view of a key packet has its tag, and is a subkey by its tag. -/
theorem PublicKey.tag_of_ofPacket {packet : RawPacket} {key : PublicKey}
    (h : PublicKey.ofPacket packet = .ok key) :
    key.tag = packet.tag ∧ key.subkey = decide (packet.tag = 14 ∨ packet.tag = 7) := by
  obtain ⟨parts, -, rfl⟩ := PublicKey.exists_parts_of_ofPacket h
  exact ⟨rfl, rfl⟩

/-- A packet with the tag of a key is viewed as one. -/
theorem PacketRecord.ofPacket_of_keyTag (packet : RawPacket)
    (htag : packet.tag = 6 ∨ packet.tag = 14 ∨ packet.tag = 5 ∨ packet.tag = 7) :
    ofPacket packet = ofView packet.tag .publicKey (PublicKey.ofPacket packet) := by
  unfold ofPacket
  rcases htag with htag | htag | htag | htag <;> rw [htag] <;> rfl

/-- A record is a key only if its packet is viewed as that key. -/
theorem PublicKey.ofPacket_of_record {packet : RawPacket} {key : PublicKey}
    (h : PacketRecord.ofPacket packet = .publicKey key) : PublicKey.ofPacket packet = .ok key := by
  have hview (outcome : Except FieldFault PublicKey)
      (hrecord : PacketRecord.ofView packet.tag .publicKey outcome = .publicKey key) :
      outcome = .ok key := by
    cases outcome with
    | error fault => cases hrecord
    | ok view =>
      cases hrecord
      rfl
  unfold PacketRecord.ofPacket at h
  split at h
  · exact hview _ h
  · exact hview _ h
  · exact hview _ h
  · exact hview _ h
  · cases h
  · cases hsignature : Signature.ofPacket packet <;> rw [hsignature] at h <;> cases h
  · cases h

end PgpInspect
