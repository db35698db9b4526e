import Mathlib.Data.List.Forall2
import PgpInspect.Inspection
import PgpInspect.Proofs.Packet.PublicKey
import PgpInspect.Proofs.Packet.View

/-!
# A secret keyring reads like its public keyring

A secret key packet is the public one with another tag and with the secret material behind the
public fields. The view of a key packet is the same for both but for its tag and for whether it
carries secret material (`PublicKey.ofPacket_append`), and a step of the assembly looks at neither.
So any number of the key packets of a stream may be secret ones: its keys and its log are the same.
-/

namespace PgpInspect

/-! ## Records that a step does not tell apart -/

/-- A step takes one record as it takes the other. -/
def PacketRecord.SameStep (record record' : PacketRecord) : Prop :=
  ∀ (assembly : Assembly) (index : Nat), assembly.step index record' = assembly.step index record

/-- The key of a packet depends on its tag only by whether it is a subkey. -/
theorem keyOf_withTag {key : PublicKey} {tag : Binary64}
    (h : (key.withTag tag).subkey = key.subkey) :
    Assembly.keyOf (key.withTag tag) = Assembly.keyOf key := by
  have hsize : (key.withTag tag).size = key.size := rfl
  have hexpiry : Assembly.statedExpiry (key.withTag tag) = Assembly.statedExpiry key := rfl
  unfold Assembly.keyOf
  rw [h, hsize, hexpiry]
  rfl

/-- A step looks at the tag of a key only by whether it is that of a subkey. -/
theorem sameStep_withTag {key : PublicKey} {tag : Binary64}
    (h : (key.withTag tag).subkey = key.subkey) :
    PacketRecord.SameStep (.publicKey key) (.publicKey (key.withTag tag)) := by
  intro assembly index
  have hentry : Assembly.orphanEntry (key.withTag tag) = Assembly.orphanEntry key := rfl
  unfold Assembly.step
  dsimp only
  rw [h, keyOf_withTag h, hentry]

/-- A run takes records as it takes others that no step tells apart from them. -/
theorem Assembly.run_congr {records records' : List PacketRecord}
    (h : List.Forall₂ PacketRecord.SameStep records records') (assembly : Assembly) (index : Nat) :
    assembly.run index records' = assembly.run index records := by
  induction h generalizing assembly index with
  | nil => rfl
  | @cons record record' rest rest' hrecord _ ih =>
    rw [run, run, hrecord assembly index]
    cases assembly.step index record with
    | mk assembly entries =>
      dsimp only
      rw [ih]

/-! ## Secret forms of packets -/

/-- The same packet, or the secret form of a public key packet whose fields are read: it has the tag
of a secret key or subkey, and secret material behind the public fields. -/
inductive RawPacket.SecretForm : RawPacket → RawPacket → Prop
  /-- The packet is the same. -/
  | same (packet : RawPacket) : SecretForm packet packet
  /-- The key in the packet becomes secret. -/
  | secret {packet : RawPacket} {key : PublicKey} {tag : Binary64}
      (htag : packet.tag = 6 ∧ tag = 5 ∨ packet.tag = 14 ∧ tag = 7)
      (hview : PublicKey.ofPacket packet = .ok key)
      (hfields : PublicKey.HasReadableFields packet) (material : Octets) :
      SecretForm packet ⟨tag, packet.body ++ material⟩

/-- A step does not tell the secret form of a packet from the packet. -/
theorem RawPacket.SecretForm.sameStep {packet packet' : RawPacket} (h : SecretForm packet packet') :
    PacketRecord.SameStep (.ofPacket packet) (.ofPacket packet') := by
  cases h with
  | same => exact fun _ _ => rfl
  | @secret key tag htag hview hfields material =>
    have hsubkey : (key.withTag tag).subkey = key.subkey := by
      rw [(PublicKey.tag_of_ofPacket hview).2]
      show decide (tag = 14 ∨ tag = 7) = decide (packet.tag = 14 ∨ packet.tag = 7)
      rcases htag with ⟨htag, rfl⟩ | ⟨htag, rfl⟩ <;> rw [htag] <;> decide
    have hpublicTag : packet.tag = 6 ∨ packet.tag = 14 ∨ packet.tag = 5 ∨ packet.tag = 7 :=
      htag.elim (fun h => .inl h.1) fun h => .inr (.inl h.1)
    have hsecretTag : tag = 6 ∨ tag = 14 ∨ tag = 5 ∨ tag = 7 :=
      htag.elim (fun h => .inr (.inr (.inl h.2))) fun h => .inr (.inr (.inr h.2))
    rw [PacketRecord.ofPacket_of_keyTag packet hpublicTag, hview,
      PacketRecord.ofPacket_of_keyTag ⟨tag, packet.body ++ material⟩ hsecretTag,
      PublicKey.ofPacket_append hfields hview tag material]
    exact sameStep_withTag hsubkey

/-- A stream in which public key packets are replaced by their secret forms has the same keys and
the same log at any time and with any claim. -/
theorem interpretRecords_secretForm {packets packets' : List RawPacket}
    (h : List.Forall₂ RawPacket.SecretForm packets packets') (now : Binary64)
    (claim : Option IdentityClaim) :
    interpretRecords (packets'.map .ofPacket) now claim =
      interpretRecords (packets.map .ofPacket) now claim := by
  have hrecords : List.Forall₂ PacketRecord.SameStep (packets.map .ofPacket)
      (packets'.map .ofPacket) := by
    apply List.forall₂_map_left_iff.mpr
    apply List.forall₂_map_right_iff.mpr
    exact h.imp fun _ _ => RawPacket.SecretForm.sameStep
  unfold interpretRecords assembleKeys
  rw [Assembly.run_congr hrecords]

/-- A version 4 key with one-octet RSA fields. -/
def rsaKey : RawPacket := ⟨6, [4, 0, 0, 0, 1, 1, 0, 1, 1, 0, 2, 3]⟩

/-- A version 5 subkey with one-octet RSA fields, whose length it states. -/
def rsaSubkey : RawPacket := ⟨14, [5, 0, 0, 0, 2, 1, 0, 0, 0, 6, 0, 1, 1, 0, 2, 3]⟩

/-- A keyring of two RSA keys and a user ID reads like its secret keyring. -/
theorem interpretRecords_rsaKeyring :
    List.Forall₂ RawPacket.SecretForm [rsaKey, ⟨13, [0x42]⟩, rsaSubkey]
        [⟨5, rsaKey.body ++ [0, 1, 2]⟩, ⟨13, [0x42]⟩, ⟨7, rsaSubkey.body ++ [254]⟩] ∧
      interpretRecords ([⟨5, rsaKey.body ++ [0, 1, 2]⟩, ⟨13, [0x42]⟩,
          ⟨7, rsaSubkey.body ++ [254]⟩].map .ofPacket) 0 none =
        interpretRecords ([rsaKey, ⟨13, [0x42]⟩, rsaSubkey].map .ofPacket) 0 none := by
  have hkey : PublicKey.HasReadableFields rsaKey := by decide +kernel
  have hsubkey : PublicKey.HasReadableFields rsaSubkey := by decide +kernel
  have hview (packet : RawPacket) (hok : (PublicKey.ofPacket packet).isOk = true) :
      ∃ key, PublicKey.ofPacket packet = .ok key := by
    cases hpacket : PublicKey.ofPacket packet with
    | ok key => exact ⟨key, rfl⟩
    | error fault =>
      rw [hpacket] at hok
      cases hok
  obtain ⟨keyView, hkeyView⟩ := hview rsaKey (by decide +kernel)
  obtain ⟨subkeyView, hsubkeyView⟩ := hview rsaSubkey (by decide +kernel)
  have hforms : List.Forall₂ RawPacket.SecretForm [rsaKey, ⟨13, [0x42]⟩, rsaSubkey]
      [⟨5, rsaKey.body ++ [0, 1, 2]⟩, ⟨13, [0x42]⟩, ⟨7, rsaSubkey.body ++ [254]⟩] :=
    .cons (.secret (.inl ⟨rfl, rfl⟩) hkeyView hkey _)
      (.cons (.same _) (.cons (.secret (.inr ⟨rfl, rfl⟩) hsubkeyView hsubkey _) .nil))
  exact ⟨hforms, interpretRecords_secretForm hforms 0 none⟩

end PgpInspect
