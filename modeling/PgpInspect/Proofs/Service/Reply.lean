import PgpInspect.Proofs.Key.Description
import PgpInspect.Proofs.Key.Expiry
import PgpInspect.Proofs.Schema.Admission
import PgpInspect.Service.Inspect

/-!
# Replies keep to their schema

The service declares a schema for its replies about key data and never checks a reply against it.
Replies keep to it because of what the keys of a stream are (`Key.IsDeclared`): their capabilities
are in the declared language, they are unjudged or expired, and the fields of their packets are too
narrow for a number of more than 53 bits. So whatever is inspected, at any time, the reply is
admitted as it stands (`Service.admits_inspectionJson`).
-/

namespace PgpInspect

/-- A natural number of at most 53 bits. -/
def Binary64.IsSafeNatural (number : Binary64) : Prop :=
  ∃ n : Nat, n ≤ greatestSafe ∧ number = (n : Binary64)

/-- What a key says is what the schema of replies declares. -/
structure Key.IsDeclared (key : Key) : Prop where
  /-- The capabilities are letters, and perhaps a `+` and letters. -/
  capabilities : Capability.IsText key.capabilities.toList
  /-- The validity is one of those that have a code. -/
  validity : key.validity ∈ Validity.all
  /-- The number of the algorithm is whole and not too large. -/
  algorithm : key.algorithm.IsSafeNatural
  /-- So is the size. -/
  size : key.size.IsSafeNatural
  /-- So is the creation time. -/
  created : key.created.IsSafeNatural
  /-- So is the expiry. -/
  expires : key.expires.IsSafeNatural

/-! ## The keys of a stream -/

namespace Ownership

variable {packets : List RawPacket} {records : List PacketRecord} {place : PublicKey × Nat}

/-- The expiry of a key is a whole number that two more bits than those of a creation time hold. -/
theorem isSafeNatural_expires {signatures : List (Signature × Nat)} {created days : Nat} {key : Key}
    (h : Key.HasExactExpiry place.1 signatures created days key) : key.expires.IsSafeNatural := by
  have hbound := h.lt_two_pow
  rcases h.earliest with ⟨-, hzero⟩ | ⟨time, -, htime⟩
  · exact ⟨0, Nat.zero_le _, hzero⟩
  · rw [htime, Binary64.natCast_lt_natCast] at hbound
    exact ⟨time, Nat.le_trans hbound.le (by decide), htime⟩

/-- A key of a decoded stream says what is declared, before anything is derived for it. -/
theorem isDeclared_signedKey (hrecords : records = packets.map PacketRecord.ofPacket)
    (h : .publicKey place.1 ∈ records) : (signedKey records place).IsDeclared := by
  obtain ⟨packet, -, hpacket⟩ : ∃ packet ∈ packets, PacketRecord.ofPacket packet =
      .publicKey place.1 := List.mem_map.mp (hrecords ▸ h)
  have hview := PublicKey.ofPacket_of_record hpacket
  -- Signatures change capabilities and expiry only, so the other numbers are those of the packet.
  obtain ⟨algorithm, halgorithm, hnumber⟩ := (PublicKey.inRange_of_ofPacket hview).algorithm
  obtain ⟨time, -, htime, -, hcreated, -⟩ := PublicKey.times_of_ofPacket hview
  have hsize : place.1.size ≤ 2 ^ 16 := (PublicKey.inRange_of_ofPacket hview).size_le
  obtain ⟨created, days, hexpiry⟩ := exists_hasExactExpiry hrecords h
  obtain ⟨capabilities, expires, hsigned⟩ := exists_signedKey_eq_withTerms records place
  refine ⟨isText_signedKey records place, ?_, ?_, ?_, ?_, isSafeNatural_expires hexpiry⟩
  · rw [validity_signedKey]
    decide
  · rw [hsigned]
    exact ⟨algorithm, Nat.le_trans halgorithm.le (by decide), hnumber⟩
  · rw [hsigned]
    exact ⟨place.1.size, Nat.le_trans hsize (by decide), rfl⟩
  · rw [hsigned]
    exact ⟨time, Nat.le_trans htime.le (by decide), hcreated⟩

/-- So does a primary key after the derivation. -/
theorem isDeclared_derive (hrecords : records = packets.map PacketRecord.ofPacket)
    (h : .publicKey place.1 ∈ records) (now : Binary64) (claim : Option IdentityClaim) :
    ((primaryKey records place).derive now claim).IsDeclared := by
  have hkey := isDeclared_signedKey hrecords h
  have hvalidity : ((primaryKey records place).derive now claim).validity ∈ Validity.all := by
    rw [Key.validity_derive (validity_primaryKey records place)]
    split <;> decide
  have htext := isText_derive records place now claim
  obtain ⟨identities, hderive⟩ := (primaryKey records place).exists_derive_eq now claim
  rw [hderive] at htext hvalidity ⊢
  exact ⟨htext, hvalidity, hkey.algorithm, hkey.size, hkey.created, hkey.expires⟩

/-- The records that key data holds are views of packets. -/
theorem exists_packets_of_toRecords {data : KeyData} (h : data.toRecords = .ok records) :
    ∃ packets : List RawPacket, records = packets.map PacketRecord.ofPacket := by
  unfold KeyData.toRecords readRecords at h
  cases hoctets : data.toOctets with
  | error fault =>
    rw [hoctets] at h
    cases h
  | ok octets =>
    rw [hoctets] at h
    dsimp only [bind, Except.bind] at h
    cases hpackets : readPackets octets with
    | error fault =>
      rw [hpackets] at h
      cases h
    | ok packets =>
      rw [hpackets] at h
      cases h
      exact ⟨packets, rfl⟩

/-- Every key that is found in key data, and every subkey of it, says what is declared. -/
theorem isDeclared_inspectKeyData (data : KeyData) (now : Binary64) (claim : Option IdentityClaim) :
    ∀ key ∈ (inspectKeyData data now claim).keys,
      key.IsDeclared ∧ ∀ subkey ∈ key.subkeys, subkey.IsDeclared := by
  unfold inspectKeyData
  cases hread : data.toRecords with
  | error fault => exact List.forall_mem_nil _
  | ok records =>
    obtain ⟨packets, hrecords⟩ := exists_packets_of_toRecords hread
    show ∀ key ∈ (interpretRecords records now claim).1, _
    rw [interpretRecords_fst, List.forall_mem_map]
    intro place hplace
    refine ⟨isDeclared_derive hrecords (mem_records_of_mem_primaries hplace) now claim, ?_⟩
    rw [Key.subkeys_derive]
    show ∀ subkey ∈ (subkeysOf place.2 records).map (signedKey records), _
    rw [List.forall_mem_map]
    exact fun sub hsub => isDeclared_signedKey hrecords (mem_records_of_mem_subkeysOf hsub)

end Ownership

/-! ## What is told of keys -/

open Schema (Admits admits_anyText admits_boolean admits_integer admits_list admits_object)

/-- A number of at most 53 bits is admitted. -/
theorem Binary64.IsSafeNatural.admits {number : Binary64} (h : number.IsSafeNatural) :
    Schema.integer.Admits (.number number) := by
  obtain ⟨n, hsafe, rfl⟩ := h
  exact admits_integer hsafe

/-- The facts about a key are the members that the schema lists. -/
theorem Key.IsDeclared.admits_facts {key : Key} (h : key.IsDeclared) (whole : Bool)
    (now : Binary64) :
    List.Forall₂ (fun field member => field.1 = member.1 ∧ field.2.2.Admits member.2)
      Schema.keyFacts (key.facts whole now).members := by
  have hcapabilities : Schema.capabilities.Admits (.string key.capabilities) :=
    Schema.admits_matching _ ((Pattern.isCapabilities_iff _).mpr h.capabilities)
  have hvalidity : Schema.validity.Admits (.string key.validity.code) :=
    Schema.admits_choice (List.mem_map_of_mem h.validity)
  refine .cons ⟨rfl, admits_anyText _⟩ (.cons ⟨rfl, hcapabilities⟩ ?_)
  refine .cons ⟨rfl, admits_anyText _⟩ (.cons ⟨rfl, h.algorithm.admits⟩ ?_)
  refine .cons ⟨rfl, h.size.admits⟩ (.cons ⟨rfl, h.created.admits⟩ ?_)
  refine .cons ⟨rfl, h.expires.admits⟩ (.cons ⟨rfl, hvalidity⟩ ?_)
  refine .cons ⟨rfl, admits_boolean _⟩ (.cons ⟨rfl, admits_boolean _⟩ ?_)
  refine .cons ⟨rfl, admits_boolean _⟩ (.cons ⟨rfl, admits_boolean _⟩ ?_)
  exact .cons ⟨rfl, admits_anyText _⟩ .nil

/-- Every identity is admitted with its display form. -/
theorem Identity.admits_toJson (identity : Identity) (display : String) :
    Schema.identity.Admits (identity.toJson display) := by
  refine admits_object (by decide) ?_
  refine .cons ⟨rfl, admits_anyText _⟩ (.cons ⟨rfl, admits_anyText _⟩ ?_)
  exact .cons ⟨rfl, admits_anyText _⟩ (.cons ⟨rfl, admits_anyText _⟩ .nil)

/-- The description of a primary key is admitted if it and its subkeys say what is declared. -/
theorem Key.IsDeclared.admits_describe {key : Key} (h : key.IsDeclared)
    (hsubkeys : ∀ subkey ∈ key.subkeys, subkey.IsDeclared) (whole : Bool) (now : Binary64) :
    Schema.key.Admits (key.describe whole now).toJson := by
  -- The fields of a key are those of a subkey and three more.
  refine admits_object (by decide) (List.rel_append (h.admits_facts whole now) ?_)
  refine .cons ⟨rfl, admits_boolean _⟩ (.cons ⟨rfl, admits_list ?_⟩ (.cons ⟨rfl, admits_list ?_⟩ .nil))
  · show ∀ value ∈ (key.identities.map fun identity => (identity, identity.display)).map _, _
    rw [List.map_map, List.forall_mem_map]
    exact fun identity _ => identity.admits_toJson identity.display
  · show ∀ value ∈ (key.subkeys.map fun subkey => subkey.facts whole now).map _, _
    rw [List.map_map, List.forall_mem_map]
    exact fun subkey hsubkey =>
      admits_object (by decide) ((hsubkeys subkey hsubkey).admits_facts whole now)

namespace Service

/-- Whatever is inspected, the reply about it is admitted by the schema that is declared for it, and
its keys and subkeys say what is declared. -/
theorem admits_inspectionJson (data : KeyData) (now : Binary64) (claim : Option IdentityClaim)
    (whole : Bool) :
    Schema.inspectionReply.Admits (inspectionJson (inspectKeyData data now claim) whole now) ∧
      ∀ key ∈ (inspectKeyData data now claim).keys,
        key.IsDeclared ∧ ∀ subkey ∈ key.subkeys, subkey.IsDeclared := by
  have hkeys := Ownership.isDeclared_inspectKeyData data now claim
  refine ⟨admits_object (by decide) ?_, hkeys⟩
  refine .cons ⟨rfl, admits_boolean _⟩ (.cons ⟨rfl, admits_list ?_⟩ .nil)
  rw [List.forall_mem_map]
  intro key hkey
  obtain ⟨hdeclared, hsubkeys⟩ := hkeys key hkey
  exact hdeclared.admits_describe hsubkeys whole now

end Service

end PgpInspect
