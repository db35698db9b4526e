import PgpInspect.Proofs.Octets.Hexadecimal
import PgpInspect.Proofs.Packet.Signature
import PgpInspect.Proofs.Packet.StatedLength
import PgpInspect.Proofs.Packet.View

/-!
# Every packet has a well-formed record

Whatever the tag and the body of a packet are, it is viewed as a record with that tag
(`PacketRecord.views_ofPacket`). The record of a key satisfies what the rest of the library relies
on (`PublicKey.IsWellFormed`), and a packet is malformed for no other reason than a field fault of
the packet itself.

The form of a fingerprint is checked where one comes as text (`Fingerprint.ofText?`). Viewing a key
with that check added (`PublicKey.ofPacketChecked`) gives the same outcomes, since the digests have
sixteen, twenty or thirty-two octets: the check never refuses anything.
-/

namespace PgpInspect

/-! ## Fingerprints -/

namespace Fingerprint

/-- The hexadecimal digits in upper case. -/
def isUpperDigit (c : Char) : Bool := c.isDigit || ('A' ≤ c && c ≤ 'F')

/-- A digit is a hexadecimal one, and in upper case it is one in upper case. -/
theorem digitChar_table : ∀ nibble < 16, isHexDigit (Nat.digitChar nibble) = true ∧
    isUpperDigit (Nat.digitChar nibble).toUpper = true := by
  decide

/-- The text of a digest has digits in upper case. -/
theorem isUpperDigit_of_mem_ofDigest {digest : Octets} {c : Char}
    (h : c ∈ (ofDigest digest).toList) : isUpperDigit c = true := by
  rw [ofDigest, String.toList_ofList, Octets.hexDigits_eq_map, List.map_map] at h
  obtain ⟨nibble, hnibble, rfl⟩ := List.mem_map.mp h
  exact (digitChar_table nibble (Octets.lt_of_mem_nibbles hnibble)).2

/-- The text of a digest has two digits for each octet. -/
theorem length_ofDigest (digest : Octets) : (ofDigest digest).length = 2 * digest.length := by
  rw [ofDigest, String.length_ofList, List.length_map, Octets.length_hexDigits]

/-- The hexadecimal text of a digest of one of the three lengths is a fingerprint. -/
theorem ofText?_hex {digest : Octets}
    (h : digest.length = 16 ∨ digest.length = 20 ∨ digest.length = 32) :
    ofText? digest.hex = some (ofDigest digest) := by
  have hlength : [32, 40, 64].contains digest.hexDigits.length = true := by
    rw [Octets.length_hexDigits]
    rcases h with h | h | h <;> rw [h] <;> rfl
  have hdigits : digest.hexDigits.all isHexDigit = true := by
    rw [List.all_eq_true, Octets.hexDigits_eq_map, List.forall_mem_map]
    exact fun nibble hnibble => (digitChar_table nibble (Octets.lt_of_mem_nibbles hnibble)).1
  rw [ofText?, Octets.hex, String.toList_ofList, isFingerprint, hlength, hdigits]
  rfl

end Fingerprint

/-! ## Keys -/

namespace PublicKey

open Reading (Accepts)

/-- The number of octets of a fingerprint. -/
def digestLength (version : Nat) : Nat :=
  if version ≤ 3 then 16 else if version = 4 then 20 else 32

/-- A digest has the length of its version, which is one that is known. -/
theorem length_of_digest {tag : Binary64} {version : Nat} {publicPart digested : Octets}
    {material : Material} (h : digest tag (version : Binary64) publicPart material = .ok digested) :
    digested.length = digestLength version := by
  unfold digest at h
  rw [Binary64.toInt?_natCast] at h
  split at h
  · next hversion =>
    obtain rfl : version = 2 := Int.ofNat.inj (Option.some.inj hversion)
    split at h
    · cases h
      exact Digest.Md5.length_digest _
    · cases h
  · next hversion =>
    obtain rfl : version = 3 := Int.ofNat.inj (Option.some.inj hversion)
    split at h
    · cases h
      exact Digest.Md5.length_digest _
    · cases h
  · next hversion =>
    obtain rfl : version = 4 := Int.ofNat.inj (Option.some.inj hversion)
    cases h
    exact Digest.Sha1.length_digest _
  · next hversion =>
    obtain rfl : version = 5 := Int.ofNat.inj (Option.some.inj hversion)
    cases h
    exact Digest.Sha256.length_digest _
  · next hversion =>
    obtain rfl : version = 6 := Int.ofNat.inj (Option.some.inj hversion)
    cases h
    exact Digest.Sha256.length_digest _
  · cases h

/-- The algorithms whose public fields have a modulus. -/
theorem mem_of_layout_modulus {algorithm : Nat} (h : Algorithm.layout algorithm = .rsa ∨
    Algorithm.layout algorithm = .dsa ∨ Algorithm.layout algorithm = .elgamal) :
    algorithm ∈ [1, 2, 3, 16, 17, 20] := by
  unfold Algorithm.layout at h
  split at h <;> simp_all

/-- The algorithms whose public fields have a curve. -/
theorem mem_of_layout_curve {algorithm : Nat} (h : Algorithm.layout algorithm = .curvePoint ∨
    Algorithm.layout algorithm = .curvePointDerivation) : algorithm ∈ [18, 19, 22] := by
  unfold Algorithm.layout at h
  split at h <;> simp_all

/-- What the rest of the library relies on about the record of a key. -/
structure IsWellFormed (key : PublicKey) : Prop where
  /-- It is a subkey by its tag. -/
  subkey_iff : key.subkey = true ↔ key.tag = 7 ∨ key.tag = 14
  /-- It is secret by its tag. -/
  secret_iff : key.secret = true ↔ key.tag = 5 ∨ key.tag = 7
  /-- The first version is 2. -/
  version_ge : 2 ≤ key.version
  /-- The last version is 6. -/
  version_le : key.version ≤ 6
  /-- The creation time has four octets. -/
  created : ∃ created : Nat, created < 2 ^ 32 ∧ key.created = (created : Binary64)
  /-- The days of validity have two octets. -/
  daysValid : ∃ days : Nat, days < 2 ^ 16 ∧ key.daysValid = (days : Binary64)
  /-- Only versions 2 and 3 state days of validity. -/
  daysValid_eq_zero : ¬ (key.version = 2 ∨ key.version = 3) → key.daysValid = 0
  /-- The fingerprint consists of hexadecimal digits in upper case. -/
  isUpperDigit_fingerprint : ∀ c ∈ key.fingerprint.toList, Fingerprint.isUpperDigit c = true
  /-- A fingerprint of version 2 or 3 has 32 digits. -/
  length_early : key.version = 2 ∨ key.version = 3 → key.fingerprint.length = 32
  /-- A fingerprint of version 4 has 40 digits. -/
  length_four : key.version = 4 → key.fingerprint.length = 40
  /-- A fingerprint of version 5 or 6 has 64 digits. -/
  length_late : key.version = 5 ∨ key.version = 6 → key.fingerprint.length = 64
  /-- There are not both a modulus and a curve. -/
  modulus_or_curve : key.modulus = none ∨ key.curve = none
  /-- A modulus is that of an RSA, DSA or Elgamal key. -/
  algorithm_of_modulus : key.modulus ≠ none →
    key.algorithm ∈ ([1, 2, 3, 16, 17, 20] : List Binary64)
  /-- A curve is that of a key with a point on it. -/
  algorithm_of_curve : key.curve ≠ none → key.algorithm ∈ ([18, 19, 22] : List Binary64)

/-- The view of a packet is well-formed. -/
theorem isWellFormed_of_ofPacket {packet : RawPacket} {key : PublicKey}
    (h : PublicKey.ofPacket packet = .ok key) : key.IsWellFormed := by
  obtain ⟨⟨header, material, digested⟩, hparts, rfl⟩ := exists_parts_of_ofPacket h
  obtain ⟨hrange, hsupported, -, hfits, publicPart, hdigest⟩ := isReadOf_of_readParts hparts
  dsimp only at hrange hsupported hfits hdigest
  have hge := hsupported.version_ge
  have hle := hsupported.version_le
  have hlength : (Fingerprint.ofDigest digested).length = 2 * digestLength header.version := by
    rw [Fingerprint.length_ofDigest, length_of_digest hdigest]
  have hcast {algorithms : List Nat} (hmem : header.algorithm ∈ algorithms) :
      (header.algorithm : Binary64) ∈ algorithms.map fun n : Nat => (n : Binary64) :=
    List.mem_map_of_mem hmem
  have hmodulus : material.modulus ≠ none → header.algorithm ∈ [1, 2, 3, 16, 17, 20] := fun hsome =>
    mem_of_layout_modulus (hfits.modulus (Option.isSome_iff_ne_none.mpr hsome))
  have hcurve : material.curve ≠ none → header.algorithm ∈ [18, 19, 22] := fun hsome =>
    mem_of_layout_curve (hfits.curve (Option.isSome_iff_ne_none.mpr hsome))
  exact {
    subkey_iff := decide_eq_true_iff.trans or_comm
    secret_iff := decide_eq_true_iff
    version_ge := hge
    version_le := hle
    created := ⟨header.created, hrange.created_lt, rfl⟩
    daysValid := ⟨header.daysValid, hrange.daysValid_lt, rfl⟩
    daysValid_eq_zero := fun hversion => by
      have hother : ¬(header.version = 2 ∨ header.version = 3) := hversion
      exact congrArg (Nat.cast (R := Binary64)) (hsupported.daysValid_eq_zero (by omega))
    isUpperDigit_fingerprint := fun _ => Fingerprint.isUpperDigit_of_mem_ofDigest
    length_early := fun hversion => by
      have hearly : header.version = 2 ∨ header.version = 3 := hversion
      exact hlength.trans (by rw [digestLength, if_pos (by omega)])
    length_four := fun hversion => by
      have hfour : header.version = 4 := hversion
      exact hlength.trans (by rw [digestLength, if_neg (by omega), if_pos hfour])
    length_late := fun hversion => by
      have hlate : header.version = 5 ∨ header.version = 6 := hversion
      exact hlength.trans (by rw [digestLength, if_neg (by omega), if_neg (by omega)])
    modulus_or_curve := by
      -- No algorithm is in both lists.
      by_contra hboth
      obtain ⟨hsome, hsome'⟩ := not_or.mp hboth
      have hapart : ∀ algorithm ∈ [1, 2, 3, 16, 17, 20], algorithm ∉ [18, 19, 22] := by decide
      exact hapart _ (hmodulus hsome) (hcurve hsome')
    algorithm_of_modulus := fun hsome => hcast (hmodulus hsome)
    algorithm_of_curve := fun hsome => hcast (hcurve hsome) }

/-! ## The form of fingerprints -/

/-- The check of the form of the fingerprint never refuses a key. -/
theorem ofPacketChecked_eq (packet : RawPacket) :
    ofPacketChecked packet = (PublicKey.ofPacket packet).mapError .field := by
  unfold ofPacketChecked PublicKey.ofPacket
  cases hparts : readParts packet with
  | error fault => rfl
  | ok parts =>
    obtain ⟨publicPart, hdigest⟩ := (isReadOf_of_readParts hparts).digest_eq
    have hlength : parts.digest.length = 16 ∨ parts.digest.length = 20 ∨
        parts.digest.length = 32 := by
      rw [length_of_digest hdigest, digestLength]
      split_ifs <;> simp
    dsimp only [Except.mapError, bind, Except.bind]
    rw [Fingerprint.ofText?_hex hlength]
    rfl

/-! ## Faults -/

/-- What stands in front of the public fields is read as a grammar says. -/
theorem exists_accepts_readHeader : ∃ written, Accepts readHeader written := by
  have hend (version created days : Nat) :
      ∃ written, Accepts (readHeaderEnd version created days) written :=
    ⟨_, (Accepts.number 1 "algorithm").bind fun algorithm =>
      Accepts.ite (fun _ => (Accepts.number 4 "key material length").bind fun _ => Accepts.pure _)
        fun _ => Accepts.ite (fun _ => Accepts.pure _) fun _ => Accepts.fail _⟩
  choose written hwritten using hend
  rw [readHeader_eq]
  exact ⟨_, (Accepts.number 1 "version").bind fun version =>
    (Accepts.number 4 "creation time").bind fun created =>
      Accepts.ite (fun _ => (Accepts.number 2 "validity days").bind (hwritten version created))
        fun _ => hwritten version created 0⟩

/-- A packet whose parts cannot be read is at fault itself. -/
theorem tag_of_readParts_error {packet : RawPacket} {fault : FieldFault}
    (h : readParts packet = .error fault) : fault.tag = packet.tag := by
  obtain ⟨written, haccepts⟩ := exists_accepts_readHeader
  unfold readParts at h
  dsimp only at h
  split at h
  · next fault' cursor hheader =>
    cases h
    exact haccepts.tag_eq hheader
  · next header cursor hheader =>
    split at h
    · next fault' hdigest =>
      cases h
      -- A digest fails with the tag that it is given, so that giving it again changes nothing.
      have hagain := digest_tag packet.tag packet.tag (header.version : Binary64)
        (packet.body.take (publicPart header cursor packet.body).2)
        (publicPart header cursor packet.body).1
      rw [hdigest] at hagain
      exact congrArg FieldFault.tag (Except.error.inj hagain)
    · cases h

/-- So is a packet that cannot be viewed as a key. -/
theorem tag_of_ofPacket_error {packet : RawPacket} {fault : FieldFault}
    (h : PublicKey.ofPacket packet = .error fault) : fault.tag = packet.tag := by
  unfold PublicKey.ofPacket at h
  cases hparts : readParts packet with
  | error fault' =>
    rw [hparts] at h
    cases h
    exact tag_of_readParts_error hparts
  | ok parts =>
    rw [hparts] at h
    cases h

end PublicKey

/-! ## Records -/

namespace PacketRecord

/-- A packet is viewed as a record. -/
structure Views (packet : RawPacket) (record : PacketRecord) : Prop where
  /-- The record has the tag of the packet. -/
  tag_eq : record.tag = packet.tag
  /-- A malformed record is one of a packet with a field fault, and says which. -/
  exists_fault : ∀ tag reason, record = .malformed tag reason →
    ∃ fault : FieldFault, fault.tag = packet.tag ∧ reason = fault.message ∧
      fault.toFault.name = "PacketFieldError" ∧
      (PublicKey.ofPacket packet = .error fault ∨ Signature.ofPacket packet = .error fault)
  /-- Checking the form of the fingerprint as well would not refuse the packet. -/
  checked_eq : PublicKey.ofPacketChecked packet = (PublicKey.ofPacket packet).mapError .field
  /-- The record of a key is well-formed. -/
  isWellFormed : ∀ key, record = .publicKey key → key.IsWellFormed

/-- A packet whose record is neither malformed nor a key. -/
theorem views_unread {packet : RawPacket} {record : PacketRecord} (htag : record.tag = packet.tag)
    (hview : ∀ tag reason, record ≠ .malformed tag reason) (hkey : ∀ key, record ≠ .publicKey key) :
    Views packet record :=
  ⟨htag, fun tag reason hrecord => absurd hrecord (hview tag reason),
    PublicKey.ofPacketChecked_eq packet, fun key hrecord => absurd hrecord (hkey key)⟩

/-- A packet that is viewed as a key or is at fault. -/
theorem views_key (packet : RawPacket) :
    Views packet (ofView packet.tag .publicKey (PublicKey.ofPacket packet)) := by
  cases hview : PublicKey.ofPacket packet with
  | ok key =>
    show Views packet (.publicKey key)
    refine ⟨(PublicKey.tag_of_ofPacket hview).1, fun _ _ hrecord => ?_,
      PublicKey.ofPacketChecked_eq packet, fun _ hrecord => ?_⟩
    · cases hrecord
    · cases hrecord
      exact PublicKey.isWellFormed_of_ofPacket hview
  | error fault =>
    show Views packet (.malformed packet.tag fault.message)
    refine ⟨rfl, fun _ _ hrecord => ?_, PublicKey.ofPacketChecked_eq packet, fun _ hrecord => ?_⟩
    · cases hrecord
      exact ⟨fault, PublicKey.tag_of_ofPacket_error hview, rfl, rfl, .inl hview⟩
    · cases hrecord

/-- A packet that is viewed as a signature or is at fault. -/
theorem views_signature (packet : RawPacket) :
    Views packet (ofView packet.tag .signature (Signature.ofPacket packet)) := by
  rcases Signature.outcome_of_ofPacket packet.tag packet.body with
    ⟨signature, hview, written, tail, -, hwritten⟩ | ⟨fault, hview, htag⟩
  · rw [hview]
    refine views_unread ?_ (fun _ _ hrecord => by cases hrecord) fun _ hrecord => by cases hrecord
    cases hwritten <;> rfl
  · rw [hview]
    show Views packet (.malformed packet.tag fault.message)
    refine ⟨rfl, fun _ _ hrecord => ?_, PublicKey.ofPacketChecked_eq packet, fun _ hrecord => ?_⟩
    · cases hrecord
      exact ⟨fault, htag, rfl, rfl, .inr hview⟩
    · cases hrecord

/-- Every packet is viewed as a record. -/
theorem views_ofPacket (packet : RawPacket) : Views packet (ofPacket packet) := by
  unfold ofPacket
  split
  · exact views_key packet
  · exact views_key packet
  · exact views_key packet
  · exact views_key packet
  · exact views_unread rfl (fun _ _ hrecord => by cases hrecord) fun _ hrecord => by cases hrecord
  · exact views_signature packet
  · exact views_unread rfl (fun _ _ hrecord => by cases hrecord) fun _ hrecord => by cases hrecord

end PacketRecord

end PgpInspect
