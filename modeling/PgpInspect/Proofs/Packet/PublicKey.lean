import PgpInspect.Key.Size
import PgpInspect.Packet.PublicKey
import PgpInspect.Proofs.Packet.Reading

/-!
# What decides the view of a key packet

The readers of a key packet are settled by the octets that they consume, and the fingerprint covers
the public part only. So the view of a packet whose public fields are read stays the same, but for
what its tag says, if it gets another tag and octets behind its body (`PublicKey.ofPacket_append`).
The times in a view are those of fields of four and two octets (`PublicKey.times_of_ofPacket`), and
the widths of the other fields bound its algorithm and its size (`PublicKey.inRange_of_ofPacket`).
-/

namespace PgpInspect.PublicKey

open Reading (Reads Settled)

/-! ## Readers -/

/-- The numbers of a header are those of fields of four, two and one octets. -/
structure Header.InRange (header : Header) : Prop where
  /-- The creation time has four octets. -/
  created_lt : header.created < 2 ^ 32
  /-- The days of validity have two octets. -/
  daysValid_lt : header.daysValid < 2 ^ 16
  /-- The algorithm has one octet. -/
  algorithm_lt : header.algorithm < 2 ^ 8

/-- The version of a header is one that is known, and only versions 2 and 3 state days. -/
structure Header.IsSupported (header : Header) : Prop where
  /-- The first version that is known is 2. -/
  version_ge : 2 ≤ header.version
  /-- The last version that is known is 6. -/
  version_le : header.version ≤ 6
  /-- Later versions do not state days of validity. -/
  daysValid_eq_zero : 4 ≤ header.version → header.daysValid = 0

/-- The end of a header is read in the same way whether days of validity are stated or not. -/
theorem readHeader_eq : readHeader = (do
    let version ← Reading.u8 "version"
    let created ← Reading.u32 "creation time"
    if version = 2 ∨ version = 3 then
      Reading.u16 "validity days" >>= readHeaderEnd version created
    else readHeaderEnd version created 0) := rfl

/-- The end of a header is settled by its octets. -/
theorem settled_readHeaderEnd {version created days : Nat} (hcreated : created < 2 ^ 32)
    (hdays : days < 2 ^ 16) (hstated : 4 ≤ version → days = 0) :
    Settled (readHeaderEnd version created days) fun header =>
      header.InRange ∧ header.IsSupported := by
  unfold readHeaderEnd
  refine (Settled.number 1 "algorithm").bind fun algorithm halgorithm => ?_
  refine Settled.ite (fun hlate => ?_) fun _ => Settled.ite (fun hearly => ?_) fun _ => .fail _
  · have hge : 2 ≤ version := by omega
    have hle : version ≤ 6 := by omega
    exact (Settled.number 4 "key material length").bind fun _ _ =>
      .pure ⟨⟨hcreated, hdays, halgorithm⟩, hge, hle, hstated⟩
  · have hge : 2 ≤ version := by omega
    have hle : version ≤ 6 := by omega
    exact .pure ⟨⟨hcreated, hdays, halgorithm⟩, hge, hle, hstated⟩

/-- A header is settled by its octets. -/
theorem settled_readHeader :
    Settled readHeader fun header => header.InRange ∧ header.IsSupported := by
  rw [readHeader_eq]
  refine (Settled.number 1 "version").bind fun version _ => ?_
  refine (Settled.number 4 "creation time").bind fun created hcreated => ?_
  refine Settled.ite (fun hearly => ?_) fun _ => ?_
  · have hnone (days : Nat) : 4 ≤ version → days = 0 := by omega
    exact (Settled.number 2 "validity days").bind fun days hdays =>
      settled_readHeaderEnd hcreated hdays (hnone days)
  · exact settled_readHeaderEnd hcreated (by decide) fun _ => rfl

/-- A curve identifier is settled by its octets. -/
theorem settled_readCurve : Settled readCurve fun _ => True := by
  unfold readCurve
  refine (Settled.number 1 "curve OID length").bind fun length _ => ?_
  refine Settled.ite (fun _ => .fail _) fun _ => ?_
  exact (Settled.bytes length "curve OID").bind fun _ _ => .pure trivial

/-- The modulus of public fields has no more octets than a multiprecision integer may have. -/
def Material.InRange (material : Material) : Prop :=
  ∀ modulus ∈ material.modulus, modulus.length ≤ 2 ^ 13

/-- The public fields have what their layout has. -/
structure Material.Fits (layout : Algorithm.Layout) (material : Material) : Prop where
  /-- The modulus is that of an RSA, DSA or Elgamal key. -/
  modulus : material.modulus.isSome = true → layout = .rsa ∨ layout = .dsa ∨ layout = .elgamal
  /-- The curve is that of a key with a point on it. -/
  curve : material.curve.isSome = true → layout = .curvePoint ∨ layout = .curvePointDerivation

/-- The public fields of every algorithm are settled by their octets. -/
theorem settled_readMaterial (algorithm : Nat) :
    Settled (readMaterial algorithm) fun material =>
      material.InRange ∧ material.Fits (Algorithm.layout algorithm) := by
  have hmodulus (modulus : Octets) (exponent : Option Octets) (hlength : modulus.length ≤ 2 ^ 13) :
      Material.InRange { modulus := some modulus, exponent } := by
    rintro _ ⟨⟩
    exact hlength
  have hnone (curve : Option String) : Material.InRange { curve } := by rintro _ ⟨⟩
  unfold readMaterial
  cases Algorithm.layout algorithm with
  | rsa =>
    refine (Settled.mpi "RSA n").bind fun modulus hlength => ?_
    exact (Settled.mpi "RSA e").bind fun _ _ => .pure ⟨hmodulus modulus _ hlength, by simp, nofun⟩
  | dsa =>
    refine (Settled.mpi "DSA p").bind fun modulus hlength => ?_
    refine (Settled.mpi "DSA q").bind fun _ _ => ?_
    refine (Settled.mpi "DSA g").bind fun _ _ => ?_
    exact (Settled.mpi "DSA y").bind fun _ _ => .pure ⟨hmodulus modulus _ hlength, by simp, nofun⟩
  | elgamal =>
    refine (Settled.mpi "Elgamal p").bind fun modulus hlength => ?_
    refine (Settled.mpi "Elgamal g").bind fun _ _ => ?_
    exact (Settled.mpi "Elgamal y").bind fun _ _ =>
      .pure ⟨hmodulus modulus _ hlength, by simp, nofun⟩
  | curvePoint =>
    refine settled_readCurve.bind fun curve _ => ?_
    exact (Settled.mpi "EC point").bind fun _ _ => .pure ⟨hnone curve, nofun, by simp⟩
  | curvePointDerivation =>
    refine settled_readCurve.bind fun curve _ => ?_
    refine (Settled.mpi "EC point").bind fun _ _ => ?_
    refine (Settled.number 1 "KDF length").bind fun length _ => ?_
    exact (Settled.bytes length "KDF parameters").bind fun _ _ =>
      .pure ⟨hnone curve, nofun, by simp⟩
  | native length =>
    exact (Settled.bytes length "native public key").bind fun _ _ =>
      .pure ⟨hnone none, nofun, nofun⟩
  | unknown => exact .fail _

/-! ## The parts of a view -/

/-- The public part of a body behind its header has the fields that are read, if there are any. -/
theorem material_of_publicPart {header : Header} {tag : Binary64} {position publicEnd : Nat}
    {rest body : Octets} {material : Material}
    (h : publicPart header ⟨tag, position, rest, 0⟩ body = (material, publicEnd)) :
    material.InRange ∧ material.Fits (Algorithm.layout header.algorithm) := by
  unfold publicPart at h
  cases hrun : (readMaterial header.algorithm).runAt ⟨tag, position, rest, 0⟩ with
  | mk outcome after =>
    rw [hrun] at h
    -- A stated length decides where the public part ends, and never what its fields are.
    have hmaterial : material = outcome.toOption.getD {} := by
      cases outcome <;> cases hlength : header.materialLength <;> rw [hlength] at h <;>
        exact (Prod.mk.inj h).1.symm
    rw [hmaterial]
    cases outcome with
    | ok fields => exact (settled_readMaterial _ _ _ _ _ _ hrun).1
    | error fault => exact ⟨nofun, nofun, nofun⟩

/-- What is known of parts that are read of a packet. -/
structure Parts.IsReadOf (parts : Parts) (packet : RawPacket) : Prop where
  /-- The header is in range. -/
  header_inRange : parts.header.InRange
  /-- Its version is one that is known. -/
  header_isSupported : parts.header.IsSupported
  /-- The public fields are in range. -/
  material_inRange : parts.material.InRange
  /-- They are those of the algorithm. -/
  material_fits : parts.material.Fits (Algorithm.layout parts.header.algorithm)
  /-- The digest is that of some public part. -/
  digest_eq : ∃ publicPart, PublicKey.digest packet.tag (parts.header.version : Binary64)
    publicPart parts.material = .ok parts.digest

/-- Parts that can be read are a header, public fields, and what is digested of the public part. -/
theorem isReadOf_of_readParts {packet : RawPacket} {parts : Parts}
    (h : readParts packet = .ok parts) : parts.IsReadOf packet := by
  unfold readParts at h
  dsimp only at h
  split at h
  · cases h
  · next header cursor hheader =>
    obtain ⟨⟨hrange, hsupported⟩, octets, behind, hbody, hreads⟩ :=
      settled_readHeader _ _ _ _ _ hheader
    have hcursor : cursor = ⟨packet.tag, 0 + octets.length, behind, 0⟩ := by
      rw [Cursor.start, hbody] at hheader
      exact hreads.after_eq hheader
    split at h
    · cases h
    · next digested hdigest =>
      cases h
      have hmaterial : (publicPart header cursor packet.body).1.InRange ∧
          (publicPart header cursor packet.body).1.Fits (Algorithm.layout header.algorithm) := by
        rw [hcursor]
        exact material_of_publicPart rfl
      exact ⟨hrange, hsupported, hmaterial.1, hmaterial.2, _, hdigest⟩

/-- The creation time and the days of validity of a view are those of fields of four and two
octets. -/
theorem times_of_ofPacket {packet : RawPacket} {key : PublicKey}
    (h : PublicKey.ofPacket packet = .ok key) :
    ∃ created days : Nat, created < 2 ^ 32 ∧ days < 2 ^ 16 ∧ key.created = (created : Binary64) ∧
      key.daysValid = (days : Binary64) := by
  obtain ⟨parts, hparts, rfl⟩ := exists_parts_of_ofPacket h
  have hrange := (isReadOf_of_readParts hparts).header_inRange
  exact ⟨_, _, hrange.created_lt, hrange.daysValid_lt, rfl, rfl⟩

/-- A modulus has at most two hexadecimal digits for each octet. -/
theorem sizeOfModulus_le {modulus : Octets} (h : modulus.length ≤ 2 ^ 13) :
    sizeOfModulus modulus ≤ 2 ^ 16 := by
  -- At the bound the size is exactly `2 ^ 16`: 1.024 times a quotient of 64000 units.
  have hdigits : hexLength modulus ≤ 2 ^ 14 := by
    have hstripped := (List.dropWhile_sublist (· == '0') (l := modulus.hexDigits)).length_le
    rw [Octets.length_hexDigits] at hstripped
    unfold hexLength
    omega
  unfold sizeOfModulus
  dsimp only
  omega

/-- The curves that are known have few bits. -/
theorem bits_le (identifier : String) : Curve.bits identifier ≤ 2 ^ 16 := by
  unfold Curve.bits
  split <;> decide

/-- The algorithms with one key size have few bits. -/
theorem fixedBits_le (algorithm : Binary64) : Algorithm.fixedBits algorithm ≤ 2 ^ 16 := by
  unfold Algorithm.fixedBits
  split <;> decide

/-- A key has at most `2 ^ 16` bits, whatever decides its size. -/
theorem size_le {key : PublicKey} (h : ∀ modulus ∈ key.modulus, modulus.length ≤ 2 ^ 13) :
    key.size ≤ 2 ^ 16 := by
  unfold PublicKey.size
  split
  · next modulus hmodulus => exact sizeOfModulus_le (h modulus hmodulus)
  · split
    · split
      · exact fixedBits_le _
      · exact bits_le _
    · exact fixedBits_le _

/-- The numbers of a view that are not times. -/
structure InRange (key : PublicKey) : Prop where
  /-- The algorithm has one octet. -/
  algorithm : ∃ algorithm : Nat, algorithm < 2 ^ 8 ∧ key.algorithm = (algorithm : Binary64)
  /-- The size is that of a modulus with a bit count in two octets, or less. -/
  size_le : key.size ≤ 2 ^ 16

/-- The algorithm and the size of a view are bounded by the widths of its fields. -/
theorem inRange_of_ofPacket {packet : RawPacket} {key : PublicKey}
    (h : PublicKey.ofPacket packet = .ok key) : key.InRange := by
  obtain ⟨parts, hparts, rfl⟩ := exists_parts_of_ofPacket h
  have hread := isReadOf_of_readParts hparts
  exact ⟨⟨_, hread.header_inRange.algorithm_lt, rfl⟩, size_le hread.material_inRange⟩

/-! ## Octets behind the public part -/

/-- The public fields of a packet are read, and where the header states their length, the body is
as long. -/
def HasReadableFields (packet : RawPacket) : Prop :=
  ∃ header afterHeader material afterFields,
    readHeader.runAt (.start packet.tag packet.body) = (.ok header, afterHeader) ∧
      (readMaterial header.algorithm).runAt afterHeader = (.ok material, afterFields) ∧
      ∀ length ∈ header.materialLength, afterHeader.position + length ≤ packet.body.length

instance : DecidablePred HasReadableFields := fun packet =>
  match hheader : readHeader.runAt (.start packet.tag packet.body) with
  | (.error _, _) => .isFalse (by
      rintro ⟨header, afterHeader, -, -, hread, -⟩
      rw [hheader] at hread
      cases hread)
  | (.ok header, afterHeader) =>
    match hmaterial : (readMaterial header.algorithm).runAt afterHeader with
    | (.error _, _) => .isFalse (by
        rintro ⟨header', afterHeader', material, afterFields, hread, hfields, -⟩
        rw [hheader] at hread
        cases hread
        rw [hmaterial] at hfields
        cases hfields)
    | (.ok material, afterFields) =>
      decidable_of_iff
        (∀ length ∈ header.materialLength, afterHeader.position + length ≤ packet.body.length) (by
          constructor
          · exact fun hlength => ⟨_, _, _, _, hheader, hmaterial, hlength⟩
          · rintro ⟨header', afterHeader', -, -, hread, -, hlength⟩
            rw [hheader] at hread
            cases hread
            exact hlength)

/-- The view of a packet with another tag. -/
def withTag (key : PublicKey) (tag : Binary64) : PublicKey :=
  { key with tag, subkey := tag = 14 ∨ tag = 7, secret := tag = 5 ∨ tag = 7 }

/-- The tag of a packet shows in the fault only if nothing can be digested. -/
theorem digest_tag (tag tag' version : Binary64) (publicPart : Octets) (material : Material) :
    digest tag' version publicPart material =
      (digest tag version publicPart material).mapError ({ · with tag := tag' }) := by
  unfold digest
  split
  · split <;> rfl
  · split <;> rfl
  · rfl
  · rfl
  · rfl
  · rfl

/-- A packet with a header is viewed if the public part of its body can be digested. -/
theorem ofPacket_eq_map (packet : RawPacket) {header : Header} {cursor : Cursor}
    {material : Material} {publicEnd : Nat}
    (hheader : readHeader.runAt (.start packet.tag packet.body) = (.ok header, cursor))
    (hpart : publicPart header cursor packet.body = (material, publicEnd)) :
    PublicKey.ofPacket packet =
      (digest packet.tag (header.version : Binary64) (packet.body.take publicEnd) material).map
        fun digest => ofParts packet.tag { header, material, digest } := by
  unfold PublicKey.ofPacket readParts
  rw [hheader]
  dsimp only
  rw [hpart]
  dsimp only
  cases digest packet.tag (header.version : Binary64) (packet.body.take publicEnd) material <;> rfl

/-- The public part of a body whose fields are read ends where the header says, or else behind the
fields. -/
theorem publicPart_of_reads {header : Header} {fields : Octets} {material : Material}
    (h : Reads (readMaterial header.algorithm) fields material) (tag : Binary64) (position : Nat)
    (rest body : Octets) :
    publicPart header ⟨tag, position, fields ++ rest, 0⟩ body =
      (material, match header.materialLength with
        | some length => min body.length (position + length)
        | none => position + fields.length) := by
  unfold publicPart
  rw [h tag position rest]
  cases header.materialLength <;> rfl

/-- A body whose public fields are read is a header and what the public part is told from. Its public
part ends inside of it at a place that does not depend on the tag or on octets behind the body. -/
theorem exists_publicEnd {packet : RawPacket} (h : HasReadableFields packet) :
    ∃ header material publicEnd, publicEnd ≤ packet.body.length ∧
      ∀ tag behind, ∃ cursor,
        readHeader.runAt (.start tag (packet.body ++ behind)) = (.ok header, cursor) ∧
          publicPart header cursor (packet.body ++ behind) = (material, publicEnd) := by
  obtain ⟨header, afterHeader, material, afterFields, hheader, hmaterial, hlength⟩ := h
  obtain ⟨packetTag, body⟩ := packet
  dsimp only at hheader hlength ⊢
  obtain ⟨-, headerOctets, rest, rfl, hreadHeader⟩ := settled_readHeader _ _ _ _ _ hheader
  obtain rfl := hreadHeader.after_eq hheader
  obtain ⟨-, fieldOctets, rest, rfl, hreadFields⟩ := settled_readMaterial _ _ _ _ _ _ hmaterial
  rw [List.length_append, List.length_append] at hlength ⊢
  have hinside : ∀ length, header.materialLength = some length → headerOctets.length + length ≤
      headerOctets.length + (fieldOctets.length + rest.length) := by
    intro length hstated
    have hstatedLength := hlength length hstated
    rw [Nat.zero_add] at hstatedLength
    exact hstatedLength
  -- The place is the one that the header states, or else the end of the fields.
  refine ⟨header, material, headerOctets.length + header.materialLength.getD fieldOctets.length,
    ?_, fun tag behind => ⟨⟨tag, 0 + headerOctets.length, fieldOctets ++ (rest ++ behind), 0⟩,
      ?_, ?_⟩⟩
  · cases hstated : header.materialLength with
    | none =>
      rw [Option.getD_none]
      omega
    | some length =>
      have hlength := hinside length hstated
      rw [Option.getD_some]
      omega
  · rw [List.append_assoc, List.append_assoc]
    exact hreadHeader tag 0 _
  · rw [publicPart_of_reads hreadFields, Nat.zero_add]
    cases hstated : header.materialLength with
    | none => rfl
    | some length =>
      have hlength := hinside length hstated
      have hmin : min (headerOctets ++ (fieldOctets ++ rest) ++ behind).length
          (headerOctets.length + length) = headerOctets.length + length := by
        rw [List.length_append, List.length_append, List.length_append]
        omega
      dsimp only
      rw [hmin, Option.getD_some]

/-- Another tag and octets behind the body change nothing of the view of a packet whose public
fields are read, but for what the tag says. -/
theorem ofPacket_append {packet : RawPacket} {key : PublicKey} (hfields : HasReadableFields packet)
    (hview : PublicKey.ofPacket packet = .ok key) (tag : Binary64) (behind : Octets) :
    PublicKey.ofPacket ⟨tag, packet.body ++ behind⟩ = .ok (key.withTag tag) := by
  obtain ⟨header, material, publicEnd, hle, hparts⟩ := exists_publicEnd hfields
  obtain ⟨cursor, hheader, hpart⟩ := hparts packet.tag []
  obtain ⟨cursor', hheader', hpart'⟩ := hparts tag behind
  rw [List.append_nil] at hheader hpart
  rw [ofPacket_eq_map packet hheader hpart] at hview
  rw [ofPacket_eq_map ⟨tag, packet.body ++ behind⟩ hheader' hpart',
    List.take_append_of_le_length hle]
  cases hdigest : digest packet.tag (header.version : Binary64) (packet.body.take publicEnd)
      material with
  | error fault =>
    rw [hdigest] at hview
    cases hview
  | ok digested =>
    rw [hdigest] at hview
    cases hview
    rw [digest_tag packet.tag tag, hdigest]
    rfl

end PgpInspect.PublicKey
