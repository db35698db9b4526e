import PgpInspect.Proofs.Packet.Subpacket

/-!
# The grammar of signature packets

A signature is a header with, from version 4 on, two subpacket areas, and anything behind it: the
signature value is not looked at. `WrittenHeader` and `Written` say so without reading a body.
The width of the area lengths goes with the version, and the creation time is searched in the
subpackets of both areas, the hashed ones first (`StatesCreation`). The view of a packet succeeds
exactly for bodies that begin with a written signature (`ofPacket_eq_ok_iff_written`).
-/

namespace PgpInspect

namespace Signature

open Reading (Accepts)

/-! ## Grammar -/

/-- Whether a subpacket states when a signature was made: it has that type and room for a time. -/
def IsCreation (subpacket : Subpacket) : Prop := subpacket.type = 2 ∧ 4 ≤ subpacket.data.length

/-- The creation time that subpackets state: that of the first which is long enough, else 0. -/
inductive StatesCreation : (subpackets : List Subpacket) → (created : Nat) → Prop where
  /-- The first four octets of the first subpacket of this kind. -/
  | first {earlier later : List Subpacket} {subpacket : Subpacket} :
    (∀ other ∈ earlier, ¬ IsCreation other) → IsCreation subpacket →
    StatesCreation (earlier ++ subpacket :: later) (Octets.toNat (subpacket.data.take 4))
  /-- None of this kind. -/
  | none {subpackets : List Subpacket} : (∀ other ∈ subpackets, ¬ IsCreation other) →
    StatesCreation subpackets 0

/-- The octets that write an area: its length in `width` octets, and the area. -/
def WrittenArea (width : Nat) (octets area : Octets) : Prop :=
  area.length < 256 ^ width ∧ octets = Octets.ofNat width area.length ++ area

/-- The number of octets of the length of an area: four in version 6, two before. -/
def areaWidth (version : Nat) : Nat := if version = 6 then 4 else 2

/-- The octets that write a header with its areas. -/
inductive WrittenHeader : (written : Octets) → Header → Prop where
  /-- In versions 2 and 3 there are an octet that is skipped, the type and the time. -/
  | timed {version skipped type : UInt8} {time : Octets} :
    version.toNat = 2 ∨ version.toNat = 3 → time.length = 4 →
    WrittenHeader (version :: skipped :: type :: time)
      (.timed version.toNat type.toNat time.toNat)
  /-- In versions 4 to 6 there are the type, two algorithms and two areas. -/
  | withAreas {version type keyAlgorithm hashAlgorithm : UInt8}
      {hashedOctets hashed unhashedOctets unhashed : Octets} :
    version.toNat = 4 ∨ version.toNat = 5 ∨ version.toNat = 6 →
    WrittenArea (areaWidth version.toNat) hashedOctets hashed →
    WrittenArea (areaWidth version.toNat) unhashedOctets unhashed →
    WrittenHeader
      (version :: type :: keyAlgorithm :: hashAlgorithm :: (hashedOctets ++ unhashedOctets))
      (.withAreas version.toNat type.toNat hashed unhashed)

/-- The octets that write the signature of a packet with the tag `tag`. -/
inductive Written (tag : Binary64) : (written : Octets) → Signature → Prop where
  /-- A header with a time has no subpackets. -/
  | timed {written : Octets} {version type created : Nat} :
    WrittenHeader written (.timed version type created) →
    Written tag written ⟨tag, version, type, created, []⟩
  /-- The areas of a header are areas of subpackets, which state the time. -/
  | withAreas {written hashed unhashed : Octets} {version type created : Nat}
      {hashedOnes unhashedOnes : List Subpacket} :
    WrittenHeader written (.withAreas version type hashed unhashed) →
    Subpacket.Area hashed hashedOnes → Subpacket.Area unhashed unhashedOnes →
    StatesCreation (hashedOnes ++ unhashedOnes) created →
    Written tag written ⟨tag, version, type, created, hashedOnes ++ unhashedOnes⟩

/-! ## The creation time -/

/-- Four octets that are there are not filled up. -/
theorem leadingWord_of_le {data : Octets} (h : 4 ≤ data.length) :
    leadingWord data = Octets.toNat (data.take 4) := by
  rw [leadingWord, List.take_append_of_le_length h]

/-- A subpacket is looked for by its type and its length. -/
theorem isCreation_iff {subpacket : Subpacket} :
    (subpacket.type == Subpacket.creationTime && decide (4 ≤ subpacket.data.length)) = true ↔
      IsCreation subpacket := by
  rw [Bool.and_eq_true, beq_iff_eq, decide_eq_true_iff]
  rfl

/-- The time that is found is the one that is stated. -/
theorem statedCreation_eq_iff {subpackets : List Subpacket} {created : Nat} :
    statedCreation subpackets = created ↔ StatesCreation subpackets created := by
  unfold statedCreation
  constructor
  · rintro rfl
    split
    · next subpacket hfound =>
      obtain ⟨htest, earlier, later, rfl, hearlier⟩ := List.find?_eq_some_iff_append.mp hfound
      -- It is long enough, so no missing octets are counted as zero.
      rw [leadingWord_of_le (isCreation_iff.mp htest).2]
      refine .first (fun other hother => ?_) (isCreation_iff.mp htest)
      rw [← isCreation_iff, Bool.not_eq_true, ← Bool.not_eq_true']
      exact hearlier other hother
    · next hnone =>
      refine .none fun other hother => ?_
      rw [← isCreation_iff]
      exact List.find?_eq_none.mp hnone other hother
  · intro hstates
    cases hstates with
    | @first earlier later subpacket hearlier hcreation =>
      have hfound : (earlier ++ subpacket :: later).find?
          (fun s => s.type == Subpacket.creationTime && 4 ≤ s.data.length) = some subpacket := by
        refine List.find?_eq_some_iff_append.mpr
          ⟨isCreation_iff.mpr hcreation, earlier, later, rfl, fun other hother => ?_⟩
        rw [Bool.not_eq_true', ← Bool.not_eq_true, isCreation_iff]
        exact hearlier other hother
      rw [hfound]
      exact leadingWord_of_le hcreation.2
    | none hnone =>
      have hmissing : subpackets.find?
          (fun s => s.type == Subpacket.creationTime && 4 ≤ s.data.length) = Option.none := by
        refine List.find?_eq_none.mpr fun other hother => ?_
        rw [isCreation_iff]
        exact hnone other hother
      rw [hmissing]

/-! ## Headers -/

/-- An area is read behind its length. -/
theorem accepts_readArea (version : Nat) (lengthField areaField : String) :
    Accepts (readArea version lengthField areaField) (WrittenArea (areaWidth version)) := by
  have hwidth : readArea version lengthField areaField = (do
      let length ← Reading.number (areaWidth version) lengthField
      Reading.bytes (length : Int) areaField) := by
    unfold readArea areaWidth
    split <;> rfl
  rw [hwidth]
  refine ((Accepts.number (areaWidth version) lengthField).bind fun length =>
    Accepts.bytes length areaField).congr fun octets area => ?_
  constructor
  · rintro ⟨lengthOctets, _, _, rfl, ⟨hwidth, rfl⟩, hlength, rfl⟩
    unfold WrittenArea
    rw [hlength, ← hwidth, Octets.ofNat_toNat]
    exact ⟨Octets.toNat_lt lengthOctets, rfl⟩
  · rintro ⟨hlt, rfl⟩
    exact ⟨_, area.length, area, rfl,
      ⟨Octets.length_ofNat _ _, (Octets.toNat_ofNat_of_lt hlt).symm⟩, rfl, rfl⟩

/-- A header is read by the grammar. -/
theorem accepts_readHeader : Accepts readHeader WrittenHeader := by
  unfold readHeader
  -- The reader, step by step, with the relation that each step accepts.
  refine (Accepts.octet _ fun version => Accepts.ite
    (fun _ => Accepts.octet _ fun _ => Accepts.octet _ fun type =>
      (Accepts.number 4 _).map fun created => Header.timed version type created)
    fun _ => Accepts.ite
      (fun _ => Accepts.octet _ fun type => Accepts.octet _ fun _ => Accepts.octet _ fun _ =>
        (accepts_readArea version _ _).bind fun hashed =>
          (accepts_readArea version _ _).map fun unhashed =>
            Header.withAreas version type hashed unhashed)
      fun _ => Accepts.fail _).congr fun octets header => ?_
  constructor
  · -- The branches that the version chooses are the constructors of the grammar.
    rintro ⟨version, back, rfl, hback⟩
    split at hback
    · next hversion =>
      obtain ⟨skipped, _, rfl, type, time, rfl, _, ⟨htime, rfl⟩, rfl⟩ := hback
      exact .timed hversion htime
    · split at hback
      · next hversion =>
        obtain ⟨type, _, rfl, keyAlgorithm, _, rfl, hashAlgorithm, _, rfl, hashedOctets, hashed,
          unhashedOctets, rfl, hhashed, unhashed, hunhashed, rfl⟩ := hback
        exact .withAreas hversion hhashed hunhashed
      · exact hback.elim
  · intro hwritten
    cases hwritten with
    | @timed version skipped type time hversion htime =>
      refine ⟨version, _, rfl, ?_⟩
      rw [if_pos hversion]
      exact ⟨skipped, _, rfl, type, time, rfl, _, ⟨htime, rfl⟩, rfl⟩
    | @withAreas version type keyAlgorithm hashAlgorithm hashedOctets hashed unhashedOctets unhashed
        hversion hhashed hunhashed =>
      have hlate : ¬ (version.toNat = 2 ∨ version.toNat = 3) := by omega
      refine ⟨version, _, rfl, ?_⟩
      rw [if_neg hlate, if_pos hversion]
      exact ⟨type, _, rfl, keyAlgorithm, _, rfl, hashAlgorithm, _, rfl, hashedOctets, hashed,
        unhashedOctets, rfl, hhashed, unhashed, hunhashed, rfl⟩

/-! ## Packets -/

/-- A packet whose header has a time is viewed as that header. -/
theorem ofPacket_of_timed {tag : Binary64} {body : Octets} {version type created : Nat}
    (h : readHeader.onBody tag body = .ok (.timed version type created)) :
    Signature.ofPacket ⟨tag, body⟩ = .ok ⟨tag, version, type, created, []⟩ := by
  unfold Signature.ofPacket
  dsimp only
  rw [h]
  rfl

/-- A packet whose header has areas is viewed as that header with the subpackets of both. -/
theorem ofPacket_of_withAreas {tag : Binary64} {body hashed unhashed : Octets}
    {version type : Nat}
    (h : readHeader.onBody tag body = .ok (.withAreas version type hashed unhashed)) :
    Signature.ofPacket ⟨tag, body⟩ =
      (Subpacket.ofArea tag hashed).bind fun hashedOnes =>
        (Subpacket.ofArea tag unhashed).bind fun unhashedOnes =>
          .ok ⟨tag, version, type, statedCreation (hashedOnes ++ unhashedOnes),
            hashedOnes ++ unhashedOnes⟩ := by
  unfold Signature.ofPacket
  dsimp only
  rw [h]
  rfl

/-- A packet that begins with a written signature is viewed as it. -/
theorem ofPacket_of_written {tag : Binary64} {written : Octets} {signature : Signature}
    (h : Written tag written signature) (tail : Octets) :
    Signature.ofPacket ⟨tag, written ++ tail⟩ = .ok signature := by
  cases h with
  | timed hheader => exact ofPacket_of_timed (accepts_readHeader.onBody_append hheader tag tail)
  | withAreas hheader hhashed hunhashed hcreated =>
    rw [ofPacket_of_withAreas (accepts_readHeader.onBody_append hheader tag tail),
      Subpacket.ofArea_of_area hhashed tag, Subpacket.ofArea_of_area hunhashed tag,
      ← statedCreation_eq_iff.mpr hcreated]
    rfl

/-- A packet is viewed as the signature that is written at the beginning of its body, or it is at
fault. -/
theorem outcome_of_ofPacket (tag : Binary64) (body : Octets) :
    (∃ signature, Signature.ofPacket ⟨tag, body⟩ = .ok signature ∧
        ∃ written tail, body = written ++ tail ∧ Written tag written signature) ∨
      ∃ fault, Signature.ofPacket ⟨tag, body⟩ = .error fault ∧ fault.tag = tag := by
  rcases accepts_readHeader.outcome_of_onBody tag body with
    ⟨header, hread, written, tail, hbody, hheader⟩ | ⟨fault, hread, htag⟩
  · cases header with
    | timed version type created =>
      exact .inl ⟨_, ofPacket_of_timed hread, written, tail, hbody, .timed hheader⟩
    | withAreas version type hashed unhashed =>
      rw [ofPacket_of_withAreas hread]
      -- The areas are read one after the other, and the first that is refused refuses the packet.
      rcases Subpacket.outcome_of_ofArea tag hashed with
        ⟨hashedOnes, hhashed, harea⟩ | ⟨fault, hhashed, htag⟩
      · rcases Subpacket.outcome_of_ofArea tag unhashed with
          ⟨unhashedOnes, hunhashed, harea'⟩ | ⟨fault, hunhashed, htag⟩
        · rw [hhashed, hunhashed]
          exact .inl ⟨_, rfl, written, tail, hbody,
            .withAreas hheader harea harea' (statedCreation_eq_iff.mp rfl)⟩
        · rw [hhashed, hunhashed]
          exact .inr ⟨fault, rfl, htag⟩
      · rw [hhashed]
        exact .inr ⟨fault, rfl, htag⟩
  · refine .inr ⟨fault, ?_, htag⟩
    unfold Signature.ofPacket
    dsimp only
    rw [hread]
    rfl

/-- A body is viewed as `signature` exactly if it begins with the octets that write it, whatever
stands behind them, and all other bodies are refused with a field fault for their packet. -/
theorem ofPacket_eq_ok_iff_written (tag : Binary64) (body : Octets) :
    (∀ signature, Signature.ofPacket ⟨tag, body⟩ = .ok signature ↔
        ∃ written tail, body = written ++ tail ∧ Written tag written signature) ∧
      ((¬ ∃ signature written tail, body = written ++ tail ∧ Written tag written signature) ↔
        ∃ fault, Signature.ofPacket ⟨tag, body⟩ = .error fault ∧ fault.tag = tag ∧
          fault.toFault.name = "PacketFieldError") := by
  refine Reading.outcome_iff ?_ (outcome_of_ofPacket tag body)
  rintro signature ⟨written, tail, rfl, hwritten⟩
  exact ofPacket_of_written hwritten tail

end Signature

end PgpInspect
