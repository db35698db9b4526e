import Mathlib.Data.List.Basic
import PgpInspect.KeyData
import PgpInspect.Proofs.Armor.Length
import PgpInspect.Proofs.Framing.Acceptance

/-!
# Streams that are taken for armor

Octets are read as armor if the armor marker occurs in their head, and the packets of a stream play
no part in that. A stream with the marker, say in a user ID, is therefore not read as it stands, but
as what its armor holds, which is never the same octets (`KeyData.toOctets_octets_eq_iff`). Its
records survive only if the armor in it happens to hold packets with the same records
(`KeyData.octets_read_as_stream_iff`).

The test is made on characters. Windows-1252 gives every octet one character and no two octets the
same, so the marker occurs among the characters exactly if it occurs among the octets.
-/

namespace PgpInspect

/-! ## The marker among octets -/

namespace Text

namespace Windows1252

/-- The octet that a character of the encoding stands for. -/
def encodeChar (c : Char) : UInt8 :=
  match upperControls.idxOf? c.toNat with
  | some position => UInt8.ofNat (0x80 + position)
  | none => UInt8.ofNat c.toNat

/-- Every octet is told by its character, which is below U+10000. -/
theorem decodeOctet_table : ∀ n < 256, encodeChar (decodeOctet (UInt8.ofNat n)) = UInt8.ofNat n ∧
    (decodeOctet (UInt8.ofNat n)).toNat < 0x10000 := by
  decide +kernel

/-- The character of an octet is below U+10000. -/
theorem toNat_decodeOctet_lt (octet : UInt8) : (decodeOctet octet).toNat < 0x10000 := by
  have hentry := decodeOctet_table octet.toNat octet.toNat_lt
  rw [UInt8.ofNat_toNat] at hentry
  exact hentry.2

/-- No two octets have the same character. -/
theorem decodeOctet_injective : Function.Injective decodeOctet := by
  have hinverse : Function.LeftInverse encodeChar decodeOctet := by
    intro octet
    have hentry := decodeOctet_table octet.toNat octet.toNat_lt
    rw [UInt8.ofNat_toNat] at hentry
    exact hentry.1
  exact hinverse.injective

/-- Octets occur among others exactly if their characters do. -/
theorem decode_infix_iff (part octets : Octets) :
    decode part <:+: decode octets ↔ part <:+: octets := by
  constructor
  · intro h
    obtain ⟨part', hinfix, heq⟩ := List.infix_map_iff.mp h
    have hpart : part = part' := List.map_injective_iff.mpr decodeOctet_injective heq
    rw [hpart]
    exact hinfix
  · exact fun h => h.map decodeOctet

/-- A text decoded from octets has one unit for each of them. -/
theorem unitCount_decode (octets : Octets) : unitCount (decode octets) = octets.length := by
  induction octets with
  | nil => rfl
  | cons octet rest ih =>
    have hunits : units (decodeOctet octet) = [(decodeOctet octet).toNat] :=
      if_pos (toNat_decodeOctet_lt octet)
    unfold unitCount decode at ih ⊢
    rw [List.map_cons, List.flatMap_cons, hunits, List.length_append, ih, List.length_singleton,
      List.length_cons]
    omega

end Windows1252

end Text

namespace KeyData

open Text.Windows1252 (decode)

/-- The octets that write the armor marker. -/
def markerOctets : Octets := [0x2D, 0x2D, 0x2D, 0x2D, 0x2D, 0x42, 0x45, 0x47, 0x49, 0x4E]

/-- Whether the armor marker occurs in the head of octets. -/
def IsMarked (data : Octets) : Prop := markerOctets <:+: data.take headLength

/-- Octets look armored exactly if they are marked. -/
theorem isArmored_head_iff (data : Octets) :
    Armor.isArmored (decode (data.take headLength)) = true ↔ IsMarked data := by
  have hmarker : Armor.marker = decode markerOctets := by decide
  unfold Armor.isArmored IsMarked
  rw [Text.occursIn_iff, hmarker, Text.Windows1252.decode_infix_iff]

/-! ## Marked streams -/

variable {data : Octets}

/-- Octets without the marker are handed on. -/
theorem toOctets_of_not_isMarked (h : ¬ IsMarked data) :
    (KeyData.octets data).toOctets = .ok data := by
  unfold toOctets
  exact if_neg (mt (isArmored_head_iff data).mp h)

/-- Octets with the marker are read as armor. -/
theorem toOctets_of_isMarked (h : IsMarked data) :
    (KeyData.octets data).toOctets = Armor.dearmor (decode data) := by
  unfold toOctets
  exact if_pos ((isArmored_head_iff data).mpr h)

/-- Marked octets are not empty. -/
theorem length_pos_of_isMarked (h : IsMarked data) : 0 < data.length := by
  have hmarker : markerOctets.length ≤ (data.take headLength).length := h.length_le
  have hhead : (data.take headLength).length ≤ data.length := (List.take_sublist _ _).length_le
  have hlength : markerOctets.length = 10 := rfl
  omega

/-- What the armor in marked octets holds is shorter than they are. -/
theorem length_lt_of_dearmor {payload : Octets} (h : IsMarked data)
    (hpayload : Armor.dearmor (decode data) = .ok payload) : payload.length < data.length := by
  have hpos := length_pos_of_isMarked h
  have hlength := Armor.length_dearmor hpayload
  rw [Text.Windows1252.unitCount_decode] at hlength
  omega

/-- Octets are handed on exactly if they are not marked. -/
theorem toOctets_octets_eq_iff (data : Octets) :
    (KeyData.octets data).toOctets = .ok data ↔ ¬ IsMarked data := by
  constructor
  · intro h hmarked
    rw [toOctets_of_isMarked hmarked] at h
    have hlt := length_lt_of_dearmor hmarked h
    omega
  · exact toOctets_of_not_isMarked

/-- A user ID of less than 192 octets is a stream of its own. -/
theorem readPackets_userId {text : Octets} (h : text.length < 192) :
    readPackets (0xCD :: UInt8.ofNat text.length :: text) = .ok [⟨13, text⟩] := by
  have htag : 13 < 64 := by decide
  have hbody : Framing.NewBody (UInt8.ofNat text.length :: text) text := .last (.oneOctet h)
  have hframed : Framing.Framed (0xCD :: UInt8.ofNat text.length :: text) ⟨13, text⟩ :=
    Framing.Framed.new htag hbody
  have hstream := Framing.Stream.cons hframed .nil
  rw [List.append_nil] at hstream
  exact Framing.packetsFrom_complete _ hstream

/-- A stream is handed on exactly if it is not marked. Its records are those of its packets exactly
if it is not marked or if the armor in it, which is shorter, holds a stream with the same
records. -/
theorem octets_read_as_stream_iff {packets : List RawPacket} (h : readPackets data = .ok packets) :
    ((KeyData.octets data).toOctets = .ok data ↔ ¬ IsMarked data) ∧
      ((KeyData.octets data).toRecords = readRecords data ↔
        ¬ IsMarked data ∨ ∃ payload, Armor.dearmor (decode data) = .ok payload ∧
          payload.length < data.length ∧ readRecords payload = readRecords data) := by
  refine ⟨toOctets_octets_eq_iff data, ?_⟩
  have hrecords : readRecords data = .ok (packets.map PacketRecord.ofPacket) := by
    unfold readRecords
    rw [h]
    rfl
  by_cases hmarked : IsMarked data
  · unfold toRecords
    rw [toOctets_of_isMarked hmarked]
    cases hpayload : Armor.dearmor (decode data) with
    | error fault =>
      -- A stream that is read has records, and armor that is refused has none.
      rw [hrecords]
      simp [hmarked, bind, Except.bind]
    | ok payload =>
      have hlt := length_lt_of_dearmor hmarked hpayload
      simp [hmarked, hlt, bind, Except.bind]
  · unfold toRecords
    rw [toOctets_of_not_isMarked hmarked]
    simp [hmarked, bind, Except.bind]

/-- The stream of the user ID `Bob` is read as it stands. -/
theorem unmarked_userId_read :
    readPackets [0xCD, 3, 0x42, 0x6F, 0x62] = .ok [⟨13, [0x42, 0x6F, 0x62]⟩] ∧
      (KeyData.octets [0xCD, 3, 0x42, 0x6F, 0x62]).toRecords =
        readRecords [0xCD, 3, 0x42, 0x6F, 0x62] := by
  have hread : readPackets [0xCD, 3, 0x42, 0x6F, 0x62] = .ok [⟨13, [0x42, 0x6F, 0x62]⟩] :=
    readPackets_userId (by decide)
  have hunmarked : ¬ IsMarked [0xCD, 3, 0x42, 0x6F, 0x62] := by
    unfold IsMarked
    decide
  exact ⟨hread, (octets_read_as_stream_iff hread).2.mpr (.inl hunmarked)⟩

/-- The stream of the user ID `-----BEGIN` is refused as armor without a block. -/
theorem marked_userId_refused :
    readPackets (0xCD :: 10 :: markerOctets) = .ok [⟨13, markerOctets⟩] ∧
      (KeyData.octets (0xCD :: 10 :: markerOctets)).toRecords = .error .noArmorBlock ∧
        (KeyData.octets (0xCD :: 10 :: markerOctets)).toRecords ≠
          readRecords (0xCD :: 10 :: markerOctets) := by
  have hread : readPackets (0xCD :: 10 :: markerOctets) = .ok [⟨13, markerOctets⟩] :=
    readPackets_userId (by decide)
  have hrefused :
      (KeyData.octets (0xCD :: 10 :: markerOctets)).toRecords = .error .noArmorBlock := rfl
  refine ⟨hread, hrefused, ?_⟩
  rw [hrefused]
  unfold readRecords
  rw [hread]
  exact nofun

end KeyData

end PgpInspect
