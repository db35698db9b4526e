import PgpInspect.Proofs.Armor.RoundTrip
import PgpInspect.Proofs.KeyData
import PgpInspect.Text.Utf8

/-!
# ASCII text and its octets

Armored text may be handed over as a text or as its octets. In a text the armor marker is looked for
everywhere, in octets in their head only. So the two are read alike unless the marker occurs in the
text but not in the head of it (`KeyData.HasLateMarker`): then the text is dearmored and its octets
are handed on as they stand, which is never the same (`KeyData.toOctets_encode_eq_iff`).

An ASCII character is written by the octet with its number, and Windows-1252 reads that octet as the
character, so that everything about the octets can be said of the text.
-/

namespace PgpInspect

namespace Text

/-! ## One octet for each character -/

/-- A text of ASCII characters. -/
def IsAscii (text : List Char) : Prop := ∀ c ∈ text, c.toNat < 0x80

variable {text : List Char}

/-- The octets of an ASCII text have the numbers of its characters. -/
theorem encode_of_isAscii (h : IsAscii text) :
    Utf8.encode text = text.map fun c => UInt8.ofNat c.toNat := by
  calc Utf8.encode text
      = text.flatMap fun c => [UInt8.ofNat c.toNat] :=
        List.flatMap_congr fun c hc => if_pos (h c hc)
    _ = text.map fun c => UInt8.ofNat c.toNat := List.map_eq_flatMap.symm

/-- The octets of an ASCII text are those that its characters stand for. -/
theorem map_octetOfChar_of_isAscii (h : IsAscii text) :
    text.map KeyData.octetOfChar = Utf8.encode text := by
  rw [encode_of_isAscii h]
  apply List.map_congr_left
  intro c hc
  have hunits : units c = [c.toNat] := if_pos (Nat.lt_trans (h c hc) (by decide))
  rw [KeyData.octetOfChar, firstUnit, hunits]
  rfl

/-- The octets of an ASCII text are read as the text. -/
theorem decode_encode_of_isAscii (h : IsAscii text) :
    Windows1252.decode (Utf8.encode text) = text := by
  have hchar (c : Char) (hc : c ∈ text) :
      Windows1252.decodeOctet (UInt8.ofNat c.toNat) = c := by
    -- Below 128 Windows-1252 is ASCII.
    have hnumber : (UInt8.ofNat c.toNat).toNat = c.toNat :=
      UInt8.toNat_ofNat_of_lt' (Nat.lt_trans (h c hc) (by decide))
    rw [Windows1252.decodeOctet_of_lt (by rw [hnumber]; exact h c hc), hnumber, Char.ofNat_toNat]
  rw [encode_of_isAscii h, Windows1252.decode, List.map_map]
  calc text.map (Windows1252.decodeOctet ∘ fun c => UInt8.ofNat c.toNat)
      = text.map id := List.map_congr_left hchar
    _ = text := List.map_id text

/-- The head of the octets of an ASCII text is the octets of its head. -/
theorem take_encode_of_isAscii (h : IsAscii text) (count : Nat) :
    (Utf8.encode text).take count = Utf8.encode (text.take count) := by
  have hhead : IsAscii (text.take count) := fun c hc => h c (List.mem_of_mem_take hc)
  rw [encode_of_isAscii h, encode_of_isAscii hhead, List.map_take]

end Text

namespace KeyData

open Text (IsAscii)
open Text.Utf8 (encode)
open Text.Windows1252 (decode)

/-! ## Late markers -/

/-- The armor marker occurs in a text, but not in the head of it. -/
def HasLateMarker (text : List Char) : Prop :=
  Armor.marker <:+: text ∧ ¬ Armor.marker <:+: text.take headLength

variable {text : List Char}

/-- A text looks armored exactly if it has the marker. -/
theorem isArmored_iff (text : List Char) :
    Armor.isArmored text = true ↔ Armor.marker <:+: text :=
  Text.occursIn_iff Armor.marker text

/-- The octets of an ASCII text are marked exactly if the marker is in the head of the text. -/
theorem isMarked_encode_iff (h : IsAscii text) :
    IsMarked (encode text) ↔ Armor.marker <:+: text.take headLength := by
  have hhead : IsAscii (text.take headLength) := fun c hc => h c (List.mem_of_mem_take hc)
  rw [← isArmored_head_iff, Text.take_encode_of_isAscii h, Text.decode_encode_of_isAscii hhead,
    isArmored_iff]

/-- A text with the marker is dearmored. -/
theorem toOctets_text_of_marker (h : Armor.marker <:+: text) :
    (KeyData.text text).toOctets = Armor.dearmor text :=
  if_pos ((isArmored_iff text).mpr h)

/-- An ASCII text without the marker stands for its octets. -/
theorem toOctets_text_of_not_marker (hascii : IsAscii text) (h : ¬ Armor.marker <:+: text) :
    (KeyData.text text).toOctets = .ok (encode text) := by
  have hplain : ¬ Armor.isArmored text = true := mt (isArmored_iff text).mp h
  rw [toOctets, if_neg hplain, Text.map_octetOfChar_of_isAscii hascii]

/-- An ASCII text with the marker does not dearmor to its own octets, which are more. -/
theorem dearmor_ne_encode (hascii : IsAscii text) (h : Armor.marker <:+: text) :
    Armor.dearmor text ≠ .ok (encode text) := by
  intro hsame
  -- What is dearmored has fewer octets than the armored text, which has as many as its own octets.
  have hlength := Armor.length_dearmor hsame
  have hunits : Text.unitCount text = (encode text).length := by
    rw [← Text.Windows1252.unitCount_decode, Text.decode_encode_of_isAscii hascii]
  have hcount : (encode text).length = text.length := by
    rw [Text.encode_of_isAscii hascii, List.length_map]
  have hmarker : Armor.marker.length ≤ text.length := h.length_le
  have hpositive : Armor.marker.length = 10 := rfl
  omega

/-- The octets of an ASCII text with a late marker are handed on, and the text is dearmored. -/
theorem toOctets_of_hasLateMarker (hascii : IsAscii text) (h : HasLateMarker text) :
    (KeyData.octets (encode text)).toOctets = .ok (encode text) ∧
      (KeyData.text text).toOctets = Armor.dearmor text :=
  ⟨toOctets_of_not_isMarked (mt (isMarked_encode_iff hascii).mp h.2), toOctets_text_of_marker h.1⟩

/-- What the text is dearmored to is never what its octets are handed on as. -/
theorem toOctets_encode_ne_of_hasLateMarker (hascii : IsAscii text) (h : HasLateMarker text) :
    (KeyData.octets (encode text)).toOctets ≠ (KeyData.text text).toOctets := by
  obtain ⟨hoctets, htext⟩ := toOctets_of_hasLateMarker hascii h
  rw [hoctets, htext]
  exact (dearmor_ne_encode hascii h.1).symm

/-- An ASCII text and its octets are read alike, with the same result or the same fault, exactly if
the text has no late marker. If it has one, the text is dearmored and its octets are handed on. -/
theorem toOctets_encode_eq_iff (h : IsAscii text) :
    ((KeyData.octets (encode text)).toOctets = (KeyData.text text).toOctets ↔
        ¬ HasLateMarker text) ∧
      (HasLateMarker text → (KeyData.octets (encode text)).toOctets = .ok (encode text) ∧
        (KeyData.text text).toOctets = Armor.dearmor text) := by
  refine ⟨⟨?_, ?_⟩, toOctets_of_hasLateMarker h⟩
  · intro hsame hmarker
    exact toOctets_encode_ne_of_hasLateMarker h hmarker hsame
  · intro hnone
    by_cases hhead : Armor.marker <:+: text.take headLength
    · -- The marker is found in both, and the octets are dearmored as the text.
      have hwhole : Armor.marker <:+: text := hhead.trans (List.take_prefix _ _).isInfix
      rw [toOctets_of_isMarked ((isMarked_encode_iff h).mpr hhead),
        Text.decode_encode_of_isAscii h, toOctets_text_of_marker hwhole]
    · -- It is found in neither, as it is not late either, and the text stands for its octets.
      have hwhole : ¬ Armor.marker <:+: text := fun hoccurs => hnone ⟨hoccurs, hhead⟩
      rw [toOctets_of_not_isMarked (mt (isMarked_encode_iff h).mp hhead),
        toOctets_text_of_not_marker h hwhole]

/-- A message of one octet. -/
def shortBlock : Armor.ArmoredBlock where
  type := .message
  beginEnd := .lf
  headers := []
  emptyEnd := .lf
  body := [⟨"QQ==".toList, .lf⟩]
  checksum := none
  payload := [0x41]
  -- Other blocks have the same lines.
  isHeader := Armor.checkedBlock.isHeader
  text_ne_nil := Armor.brokenDashesBlock.text_ne_nil
  flatMap_text := Armor.brokenDashesBlock.flatMap_text
  isChecksum := Armor.brokenDashesBlock.isChecksum

/-- The message is read behind any text without a BEGIN mark. -/
theorem dearmor_shortBlock (before : List Char) (h : ¬ Armor.beginMark <:+: before) :
    Armor.dearmor (before ++ Armor.writtenBlocks [(shortBlock, [])]) = .ok [0x41] := by
  have hbehind : ¬ Armor.beginMark <:+: [] := by decide
  have hapart : shortBlock.HeadersApart :=
    Armor.ArmoredBlock.headersApart_of_not_mem fun _ hline => absurd hline List.not_mem_nil
  have hfound : Armor.findBlocks (before ++ Armor.writtenBlocks [(shortBlock, [])]) =
      [shortBlock.written] :=
    Armor.findBlocks_written h (by simp [hbehind])
  have hdecoded : Armor.decodeBlocks 0 [shortBlock.written] = .ok [0x41] := by
    rw [Armor.decodeBlocks, Armor.decodeBlock_written hapart]
    rfl
  rw [Armor.dearmor, hfound]
  exact hdecoded

/-- The message is ASCII text. -/
theorem isAscii_shortBlock : IsAscii (Armor.writtenBlocks [(shortBlock, [])]) := by
  have hall : (Armor.writtenBlocks [(shortBlock, [])]).all (fun c => decide (c.toNat < 0x80)) =
      true := by decide
  exact fun c hc => of_decide_eq_true (List.all_eq_true.mp hall c hc)

/-- The message alone is read alike as a text and as octets. -/
theorem toOctets_shortBlock :
    IsAscii (Armor.writtenBlocks [(shortBlock, [])]) ∧
      ¬ HasLateMarker (Armor.writtenBlocks [(shortBlock, [])]) ∧
      (KeyData.text (Armor.writtenBlocks [(shortBlock, [])])).toOctets = .ok [0x41] ∧
      (KeyData.octets (encode (Armor.writtenBlocks [(shortBlock, [])]))).toOctets = .ok [0x41] := by
  have hmarker : Armor.marker <:+: (Armor.writtenBlocks [(shortBlock, [])]).take headLength := by
    decide
  have hnone : ¬ HasLateMarker (Armor.writtenBlocks [(shortBlock, [])]) := fun h => h.2 hmarker
  have htext : (KeyData.text (Armor.writtenBlocks [(shortBlock, [])])).toOctets = .ok [0x41] := by
    rw [toOctets_text_of_marker (hmarker.trans (List.take_prefix _ _).isInfix)]
    exact dearmor_shortBlock [] (by decide)
  refine ⟨isAscii_shortBlock, hnone, htext, ?_⟩
  rw [(toOctets_encode_eq_iff isAscii_shortBlock).1.mpr hnone, htext]

/-- The message behind so many blanks that the head ends in its marker. -/
def lateText : List Char := List.replicate 4087 ' ' ++ Armor.writtenBlocks [(shortBlock, [])]

/-- As a text the late message is read as its payload, and its octets are handed on. -/
theorem toOctets_lateText :
    IsAscii lateText ∧ (KeyData.text lateText).toOctets = .ok [0x41] ∧
      (KeyData.octets (encode lateText)).toOctets = .ok (encode lateText) ∧
      (KeyData.octets (encode lateText)).toOctets ≠ (KeyData.text lateText).toOctets := by
  have hblank {c : Char} (hc : c ∈ List.replicate 4087 ' ') : c = ' ' := List.eq_of_mem_replicate hc
  have hascii : IsAscii lateText := by
    intro c hc
    rcases List.mem_append.mp hc with hc | hc
    · rw [hblank hc]
      decide
    · exact isAscii_shortBlock c hc
  have hmarker : Armor.marker <:+: lateText := by
    have hblock : Armor.marker <:+: Armor.writtenBlocks [(shortBlock, [])] := by decide
    exact hblock.trans (List.suffix_append _ _).isInfix
  have hhead : lateText.take headLength = List.replicate 4087 ' ' ++ "-----BEGI".toList := by
    have hlength : headLength = (List.replicate 4087 ' ').length + 9 := by
      rw [List.length_replicate]
      rfl
    rw [lateText, hlength, List.take_length_add_append]
    rfl
  have hlate : HasLateMarker lateText := by
    refine ⟨hmarker, fun hoccurs => ?_⟩
    -- The last letter of the marker is behind the head.
    have hletter : 'N' ∈ lateText.take headLength := hoccurs.subset (by decide)
    rw [hhead, List.mem_append] at hletter
    rcases hletter with hletter | hletter
    · exact absurd (hblank hletter) (by decide)
    · exact absurd hletter (by decide)
  have hbefore : ¬ Armor.beginMark <:+: List.replicate 4087 ' ' := fun hoccurs =>
    absurd (hblank (hoccurs.subset (a := '-') (by decide))) (by decide)
  have htext : (KeyData.text lateText).toOctets = .ok [0x41] := by
    rw [toOctets_text_of_marker hmarker]
    exact dearmor_shortBlock _ hbefore
  exact ⟨hascii, htext, (toOctets_of_hasLateMarker hascii hlate).1,
    toOctets_encode_ne_of_hasLateMarker hascii hlate⟩

end KeyData

end PgpInspect
