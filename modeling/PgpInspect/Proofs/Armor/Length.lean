import Mathlib.Data.List.Flatten
import PgpInspect.Armor.Payload
import PgpInspect.Proofs.Text.Base64.Encoding

/-!
# A payload is shorter than its armor

Reading armor only ever leaves characters out: the blocks of a text are parts of it, the payload
text of a block is what is left of its lines, and four units of base64 write three octets at most.
So `4 * payload.length ≤ 3 * Text.unitCount text` (`Armor.length_dearmor`), with 16-bit units
counted because those are what base64 is read from.

The parts are compared as sublists, since a line loses characters at both ends and in between.
-/

namespace PgpInspect

/-! ## Texts -/

namespace Text

/-- A text with characters left out has no more units. -/
theorem unitCount_le_of_sublist {text text' : List Char} (h : text.Sublist text') :
    unitCount text ≤ unitCount text' :=
  (h.flatMap units).length_le

/-- The units of a text are counted part by part. -/
theorem unitCount_append (text text' : List Char) :
    unitCount (text ++ text') = unitCount text + unitCount text' := by
  unfold unitCount
  rw [List.flatMap_append, List.length_append]

/-- The last parts of a text are a part of it. -/
theorem join_sublist_of_suffix (separator : Char) {parts parts' : List (List Char)}
    (h : parts <:+ parts') : (join separator parts).Sublist (join separator parts') := by
  induction parts' with
  | nil =>
    obtain rfl := List.suffix_nil.mp h
    exact List.Sublist.refl _
  | cons part rest ih =>
    rcases List.suffix_cons_iff.mp h with rfl | h
    · exact List.Sublist.refl _
    · cases rest with
      | nil =>
        obtain rfl := List.suffix_nil.mp h
        exact List.nil_sublist _
      | cons next more =>
        have hrest := (ih h).trans (List.sublist_cons_self separator _)
        exact hrest.trans (List.sublist_append_right part _)

/-- Parts with characters left out make a text with characters left out. -/
theorem join_map_sublist (separator : Char) {f : List Char → List Char}
    (hf : ∀ part, (f part).Sublist part) (parts : List (List Char)) :
    (join separator (parts.map f)).Sublist (join separator parts) := by
  induction parts with
  | nil => exact List.Sublist.refl _
  | cons part rest ih =>
    cases rest with
    | nil => exact hf part
    | cons next more => exact (hf part).append (ih.cons_cons separator)

end Text

/-! ## Base64 -/

namespace Text.Base64

/-- Four units write three octets at most. -/
theorem length_decodeUnits (units : List Nat) :
    4 * (decodeUnits units).length ≤ 3 * units.length := by
  have hoctets := length_octetsOf_eq (values units)
  have hvalues : (values units).length ≤ units.length := by
    unfold values
    calc (((units.map lowChar).takeWhile (· != '=')).filterMap value?).length
      _ ≤ ((units.map lowChar).takeWhile (· != '=')).length := List.length_filterMap_le _ _
      _ ≤ (units.map lowChar).length := (List.takeWhile_sublist _).length_le
      _ = units.length := List.length_map _
  unfold decodeUnits
  omega

end Text.Base64

namespace Armor

/-! ## The payload of a block -/

/-- A clean line is a line with characters left out. -/
theorem cleanLine_sublist (line : List Char) : (cleanLine line).Sublist line := by
  unfold cleanLine
  have htrimmed := (List.dropWhile_sublist (fun c => c == ' ' || c == '\t')
    (l := (line.filter (· != '\r')).reverse)).reverse
  rw [List.reverse_reverse] at htrimmed
  exact htrimmed.trans List.filter_sublist

/-- The lines of the payload are the last lines of the block. -/
theorem suffix_of_skipToPayload {stage : Stage} {lines rest : List (List Char)}
    (h : skipToPayload stage lines = .ok rest) : rest <:+ lines := by
  fun_induction skipToPayload stage lines with
  | case1 | case2 | case3 | case8 | case11 => cases h
  | case9 =>
    cases h
    exact List.suffix_cons _ _
  | case4 | case5 | case6 | case7 | case10 | case12 | case13 | case14 | case15 =>
    -- The reader goes on in some stage behind this line.
    rename_i ih
    exact (ih h).trans (List.suffix_cons _ _)

/-- What stands in front of a dashed line is in the text. -/
theorem prefix_of_beforeDashedLine? {atStart : Bool} {text before : List Char}
    (h : beforeDashedLine? atStart text = some before) : before <+: text := by
  induction text generalizing atStart before with
  | nil => cases h
  | cons c rest ih =>
    rw [beforeDashedLine?] at h
    split at h
    · cases h
      exact List.nil_prefix
    · obtain ⟨before, hbefore, rfl⟩ := Option.map_eq_some_iff.mp h
      exact (List.prefix_cons_inj c).mpr (ih hbefore)

/-- A text without its checksum is the beginning of the text. -/
theorem withoutChecksum_prefix_self (text : List Char) : withoutChecksum text <+: text := by
  unfold withoutChecksum
  split
  · exact List.nil_prefix
  · exact List.prefix_refl text
  · split
    · exact List.prefix_refl text
    · next sign body hbody =>
      -- What is kept is, from its end on, a suffix of the text from its end on.
      have hsuffix : body <:+ text.reverse :=
        (List.suffix_cons sign body).trans (hbody ▸ List.dropWhile_suffix _)
      rw [← List.reverse_reverse text]
      exact List.reverse_prefix.mpr hsuffix

/-- Four units of a payload text write three octets at most. -/
theorem length_decodePayload (text : List Char) :
    4 * (decodePayload text).length ≤ 3 * Text.unitCount text := by
  unfold decodePayload Text.unitCount
  dsimp only
  split
  · exact Text.Base64.length_decodeUnits _
  · generalize text.flatMap Text.units = units
    generalize units.length - _ = whole
    have htake := Text.Base64.length_decodeUnits (units.take whole)
    have hdrop := Text.Base64.length_decodeUnits (units.drop whole)
    have hunits : (units.take whole).length + (units.drop whole).length = units.length := by
      rw [← List.length_append, List.take_append_drop]
    rw [List.length_append]
    omega

/-- Four units of a block write three octets at most. -/
theorem length_decodeBlock {block : List Char} {payload : Octets}
    (h : decodeBlock block = .ok payload) : 4 * payload.length ≤ 3 * Text.unitCount block := by
  unfold decodeBlock at h
  cases hlines : skipToPayload .opening (Text.split '\n' block) with
  | error reason =>
    rw [hlines] at h
    cases h
  | ok lines =>
    rw [hlines] at h
    dsimp only [bind, Except.bind, pure, Except.pure] at h
    split at h
    · cases h
    · next text htext =>
      cases h
      -- Back from the payload text over its lines to the block.
      have hwritten : (withoutChecksum text.dropLast).Sublist block := by
        refine (withoutChecksum_prefix_self _).sublist.trans ?_
        refine (List.dropLast_sublist text).trans ?_
        refine (prefix_of_beforeDashedLine? htext).sublist.trans ?_
        refine (Text.join_map_sublist '\n' cleanLine_sublist lines).trans ?_
        rw [← Text.join_split '\n' block]
        exact Text.join_sublist_of_suffix '\n' (suffix_of_skipToPayload hlines)
      have hunits := Text.unitCount_le_of_sublist hwritten
      have hoctets := length_decodePayload (withoutChecksum text.dropLast)
      omega

/-! ## All blocks -/

/-- The blocks are parts of the text in order, without the characters skipped. -/
theorem blocksFrom_sublist (skip : Nat) (text : List Char) :
    (blocksFrom skip text).flatten.Sublist (text.drop skip) := by
  induction text generalizing skip with
  | nil => cases skip <;> exact List.Sublist.refl _
  | cons c rest ih =>
    cases skip with
    | succ skip => exact ih skip
    | zero =>
      rw [blocksFrom]
      split
      · next length hlength =>
        rw [List.flatten_cons, List.drop_zero]
        -- A block takes its first character and then as many as are skipped.
        cases length with
        | zero => exact (ih 0).trans (List.sublist_cons_self c rest)
        | succ length =>
          have hrest : (rest.take length ++ (blocksFrom length rest).flatten).Sublist rest := by
            have hsublist := (List.Sublist.refl (rest.take length)).append (ih length)
            rwa [List.take_append_drop] at hsublist
          exact hrest.cons_cons c
      · exact (ih 0).trans (List.sublist_cons_self c rest)

/-- Four units of blocks write three octets at most. -/
theorem length_decodeBlocks {index : Nat} {blocks : List (List Char)} {payload : Octets}
    (h : decodeBlocks index blocks = .ok payload) :
    4 * payload.length ≤ 3 * Text.unitCount blocks.flatten := by
  induction blocks generalizing index payload with
  | nil =>
    cases h
    simp
  | cons block rest ih =>
    rw [decodeBlocks] at h
    split at h
    · cases h
    · next octets hoctets =>
      cases hrest : decodeBlocks (index + 1) rest with
      | error fault =>
        rw [hrest] at h
        cases h
      | ok more =>
        rw [hrest] at h
        cases h
        have hblock := length_decodeBlock hoctets
        have hmore := ih hrest
        rw [List.flatten_cons, Text.unitCount_append, List.length_append]
        omega

/-- Four units of an armored text write three octets at most. -/
theorem length_dearmor {text : List Char} {payload : Octets} (h : dearmor text = .ok payload) :
    4 * payload.length ≤ 3 * Text.unitCount text := by
  unfold dearmor at h
  split at h
  · cases h
  · have hpayload := length_decodeBlocks h
    have hblocks := Text.unitCount_le_of_sublist (blocksFrom_sublist 0 text)
    unfold findBlocks at hpayload
    rw [List.drop_zero] at hblocks
    omega

end Armor

end PgpInspect
