import PgpInspect.Proofs.Autocrypt.Layout
import PgpInspect.Schema.Pattern

/-!
# Autocrypt headers of an address and a key

A header that gives an address and a key in base64 is read as these two
(`AutocryptHeader.parse_addr_keydata`), whatever the blanks in the key. It is a header of two parts
(`AutocryptHeader.lays_addr_keydata`): email addresses and texts in base64 have no semicolon.
Nothing of an address is trimmed, as it has no blanks, and nothing of a key but blanks.
-/

namespace PgpInspect

namespace Text

variable {text : List Char}

/-! ## Characters of parts -/

/-- A character of joined parts is a separator or one of a part. -/
theorem eq_or_exists_of_mem_join {separator c : Char} {parts : List (List Char)}
    (h : c ∈ join separator parts) : c = separator ∨ ∃ part ∈ parts, c ∈ part := by
  induction parts with
  | nil => cases h
  | cons part rest ih =>
    cases rest with
    | nil => exact .inr ⟨part, List.mem_cons_self, h⟩
    | cons next more =>
      rw [join, List.mem_append, List.mem_cons] at h
      · rcases h with hpart | rfl | hmore
        · exact .inr ⟨part, List.mem_cons_self, hpart⟩
        · exact .inl rfl
        · refine (ih hmore).imp id ?_
          rintro ⟨other, hother, hc⟩
          exact ⟨other, List.mem_cons_of_mem _ hother, hc⟩
      · simp

/-- A character of a text is a separator or one of a part. -/
theorem eq_or_exists_of_mem_split (separator : Char) {c : Char} (h : c ∈ text) :
    c = separator ∨ ∃ part ∈ split separator text, c ∈ part := by
  rw [← join_split separator text] at h
  exact eq_or_exists_of_mem_join h

end Text

namespace Pattern

variable {text : List Char}

/-! ## Email addresses -/

/-- The characters of a domain are those of its labels and points. -/
theorem isLocalChar_or_eq_of_isDomain (h : isDomain text = true) {c : Char} (hc : c ∈ text) :
    isLocalChar c = true ∨ c = '.' := by
  rcases Text.eq_or_exists_of_mem_split '.' hc with rfl | ⟨word, hword, hcword⟩
  · exact .inr rfl
  · left
    unfold isDomain at h
    rw [← List.mem_reverse] at hword
    split at h
    · next last label labels hwords =>
      simp only [Bool.and_eq_true, List.all_eq_true] at h
      rw [hwords, List.mem_cons] at hword
      rcases hword with rfl | hlabel
      · have halpha := h.2 c hcword
        simp [isLocalChar, Char.isAlphanum, halpha]
      · have hislabel := h.1.1 word hlabel
        cases word with
        | nil => cases hcword
        | cons first rest =>
          simp only [isLabel, Bool.and_eq_true, List.all_eq_true] at hislabel
          rcases List.mem_cons.mp hcword with rfl | hrest
          · simp [isLocalChar, hislabel.1]
          · rcases Bool.or_eq_true _ _ ▸ hislabel.2 c hrest with halnum | hhyphen
            · simp [isLocalChar, halnum]
            · simp [isLocalChar, hhyphen]
    · cases h

/-- The characters of an email address are those of words, points and the `@`. -/
theorem isLocalChar_or_eq_of_isEmail (h : isEmail text = true) {c : Char} (hc : c ∈ text) :
    isLocalChar c = true ∨ c = '.' ∨ c = '@' := by
  unfold isEmail at h
  split at h
  · next localPart domain hparts =>
    rw [Bool.and_eq_true] at h
    rcases Text.eq_or_exists_of_mem_split '@' hc with rfl | ⟨part, hpart, hcpart⟩
    · exact .inr (.inr rfl)
    · rw [hparts, List.mem_pair] at hpart
      rcases hpart with rfl | rfl
      · rcases Text.eq_or_exists_of_mem_split '.' hcpart with rfl | ⟨word, hword, hcword⟩
        · exact .inr (.inl rfl)
        · have hlocal := h.1
          simp only [isLocalPart, Bool.and_eq_true, List.all_eq_true] at hlocal
          exact .inl ((hlocal.1 word hword).2 c hcword)
      · exact (isLocalChar_or_eq_of_isDomain h.2 hcpart).imp id .inl
  · cases h

/-- The characters of words are ASCII characters from the apostrophe to the letter z, and none of
them is a semicolon. -/
theorem bounds_of_isLocalChar {c : Char} (h : isLocalChar c = true) :
    0x27 ≤ c.toNat ∧ c.toNat ≤ 0x7A ∧ c.toNat ≠ 0x3B := by
  simp only [isLocalChar, Bool.or_eq_true, beq_iff_eq] at h
  rcases h with (((halnum | rfl) | rfl) | rfl) | rfl
  · delta Char.isAlphanum Char.isAlpha Char.isUpper Char.isLower Char.isDigit at halnum
    simp only [Bool.or_eq_true, Bool.and_eq_true, decide_eq_true_eq, ge_iff_le,
      UInt32.le_iff_toNat_le] at halnum
    have hnumber : c.toNat = c.val.toNat := rfl
    simp at halnum
    omega
  all_goals decide

/-- An email address has no blanks and no semicolons. -/
theorem not_isBlank_and_ne_of_isEmail (h : isEmail text = true) {c : Char} (hc : c ∈ text) :
    Text.isBlank c = false ∧ c ≠ ';' := by
  rcases isLocalChar_or_eq_of_isEmail h hc with hlocal | rfl | rfl
  · obtain ⟨hleast, hgreatest, hsemicolon⟩ := bounds_of_isLocalChar hlocal
    refine ⟨?_, fun hc => hsemicolon (hc ▸ rfl)⟩
    simp only [Text.isBlank, Bool.or_eq_false_iff, Bool.and_eq_false_iff, decide_eq_false_iff_not,
      beq_eq_false_iff_ne]
    omega
  · decide
  · decide

/-- An email address is not empty. -/
theorem ne_nil_of_isEmail (h : isEmail text = true) : text ≠ [] := by
  rintro rfl
  cases h

end Pattern

namespace AutocryptHeader

open Text (isBlank trim withoutBlanks)

/-! ## Headers -/

/-- The parts of an address and a key write these. -/
theorem lays_addr_keydata (addr key : List Char) :
    Lays ["addr=".toList ++ addr, " keydata=".toList ++ key]
      [("addr".toList, addr), ("keydata".toList, key)] := by
  have hnone : AllBlank [] := nofun
  have hblank : AllBlank [' '] := by
    intro c hc
    rw [List.mem_singleton.mp hc]
    decide
  refine .entry ⟨[], "addr".toList, [], [], [], ?_, rfl, ⟨hnone, hnone⟩, hnone, hnone⟩
    (.entry ⟨[' '], "keydata".toList, [], [], [], ?_, rfl, ⟨hblank, hnone⟩, hnone, hnone⟩ .nil)
  · simp
  · simp

/-- A header of an address and a key in base64 is read as these two. -/
theorem parse_addr_keydata {addr key : List Char} (haddr : Pattern.isEmail addr = true)
    (hkey : ';' ∉ key) (hbase64 : isBase64 (withoutBlanks key) = true) :
    parse ("addr=".toList ++ addr ++ "; keydata=".toList ++ key) =
      .ok ⟨String.ofList addr, .noPreference, Text.Base64.decode (withoutBlanks key)⟩ := by
  have hblank : ∀ c ∈ addr, isBlank c = false := fun c hc =>
    (Pattern.not_isBlank_and_ne_of_isEmail haddr hc).1
  have hsemicolon : ';' ∉ addr := fun hc => (Pattern.not_isBlank_and_ne_of_isEmail haddr hc).2 rfl
  have hwritten : "addr=".toList ++ addr ++ "; keydata=".toList ++ key =
      Text.join ';' ["addr=".toList ++ addr, " keydata=".toList ++ key] := by
    rw [Text.join, Text.join]
    · simp
    · simp
  have hplain : ∀ entry ∈ [("addr".toList, addr), ("keydata".toList, key)],
      IsName entry.1 ∧ ';' ∉ entry.2 := by
    have haddrName : "addr".toList ∈ knownNames := by decide
    have hkeyName : "keydata".toList ∈ knownNames := by decide
    rw [List.forall_mem_cons, List.forall_mem_singleton]
    exact ⟨⟨(isName_of_mem_knownNames haddrName).1, hsemicolon⟩,
      (isName_of_mem_knownNames hkeyName).1, hkey⟩
  have hnodup : [Text.lower "addr".toList, Text.lower "keydata".toList].Nodup := by decide
  have hread : [("addr".toList, addr), ("keydata".toList, key)].map readEntry =
      [("addr".toList, addr), ("keydata".toList, trim key)] := by
    rw [List.map_cons, List.map_cons, readEntry, Text.trim_eq_self hblank]
    rfl
  rw [hwritten, parse_join_of_lays (lays_addr_keydata addr key) (by simp) hplain hnodup, hread]
  rw [← Text.withoutBlanks_trim key] at hbase64 ⊢
  refine ofAttributes_eq_ok ?_ rfl (Pattern.ne_nil_of_isEmail haddr) rfl hbase64
  rw [List.forall_mem_cons, List.forall_mem_singleton]
  exact ⟨rfl, rfl⟩

end AutocryptHeader

end PgpInspect
