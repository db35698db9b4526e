import PgpInspect.Proofs.Text.Base64

/-!
# Which texts are base64 of what is read from them

Octets have two texts in base64, one with padding and one without (`Base64.IsEncoding`), and both
are read as these octets (`Base64.decode_of_isEncoding`). But the reader is lenient: it gives octets
for letters in any number. From a text of letters and pads it reads whole octets, a letter that is
alone in its group is dropped, and the text is one of the two texts of what is read exactly if its
letters hold whole octets and nothing else, with pads that are right or left out
(`Base64.IsLettered.isReading`).

Letters are followed by their values (`Base64.sextets`), so that the padding and the alphabet are
settled apart from the groups.
-/

namespace PgpInspect.Text.Base64

/-! ## Values of octets -/

/-- The values below 64 that write a sequence of octets, the last one filled up with zero bits. -/
def sextets : Octets → List Nat
  | a :: b :: c :: rest =>
    a.toNat / 4 :: (a.toNat % 4 * 16 + b.toNat / 16) :: (b.toNat % 16 * 4 + c.toNat / 64)
      :: c.toNat % 64 :: sextets rest
  | [a, b] => [a.toNat / 4, a.toNat % 4 * 16 + b.toNat / 16, b.toNat % 16 * 4]
  | [a] => [a.toNat / 4, a.toNat % 4 * 16]
  | [] => []

/-- Whether values hold whole octets: no value is alone in its group, and the bits that are left
over are zeros. -/
def isWhole : (values : List Nat) → Bool
  | _ :: _ :: _ :: _ :: rest => isWhole rest
  | [_, _, c] => c % 4 == 0
  | [_, b] => b % 16 == 0
  | [_] => false
  | [] => true

/-- The values of octets are below 64. -/
theorem lt_of_mem_sextets {octets : Octets} {value : Nat} (h : value ∈ sextets octets) :
    value < 64 := by
  fun_induction sextets octets with
  | case1 a b c rest ih =>
    have ha := a.toNat_lt
    have hb := b.toNat_lt
    have hc := c.toNat_lt
    simp only [List.mem_cons] at h
    rcases h with h | h | h | h | h
    · omega
    · omega
    · omega
    · omega
    · exact ih h
  | case2 a b =>
    have ha := a.toNat_lt
    have hb := b.toNat_lt
    simp only [List.mem_cons, List.not_mem_nil, or_false] at h
    omega
  | case3 a =>
    have ha := a.toNat_lt
    simp only [List.mem_cons, List.not_mem_nil, or_false] at h
    omega
  | case4 => cases h

/-- Values that make no octet are one at most. -/
theorem eq_nil_or_singleton {values : List Nat}
    (hfour : ∀ a b c d rest, values = a :: b :: c :: d :: rest → False)
    (hthree : ∀ a b c, values = [a, b, c] → False) (htwo : ∀ a b, values = [a, b] → False) :
    values = [] ∨ ∃ a, values = [a] := by
  rcases values with _ | ⟨a, _ | ⟨b, _ | ⟨c, _ | ⟨d, rest⟩⟩⟩⟩
  · exact .inl rfl
  · exact .inr ⟨a, rfl⟩
  · exact (htwo a b rfl).elim
  · exact (hthree a b c rfl).elim
  · exact (hfour a b c d rest rfl).elim

/-- Six bits for each value make octets, and what is left over is dropped. -/
theorem length_octetsOf_eq (values : List Nat) :
    (octetsOf values).length = 6 * values.length / 8 := by
  fun_induction octetsOf values with
  | case1 a b c d rest ih =>
    simp only [List.length_cons]
    omega
  | case2 a b c => simp
  | case3 a b => simp
  | case4 values hfour hthree htwo =>
    rcases eq_nil_or_singleton hfour hthree htwo with rfl | ⟨a, rfl⟩
    · rfl
    · simp

/-- Values are those of the octets that they make exactly if they hold whole octets. -/
theorem sextets_octetsOf_eq_iff {values : List Nat} (h : ∀ value ∈ values, value < 64) :
    sextets (octetsOf values) = values ↔ isWhole values = true := by
  fun_induction isWhole values with
  | case1 a b c d rest ih =>
    have ha := h a (by simp)
    have hb := h b (by simp)
    have hc := h c (by simp)
    have hd := h d (by simp)
    have hrest := ih fun value hvalue => h value (by simp [hvalue])
    rw [octetsOf, sextets, ← hrest]
    simp only [UInt8.toNat_ofNat', List.cons.injEq]
    refine ⟨fun heq => heq.2.2.2.2, fun heq => ⟨?_, ?_, ?_, ?_, heq⟩⟩ <;> omega
  | case2 a b c =>
    have ha := h a (by simp)
    have hb := h b (by simp)
    have hc := h c (by simp)
    simp only [octetsOf, sextets, UInt8.toNat_ofNat', List.cons.injEq, and_true, beq_iff_eq]
    omega
  | case3 a b =>
    have ha := h a (by simp)
    have hb := h b (by simp)
    simp only [octetsOf, sextets, UInt8.toNat_ofNat', List.cons.injEq, and_true, beq_iff_eq]
    omega
  | case4 a => simp [octetsOf, sextets]
  | case5 => simp [octetsOf, sextets]

/-- Values that hold whole octets are none alone in their group. -/
theorem length_mod_of_isWhole {values : List Nat} (h : isWhole values = true) :
    values.length % 4 ≠ 1 := by
  fun_induction isWhole values with
  | case1 a b c d rest ih =>
    have hrest := ih h
    simp only [List.length_cons]
    omega
  | case2 | case3 | case5 => simp
  | case4 => cases h

/-- A value that is alone in its group is dropped. -/
theorem octetsOf_dropLast {values : List Nat} (h : values.length % 4 = 1) :
    octetsOf values.dropLast = octetsOf values := by
  fun_induction octetsOf values with
  | case1 a b c d rest ih =>
    have hrest : rest.length % 4 = 1 := by
      simp only [List.length_cons] at h
      omega
    have hne : rest ≠ [] := by
      rintro rfl
      cases hrest
    have hdrop : (a :: b :: c :: d :: rest).dropLast = a :: b :: c :: d :: rest.dropLast := by
      rw [List.dropLast_cons_of_ne_nil (by simp), List.dropLast_cons_of_ne_nil (by simp),
        List.dropLast_cons_of_ne_nil (by simp), List.dropLast_cons_of_ne_nil hne]
    rw [hdrop, octetsOf, ih hrest]
  | case2 | case3 => simp at h
  | case4 values hfour hthree htwo =>
    rcases eq_nil_or_singleton hfour hthree htwo with rfl | ⟨a, rfl⟩
    · rfl
    · rfl

/-! ## Letters -/

/-- Every letter of the alphabet is the one that writes its value. -/
theorem exists_digit_eq {c : Char} (h : isAlphabet c = true) : ∃ value < 64, digit value = c := by
  unfold isAlphabet value? at h
  simp only [Bool.and_eq_true, bne_iff_ne] at h
  obtain ⟨⟨hvalue, hdash⟩, hline⟩ := h
  have hnumber (value : Nat) (hplace : value = c.toNat) : Char.ofNat value = c := by
    rw [hplace, Char.ofNat_toNat]
  split_ifs at hvalue with hupper hlower hdecimal hplus hslash
  · refine ⟨c.toNat - 65, by omega, ?_⟩
    rw [digit, if_pos (by omega), hnumber _ (by omega)]
  · refine ⟨c.toNat - 71, by omega, ?_⟩
    rw [digit, if_neg (by omega), if_pos (by omega), hnumber _ (by omega)]
  · refine ⟨c.toNat + 4, by omega, ?_⟩
    rw [digit, if_neg (by omega), if_neg (by omega), if_pos (by omega), hnumber _ (by omega)]
  · exact ⟨62, by decide, (hplus.resolve_right hdash).symm⟩
  · exact ⟨63, by decide, (hslash.resolve_right hline).symm⟩
  · cases hvalue

/-- Letters write values. -/
theorem exists_map_digit_eq {letters : List Char} (h : ∀ c ∈ letters, isAlphabet c = true) :
    ∃ values : List Nat, letters = values.map digit ∧ ∀ value ∈ values, value < 64 := by
  induction letters with
  | nil => exact ⟨[], rfl, nofun⟩
  | cons c rest ih =>
    obtain ⟨hletter, hrest⟩ := List.forall_mem_cons.mp h
    obtain ⟨value, hvalue, hdigit⟩ := exists_digit_eq hletter
    obtain ⟨values, hvalues, hlt⟩ := ih hrest
    refine ⟨value :: values, ?_, List.forall_mem_cons.mpr ⟨hvalue, hlt⟩⟩
    rw [List.map_cons, hdigit, hvalues]

variable {values : List Nat}

/-- The values of letters with padding behind them are read back. -/
theorem readValues_map_digit (h : ∀ value ∈ values, value < 64) (pads : Nat) :
    readValues (values.map digit ++ List.replicate pads '=') = values := by
  induction values with
  | nil => cases pads <;> rfl
  | cons value rest ih =>
    obtain ⟨hvalue, hrest⟩ := List.forall_mem_cons.mp h
    rw [List.map_cons, List.cons_append, readValues_digit hvalue, ih hrest]

/-- Letters and padding are read as the octets of their values. -/
theorem decode_map_digit (h : ∀ value ∈ values, value < 64) (pads : Nat) :
    decode (values.map digit ++ List.replicate pads '=') = octetsOf values := by
  have hbounds : ∀ c ∈ values.map digit ++ List.replicate pads '=', c.toNat < 256 := by
    intro c hc
    rcases List.mem_append.mp hc with hletter | hpad
    · obtain ⟨value, hvalue, rfl⟩ := List.mem_map.mp hletter
      have hnumber := (bounds_of_isAlphabet (digit_table value (h value hvalue)).2.1).2.1
      omega
    · rw [List.eq_of_mem_replicate hpad]
      decide
  rw [decode, decodeUnits_flatMap_units hbounds, readValues_map_digit h]

/-! ## Two texts for octets -/

/-- The text that writes a sequence of octets, without padding. -/
def unpadded (octets : Octets) : List Char := (encode octets).takeWhile (· != '=')

/-- A text is base64 of octets, with or without padding. -/
def IsEncoding (text : List Char) (octets : Octets) : Prop :=
  text = encode octets ∨ text = unpadded octets

instance (text : List Char) (octets : Octets) : Decidable (IsEncoding text octets) :=
  inferInstanceAs (Decidable (_ ∨ _))

/-- The padded form is letters and up to two pads that fill up a group of four. -/
theorem exists_encode_eq (octets : Octets) :
    ∃ pads ≤ 2, encode octets = (sextets octets).map digit ++ List.replicate pads '=' ∧
      ((sextets octets).length + pads) % 4 = 0 := by
  fun_induction encode octets with
  | case1 a b c rest ih =>
    obtain ⟨pads, hle, hrest, hlength⟩ := ih
    refine ⟨pads, hle, ?_, ?_⟩
    · rw [hrest]
      rfl
    · rw [sextets]
      simp only [List.length_cons]
      omega
  | case2 a b => exact ⟨1, by decide, rfl, Nat.mod_self 4⟩
  | case3 a => exact ⟨2, by decide, rfl, Nat.mod_self 4⟩
  | case4 => exact ⟨0, by decide, rfl, Nat.zero_mod 4⟩

/-- The form without padding is the letters. -/
theorem unpadded_eq (octets : Octets) : unpadded octets = (sextets octets).map digit := by
  obtain ⟨pads, -, hencode, -⟩ := exists_encode_eq octets
  have hletters : ∀ c ∈ (sextets octets).map digit, (c != '=') = true := by
    intro c hc
    obtain ⟨value, hvalue, rfl⟩ := List.mem_map.mp hc
    exact bne_iff_ne.mpr (digit_table value (lt_of_mem_sextets hvalue)).2.2
  rw [unpadded, hencode, List.takeWhile_append_of_pos hletters]
  cases pads <;> simp [List.replicate_succ]

/-- The values of octets make these octets. -/
theorem octetsOf_sextets (octets : Octets) : octetsOf (sextets octets) = octets := by
  obtain ⟨pads, -, hencode, -⟩ := exists_encode_eq octets
  have hread := octetsOf_readValues_encode octets
  rwa [hencode, readValues_map_digit fun _ => lt_of_mem_sextets] at hread

/-- Both texts are letters and up to two pads. -/
theorem IsEncoding.exists_eq {text : List Char} {octets : Octets} (h : IsEncoding text octets) :
    ∃ pads ≤ 2, text = (sextets octets).map digit ++ List.replicate pads '=' := by
  obtain ⟨pads, hle, hencode, -⟩ := exists_encode_eq octets
  rcases h with rfl | rfl
  · exact ⟨pads, hle, hencode⟩
  · exact ⟨0, by decide, by rw [unpadded_eq, List.replicate_zero, List.append_nil]⟩

/-- Octets are read from both of their texts. -/
theorem decode_of_isEncoding {text : List Char} {octets : Octets} (h : IsEncoding text octets) :
    decode text = octets := by
  obtain ⟨pads, -, rfl⟩ := h.exists_eq
  rw [decode_map_digit fun _ => lt_of_mem_sextets, octetsOf_sextets]

/-- Letters with padding are a text of the octets of their values exactly if the values hold whole
octets, and the padding is left out or fills up a group of four. -/
theorem isEncoding_octetsOf_iff {pads : Nat} (h : ∀ value ∈ values, value < 64) (hle : pads ≤ 2) :
    IsEncoding (values.map digit ++ List.replicate pads '=') (octetsOf values) ↔
      isWhole values = true ∧ (pads = 0 ∨ (values.length + pads) % 4 = 0) := by
  have hsextets : ∀ value ∈ sextets (octetsOf values), value < 64 := fun _ => lt_of_mem_sextets
  obtain ⟨filling, hfilling, hencode, hlength⟩ := exists_encode_eq (octetsOf values)
  rw [IsEncoding, hencode, unpadded_eq, ← sextets_octetsOf_eq_iff h]
  constructor
  · intro htext
    -- The values are read from either text, and then the pads are compared.
    have hvalues : sextets (octetsOf values) = values := by
      have hread := readValues_map_digit h pads
      rcases htext with htext | htext
      · rw [htext, readValues_map_digit hsextets] at hread
        exact hread
      · have hnone := readValues_map_digit hsextets 0
        rw [List.replicate_zero, List.append_nil] at hnone
        rw [htext, hnone] at hread
        exact hread
    refine ⟨hvalues, ?_⟩
    rw [hvalues] at htext hlength
    rcases htext with htext | htext
    · have hpads := congrArg List.length (List.append_cancel_left htext)
      rw [List.length_replicate, List.length_replicate] at hpads
      omega
    · have hpads := congrArg List.length htext
      rw [List.length_append, List.length_replicate] at hpads
      omega
  · rintro ⟨hvalues, hpads⟩
    rw [hvalues] at hlength ⊢
    rcases hpads with rfl | hpads
    · right
      rw [List.replicate_zero, List.append_nil]
    · left
      have hsame : pads = filling := by omega
      rw [hsame]

/-! ## Texts of letters and pads -/

/-- The characters of the alphabet in a text. -/
def letters (text : List Char) : List Char := text.filter isAlphabet

/-- A text consists of letters, and up to two pads behind them. -/
def IsLettered (text : List Char) : Prop :=
  ∃ pads ≤ 2, text = letters text ++ List.replicate pads '='

/-- The letters of a text hold whole octets, at least one, and the padding is left out or fills up a
group of four. -/
structure HoldsOctets (text : List Char) : Prop where
  /-- No letter is alone in its group, and the bits that are left over are zeros. -/
  whole : isWhole (readValues (letters text)) = true
  /-- There are letters. -/
  ne_nil : letters text ≠ []
  /-- Pads fill up a group of four, if there are any. -/
  padding : text.count '=' = 0 ∨ ((letters text).length + text.count '=') % 4 = 0

/-- What is read from a text of letters and pads, and when it is read without a loss. -/
structure IsReading (text : List Char) (octets : Octets) : Prop where
  /-- The text consists of letters and pads. -/
  lettered : IsLettered text
  /-- Each letter gives six bits. -/
  length_eq : octets.length = 6 * (letters text).length / 8
  /-- A last letter that is alone in its group is dropped. -/
  drops : (letters text).length % 4 = 1 → octets = decode (letters text).dropLast
  /-- The text is one of those that write the octets, and there are octets, exactly if its letters
  hold octets. -/
  isEncoding_iff : IsEncoding text octets ∧ octets ≠ [] ↔ HoldsOctets text

variable {text : List Char}

/-- The letters in front of pads are the letters of the text. -/
theorem letters_append_replicate {front : List Char} (h : ∀ c ∈ front, isAlphabet c = true)
    (pads : Nat) : letters (front ++ List.replicate pads '=') = front := by
  have hpads : (List.replicate pads '=').filter isAlphabet = [] :=
    List.filter_replicate_of_neg (by decide)
  rw [letters, List.filter_append, List.filter_eq_self.mpr h, hpads, List.append_nil]

/-- Letters with up to two pads behind them are a text of letters and pads. -/
theorem isLettered_append {front : List Char} (h : ∀ c ∈ front, isAlphabet c = true) {pads : Nat}
    (hle : pads ≤ 2) : IsLettered (front ++ List.replicate pads '=') :=
  ⟨pads, hle, by rw [letters_append_replicate h]⟩

/-- The letters are of the alphabet. -/
theorem isAlphabet_of_mem_letters {c : Char} (h : c ∈ letters text) : isAlphabet c = true :=
  List.of_mem_filter h

/-- What writes octets consists of letters and pads. -/
theorem IsEncoding.isLettered {octets : Octets} (h : IsEncoding text octets) :
    IsLettered text := by
  obtain ⟨pads, hle, rfl⟩ := h.exists_eq
  refine isLettered_append (fun c hc => ?_) hle
  obtain ⟨value, hvalue, rfl⟩ := List.mem_map.mp hc
  exact (digit_table value (lt_of_mem_sextets hvalue)).2.1

/-! ## Values of a text -/

/-- A text is the letters of values, with up to two pads behind them. -/
structure Writes (text : List Char) (values : List Nat) (pads : Nat) : Prop where
  /-- The letters and the pads are all of the text. -/
  text_eq : text = values.map digit ++ List.replicate pads '='
  /-- Every value has a letter. -/
  lt : ∀ value ∈ values, value < 64
  /-- A group of four has two letters at least. -/
  pads_le : pads ≤ 2

/-- A text of letters and pads writes values. -/
theorem IsLettered.exists_writes (h : IsLettered text) :
    ∃ (values : List Nat) (pads : Nat), Writes text values pads := by
  obtain ⟨pads, hle, htext⟩ := h
  obtain ⟨values, hvalues, hlt⟩ := exists_map_digit_eq fun c => isAlphabet_of_mem_letters (c := c)
  exact ⟨values, pads, hvalues ▸ htext, hlt, hle⟩

namespace Writes

variable {pads : Nat}

/-- The letters are those of the values. -/
theorem letters_eq (h : Writes text values pads) : letters text = values.map digit := by
  rw [h.text_eq, letters_append_replicate]
  intro c hc
  obtain ⟨value, hvalue, rfl⟩ := List.mem_map.mp hc
  exact (digit_table value (h.lt value hvalue)).2.1

/-- There are as many letters as values. -/
theorem length_letters (h : Writes text values pads) : (letters text).length = values.length := by
  rw [h.letters_eq, List.length_map]

/-- The values are read from the letters. -/
theorem readValues_letters (h : Writes text values pads) : readValues (letters text) = values := by
  have hread := readValues_map_digit h.lt 0
  rwa [List.replicate_zero, List.append_nil, ← h.letters_eq] at hread

/-- The pads are the `=` of the text. -/
theorem count_eq (h : Writes text values pads) : text.count '=' = pads := by
  have hnone : (values.map digit).count '=' = 0 := by
    refine List.count_eq_zero.mpr fun hmem => ?_
    obtain ⟨value, hvalue, hpad⟩ := List.mem_map.mp hmem
    exact (digit_table value (h.lt value hvalue)).2.2 hpad
  rw [h.text_eq, List.count_append, hnone, List.count_replicate_self, Nat.zero_add]

/-- The octets of the values are read from the text. -/
theorem decode_eq (h : Writes text values pads) : decode text = octetsOf values := by
  rw [h.text_eq, decode_map_digit h.lt]

/-- Without the last letter, the last value is missing. -/
theorem decode_dropLast_letters (h : Writes text values pads) :
    decode (letters text).dropLast = octetsOf values.dropLast := by
  have hlt : ∀ value ∈ values.dropLast, value < 64 := fun value hvalue =>
    h.lt value (List.dropLast_subset values hvalue)
  have hdecode := decode_map_digit hlt 0
  rwa [List.replicate_zero, List.append_nil, List.map_dropLast, ← h.letters_eq] at hdecode

end Writes

/-- Whole octets are at least one, if there are values. -/
theorem octetsOf_ne_nil (hwhole : isWhole values = true) (hne : values ≠ []) :
    octetsOf values ≠ [] := by
  have hlength := length_octetsOf_eq values
  have hmod := length_mod_of_isWhole hwhole
  have hpos := List.length_pos_of_ne_nil hne
  refine List.ne_nil_of_length_pos ?_
  omega

/-- What the reader gives for a text of letters and pads. -/
theorem IsLettered.isReading (h : IsLettered text) : IsReading text (decode text) := by
  -- What is said about the text is said about its values and its pads.
  obtain ⟨values, pads, hwrites⟩ := h.exists_writes
  have hencoding := isEncoding_octetsOf_iff hwrites.lt hwrites.pads_le
  rw [← hwrites.text_eq] at hencoding
  rw [hwrites.decode_eq]
  refine ⟨h, ?_, fun hmod => ?_, ?_⟩
  · rw [length_octetsOf_eq, hwrites.length_letters]
  · rw [hwrites.length_letters] at hmod
    rw [hwrites.decode_dropLast_letters, octetsOf_dropLast hmod]
  · constructor
    · rintro ⟨hwritten, hne⟩
      obtain ⟨hwhole, hpadding⟩ := hencoding.mp hwritten
      refine ⟨by rwa [hwrites.readValues_letters], fun hnone => hne ?_, ?_⟩
      · rw [← hwrites.readValues_letters, hnone]
        rfl
      · rwa [hwrites.length_letters, hwrites.count_eq]
    · rintro ⟨hwhole, hne, hpadding⟩
      rw [hwrites.readValues_letters] at hwhole
      rw [hwrites.length_letters, hwrites.count_eq] at hpadding
      refine ⟨hencoding.mpr ⟨hwhole, hpadding⟩, octetsOf_ne_nil hwhole fun hnone => hne ?_⟩
      rw [hwrites.letters_eq, hnone]
      rfl

end PgpInspect.Text.Base64
