import Mathlib.Data.List.Basic
import Mathlib.Data.List.TakeWhile
import Mathlib.Tactic.SplitIfs
import PgpInspect.Text.Base64

/-!
# Base64 is read as it is written

The octets that a text in base64 writes are read from it, also when the text is broken into lines
(`Base64.decodeUnits_of_filter`). What is read depends only on the values of the characters up to
the first `=` (`decodeUnits_flatMap_units`), and a line feed has none; the values of the padded form
write the octets (`octetsOf_readValues_encode`), one group of three after the other.
-/

namespace PgpInspect.Text.Base64

/-! ## Characters -/

/-- Every value is written by a character of the alphabet that has it. -/
theorem digit_table : ∀ value < 64, value? (digit value) = some value ∧
    isAlphabet (digit value) = true ∧ digit value ≠ '=' := by
  decide

/-- The characters of the alphabet are printed ones of seven bits, and neither dashes nor pads. -/
theorem bounds_of_isAlphabet {c : Char} (h : isAlphabet c = true) :
    32 < c.toNat ∧ c.toNat < 128 ∧ c ≠ '-' ∧ c ≠ '=' := by
  unfold isAlphabet at h
  simp only [Bool.and_eq_true, bne_iff_ne] at h
  obtain ⟨⟨hvalue, hdash⟩, -⟩ := h
  have hpad : c ≠ '=' := by
    rintro rfl
    cases hvalue
  have hrange : 32 < c.toNat ∧ c.toNat < 128 := by
    unfold value? at hvalue
    dsimp only at hvalue
    split_ifs at hvalue with hupper hlower hnumber hplus hslash
    · omega
    · omega
    · omega
    · rcases hplus with rfl | rfl <;> decide
    · rcases hslash with rfl | rfl <;> decide
    · cases hvalue
  exact ⟨hrange.1, hrange.2, hdash, hpad⟩

/-- The padded form consists of the alphabet and pads. -/
theorem isAlphabet_or_eq_of_mem_encode {octets : Octets} {c : Char} (h : c ∈ encode octets) :
    isAlphabet c = true ∨ c = '=' := by
  have hdigit {value : Nat} (hvalue : value < 64) (hc : c = digit value) : isAlphabet c = true := by
    rw [hc]
    exact (digit_table value hvalue).2.1
  fun_induction encode octets with
  | case1 a b c' rest ih =>
    have ha := a.toNat_lt
    have hb := b.toNat_lt
    have hc' := c'.toNat_lt
    simp only [List.mem_cons] at h
    rcases h with h | h | h | h | h
    · exact .inl (hdigit (by omega) h)
    · exact .inl (hdigit (by omega) h)
    · exact .inl (hdigit (by omega) h)
    · exact .inl (hdigit (by omega) h)
    · exact ih h
  | case2 a b =>
    have ha := a.toNat_lt
    have hb := b.toNat_lt
    simp only [List.mem_cons, List.not_mem_nil, or_false] at h
    rcases h with h | h | h | h
    · exact .inl (hdigit (by omega) h)
    · exact .inl (hdigit (by omega) h)
    · exact .inl (hdigit (by omega) h)
    · exact .inr h
  | case3 a =>
    have ha := a.toNat_lt
    simp only [List.mem_cons, List.not_mem_nil, or_false] at h
    rcases h with h | h | h | h
    · exact .inl (hdigit (by omega) h)
    · exact .inl (hdigit (by omega) h)
    · exact .inr h
    · exact .inr h
  | case4 => cases h

/-! ## Values -/

/-- The values of characters up to the first `=`. -/
def readValues (text : List Char) : List Nat := (text.takeWhile (· != '=')).filterMap value?

/-- The octets of a text of characters of one octet are those of their values. -/
theorem decodeUnits_flatMap_units {text : List Char} (h : ∀ c ∈ text, c.toNat < 256) :
    decodeUnits (text.flatMap units) = octetsOf (readValues text) := by
  have hunits : (text.flatMap units).map lowChar = text := by
    induction text with
    | nil => rfl
    | cons c rest ih =>
      have hlt := h c List.mem_cons_self
      have hunit : units c = [c.toNat] := if_pos (by omega)
      have hlow : lowChar c.toNat = c := by
        unfold lowChar
        rw [Nat.mod_eq_of_lt hlt, Char.ofNat_toNat]
      rw [List.flatMap_cons, hunit, List.singleton_append, List.map_cons, hlow,
        ih fun other hother => h other (List.mem_cons_of_mem c hother)]
  unfold decodeUnits values readValues
  rw [hunits]

/-- Characters without a value can be left out. -/
theorem readValues_filter {keep : Char → Bool}
    (h : ∀ c, keep c = false → c ≠ '=' ∧ value? c = none) (text : List Char) :
    readValues (text.filter keep) = readValues text := by
  unfold readValues
  induction text with
  | nil => rfl
  | cons c rest ih =>
    cases hkeep : keep c with
    | true =>
      rw [List.filter_cons_of_pos hkeep, List.takeWhile_cons, List.takeWhile_cons]
      split
      · rw [List.filterMap_cons, List.filterMap_cons, ih]
      · rfl
    | false =>
      obtain ⟨hpad, hvalue⟩ := h c hkeep
      rw [List.filter_cons_of_neg (by simp [hkeep]), List.takeWhile_cons_of_pos (by simpa using hpad),
        List.filterMap_cons_none hvalue]
      exact ih

/-- The value of a character that writes it comes in front of the values behind it. -/
theorem readValues_digit {value : Nat} (h : value < 64) (rest : List Char) :
    readValues (digit value :: rest) = value :: readValues rest := by
  obtain ⟨hvalue, -, hpad⟩ := digit_table value h
  unfold readValues
  rw [List.takeWhile_cons_of_pos (by simpa using hpad), List.filterMap_cons_some hvalue]

/-- An octet is told by a number that is the same modulo 256. -/
theorem ofNat_eq_of_mod {number : Nat} (octet : UInt8) (h : number % 256 = octet.toNat) :
    UInt8.ofNat number = octet := by
  rw [← UInt8.toNat_inj, UInt8.toNat_ofNat', h]

/-- The values of the padded form write the octets. -/
theorem octetsOf_readValues_encode (octets : Octets) :
    octetsOf (readValues (encode octets)) = octets := by
  fun_induction encode octets with
  | case1 a b c rest ih =>
    have ha := a.toNat_lt
    have hb := b.toNat_lt
    have hc := c.toNat_lt
    rw [readValues_digit (by omega), readValues_digit (by omega), readValues_digit (by omega),
      readValues_digit (by omega), octetsOf, ih, ofNat_eq_of_mod a (by omega),
      ofNat_eq_of_mod b (by omega), ofNat_eq_of_mod c (by omega)]
  | case2 a b =>
    have ha := a.toNat_lt
    have hb := b.toNat_lt
    have hend : readValues ['='] = [] := rfl
    rw [readValues_digit (by omega), readValues_digit (by omega), readValues_digit (by omega), hend,
      octetsOf, ofNat_eq_of_mod a (by omega), ofNat_eq_of_mod b (by omega)]
  | case3 a =>
    have ha := a.toNat_lt
    have hend : readValues ['=', '='] = [] := rfl
    rw [readValues_digit (by omega), readValues_digit (by omega), hend, octetsOf,
      ofNat_eq_of_mod a (by omega)]
  | case4 => rfl

/-- Base64 in lines is printed but for the line feeds. -/
theorem printed_of_filter {text : List Char} {octets : Octets}
    (h : text.filter (· != '\n') = encode octets) :
    ∀ c ∈ text, c ≠ '\n' → 32 < c.toNat ∧ c.toNat < 128 := by
  intro c hc hfeed
  have hmem : c ∈ encode octets := by
    rw [← h]
    exact List.mem_filter.mpr ⟨hc, bne_iff_ne.mpr hfeed⟩
  rcases isAlphabet_or_eq_of_mem_encode hmem with halphabet | rfl
  · have hbounds := bounds_of_isAlphabet halphabet
    exact ⟨hbounds.1, hbounds.2.1⟩
  · decide

/-- The octets that a text in base64 writes are read from it, broken into lines. -/
theorem decodeUnits_of_filter {text : List Char} {octets : Octets}
    (h : text.filter (· != '\n') = encode octets) : decodeUnits (text.flatMap units) = octets := by
  have hlt : ∀ c ∈ text, c.toNat < 256 := by
    intro c hc
    by_cases hfeed : c = '\n'
    · rw [hfeed]
      decide
    · have hprinted := printed_of_filter h c hc hfeed
      omega
  have hvalues : readValues text = readValues (encode octets) := by
    rw [← h, readValues_filter]
    intro c hc
    rw [bne_eq_false_iff_eq] at hc
    rw [hc]
    decide
  calc decodeUnits (text.flatMap units)
      = octetsOf (readValues text) := decodeUnits_flatMap_units hlt
    _ = octetsOf (readValues (encode octets)) := by rw [hvalues]
    _ = octets := octetsOf_readValues_encode octets

/-- The length of the padded form is a multiple of four. -/
theorem length_encode_mod (octets : Octets) : (encode octets).length % 4 = 0 := by
  fun_induction encode octets with
  | case1 a b c rest ih =>
    simp only [List.length_cons]
    omega
  | case2 a b => exact Nat.mod_self 4
  | case3 a => exact Nat.mod_self 4
  | case4 => rfl

/-- A pad in the padded form is also at its end. -/
theorem getLast?_encode {octets : Octets} (h : '=' ∈ encode octets) :
    (encode octets).getLast? = some '=' := by
  fun_induction encode octets with
  | case1 a b c rest ih =>
    have ha := a.toNat_lt
    have hb := b.toNat_lt
    have hc := c.toNat_lt
    have hdigit {value : Nat} (hvalue : value < 64) : '=' ≠ digit value :=
      (digit_table value hvalue).2.2.symm
    have hrest : '=' ∈ encode rest := by
      simp only [List.mem_cons] at h
      rcases h with h | h | h | h | h
      · exact absurd h (hdigit (by omega))
      · exact absurd h (hdigit (by omega))
      · exact absurd h (hdigit (by omega))
      · exact absurd h (hdigit (by omega))
      · exact h
    have hfour (first second third fourth : Char) :
        first :: second :: third :: fourth :: encode rest =
          [first, second, third, fourth] ++ encode rest := rfl
    rw [hfour, List.getLast?_append_of_ne_nil _ (List.ne_nil_of_mem hrest)]
    exact ih hrest
  | case2 a b => rfl
  | case3 a => rfl
  | case4 => cases h

end PgpInspect.Text.Base64
