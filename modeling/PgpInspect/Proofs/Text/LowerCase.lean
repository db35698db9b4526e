import Mathlib.Data.List.Basic
import PgpInspect.Text.Blank
import PgpInspect.Text.LowerCase

/-!
# Lower case and ASCII letters

The lower-case form of a text does not depend on the case of its ASCII letters
(`Text.lower_eq_of_map_toLower_eq`). It is not made of the forms of the characters one by one:
whether a capital sigma becomes a final one depends on which characters around it are cased and
which ones are looked through. Both cases of an ASCII letter are alike in this
(`Text.toLower_alike`), so that the forms agree character by character
(`LowerCase.lowerAfter_map_toLower`).
-/

namespace PgpInspect.Text

/-! ## Characters -/

/-- A character has another form only if it is a capital letter of ASCII. -/
theorem toLower_cases (c : Char) : c.toLower = c ∨
    (65 ≤ c.toNat ∧ c.toNat ≤ 90) ∧ c.toLower.toNat = c.toNat + 32 := by
  have hnumber : c.toNat = c.val.toNat := rfl
  have hfirst : 'A'.val.toNat = 65 := rfl
  have hlast : 'Z'.val.toNat = 90 := rfl
  unfold Char.toLower
  split
  · next hcapital =>
    obtain ⟨hge, hle⟩ := hcapital
    rw [ge_iff_le, UInt32.le_iff_toNat_le] at hge
    rw [UInt32.le_iff_toNat_le] at hle
    right
    refine ⟨by omega, ?_⟩
    show (c.val + ('a'.val - 'A'.val)).toNat = c.val.toNat + 32
    rw [UInt32.toNat_add]
    have hoffset : ('a'.val - 'A'.val).toNat = 32 := rfl
    omega
  · exact .inl rfl

/-- The tables list the letters of ASCII as cased, and none of them as looked through. -/
theorem letter_table :
    ((65, 90) ∈ LowerCase.casedRanges ∧ (97, 122) ∈ LowerCase.casedRanges) ∧
      ∀ range ∈ LowerCase.ignorableRanges,
        range.2 < 65 ∨ (90 < range.1 ∧ range.2 < 97) ∨ 122 < range.1 := by
  decide +kernel

/-- What the tables and the blanks are about is the same for all letters of ASCII. -/
theorem isCased_of_letter {c : Char}
    (h : (65 ≤ c.toNat ∧ c.toNat ≤ 90) ∨ (97 ≤ c.toNat ∧ c.toNat ≤ 122)) :
    LowerCase.isCased c = true ∧ LowerCase.isIgnorable c = false ∧ isBlank c = false := by
  obtain ⟨⟨hcapital, hsmall⟩, hignorable⟩ := letter_table
  unfold LowerCase.isCased LowerCase.isIgnorable LowerCase.inRanges
  refine ⟨List.any_eq_true.mpr ?_, List.any_eq_false.mpr fun range hrange => ?_, ?_⟩
  · rcases h with h | h
    · exact ⟨_, hcapital, by simpa using h⟩
    · exact ⟨_, hsmall, by simpa using h⟩
  · have hapart := hignorable range hrange
    simp only [Bool.and_eq_true, decide_eq_true_eq]
    omega
  · simp only [isBlank, Bool.or_eq_false_iff, Bool.and_eq_false_iff, decide_eq_false_iff_not,
      beq_eq_false_iff_ne]
    omega

/-- A character and its form in lower case are alike. -/
theorem toLower_alike (c : Char) :
    LowerCase.isCased c.toLower = LowerCase.isCased c ∧
      LowerCase.isIgnorable c.toLower = LowerCase.isIgnorable c ∧
      isBlank c.toLower = isBlank c := by
  rcases toLower_cases c with hsame | ⟨hcapital, hnumber⟩
  · rw [hsame]
    exact ⟨rfl, rfl, rfl⟩
  · obtain ⟨hcased, hignorable, hblank⟩ := isCased_of_letter (.inl hcapital)
    obtain ⟨hcased', hignorable', hblank'⟩ := isCased_of_letter (c := c.toLower) (.inr (by omega))
    exact ⟨hcased'.trans hcased.symm, hignorable'.trans hignorable.symm, hblank'.trans hblank.symm⟩

/-- The form in lower case is its own form. -/
theorem toLower_toLower (c : Char) : c.toLower.toLower = c.toLower := by
  rcases toLower_cases c with hsame | ⟨hcapital, hnumber⟩
  · rw [hsame, hsame]
  · rcases toLower_cases c.toLower with htwice | ⟨hcapital', -⟩
    · exact htwice
    · omega

/-- A character that is no small letter is the form of itself only. -/
theorem eq_of_toLower_eq {mark c : Char} (hmark : mark.toNat < 97 ∨ 122 < mark.toNat)
    (h : c.toLower = mark) : c = mark := by
  rcases toLower_cases c with hsame | ⟨hcapital, hnumber⟩
  · rw [← hsame, h]
  · rw [h] at hnumber
    omega

/-! ## Texts -/

namespace LowerCase

/-- Whether a cased character is met does not depend on the case of letters. -/
theorem meetsCased_map_toLower (text : List Char) :
    meetsCased (text.map Char.toLower) = meetsCased text := by
  induction text with
  | nil => rfl
  | cons c rest ih =>
    obtain ⟨hcased, hignorable, -⟩ := toLower_alike c
    unfold meetsCased at ih ⊢
    cases hlooked : isIgnorable c with
    | true =>
      rw [List.map_cons, List.dropWhile_cons_of_pos (hignorable.trans hlooked),
        List.dropWhile_cons_of_pos hlooked]
      exact ih
    | false =>
      have hseen : ¬isIgnorable c = true := by simp [hlooked]
      rw [List.map_cons, List.dropWhile_cons_of_neg (hignorable ▸ hseen),
        List.dropWhile_cons_of_neg hseen]
      exact hcased

/-- Nor does the form of a character. -/
theorem lowerChar_toLower (before : List Char) (c : Char) (after : List Char) :
    lowerChar (before.map Char.toLower) c.toLower (after.map Char.toLower) =
      lowerChar before c after := by
  unfold lowerChar
  rw [meetsCased_map_toLower, meetsCased_map_toLower]
  rcases toLower_cases c with hsame | ⟨hcapital, hnumber⟩
  · -- Where the form is lowered again, it stays as well.
    rw [hsame, hsame]
  · -- The two exceptions are no letters of ASCII.
    have hne (other : Char) (h : 128 ≤ other.toNat) : c ≠ other ∧ c.toLower ≠ other := by
      constructor <;> rintro rfl <;> omega
    obtain ⟨hdot, hdot'⟩ := hne '\u0130' (by decide)
    obtain ⟨hsigma, hsigma'⟩ := hne '\u03A3' (by decide)
    rw [if_neg hdot, if_neg hdot', if_neg hsigma, if_neg hsigma', if_pos (by omega),
      if_pos (by omega), toLower_toLower]

/-- The forms of characters do not depend on the case of the letters before and after. -/
theorem lowerAfter_map_toLower (before text : List Char) :
    lowerAfter (before.map Char.toLower) (text.map Char.toLower) = lowerAfter before text := by
  induction text generalizing before with
  | nil => rfl
  | cons c rest ih =>
    rw [List.map_cons, lowerAfter, lowerAfter, lowerChar_toLower, ← ih (c :: before), List.map_cons]

end LowerCase

/-- Texts that differ in the case of ASCII letters only have one lower-case form. -/
theorem lower_eq_of_map_toLower_eq {text text' : List Char}
    (h : text.map Char.toLower = text'.map Char.toLower) : lower text = lower text' := by
  unfold lower
  calc LowerCase.lowerAfter [] text
      = LowerCase.lowerAfter [] (text.map Char.toLower) :=
        (LowerCase.lowerAfter_map_toLower [] text).symm
    _ = LowerCase.lowerAfter [] (text'.map Char.toLower) := by rw [h]
    _ = LowerCase.lowerAfter [] text' := LowerCase.lowerAfter_map_toLower [] text'

end PgpInspect.Text
