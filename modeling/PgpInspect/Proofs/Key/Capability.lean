import Mathlib.Data.Char
import Mathlib.Data.List.Nodup
import Mathlib.Data.List.Sort
import Mathlib.Data.List.TakeWhile
import Mathlib.Data.Set.List
import PgpInspect.Key.Capability

/-!
# Texts of capability letters

A text spells a set of letters if they are what it consists of, in order and without repetition
(`Capability.Spells`), so that a set is spelled in one way. Arranging letters spells them, merging
letters spells the union, and the own letters of a spelled text are the text. Letters are put in
order by their 16-bit units, which is the order of the characters for all that are written by one
unit (`Text.unitLe_singleton`).
-/

namespace PgpInspect

/-! ## The order by units -/

namespace Text

/-- Of two lists of numbers one is first. -/
theorem listLe_total (as bs : List Nat) : (listLe as bs || listLe bs as) = true := by
  fun_induction listLe as bs with
  | case1 bs => rfl
  | case2 a as => rfl
  | case3 a as b bs ih =>
    rw [listLe]
    rcases Nat.lt_trichotomy a b with hlt | rfl | hgt
    · simp [hlt]
    · simpa using ih
    · simp [hgt]

/-- The order of lists of numbers is transitive. -/
theorem listLe_trans (as bs cs : List Nat) (hab : listLe as bs = true) (hbc : listLe bs cs = true) :
    listLe as cs = true := by
  fun_induction listLe as bs generalizing cs with
  | case1 bs => rfl
  | case2 a as => cases hab
  | case3 a as b bs ih =>
    cases cs with
    | nil => cases hbc
    | cons c cs =>
      simp only [listLe, Bool.or_eq_true, Bool.and_eq_true, decide_eq_true_eq, beq_iff_eq]
        at hab hbc ⊢
      rcases hab with hab | ⟨rfl, hab⟩
      · rcases hbc with hbc | ⟨rfl, -⟩
        · exact .inl (Nat.lt_trans hab hbc)
        · exact .inl hab
      · rcases hbc with hbc | ⟨rfl, hbc⟩
        · exact .inl hbc
        · exact .inr ⟨rfl, ih cs hab hbc⟩

/-- Of two texts one is first. -/
theorem unitLe_total (a b : String) : (unitLe a b || unitLe b a) = true := listLe_total _ _

/-- The order of texts is transitive. -/
theorem unitLe_trans (a b c : String) (hab : unitLe a b = true) (hbc : unitLe b c = true) :
    unitLe a c = true :=
  listLe_trans _ _ _ hab hbc

/-- Characters that are written by one unit have the order of their code points. -/
theorem unitLe_singleton {a b : Char} (ha : a.toNat < 0x10000) (hb : b.toNat < 0x10000) :
    unitLe (String.singleton a) (String.singleton b) = true ↔ a ≤ b := by
  have hle : a ≤ b ↔ a.toNat ≤ b.toNat := Iff.rfl
  simp [unitLe, units, ha, hb, listLe, hle, Nat.le_iff_lt_or_eq]

end Text

namespace Capability

/-! ## Spelling -/

/-- A text that is a set of letters in order and without repetition. -/
structure Spells (letters : Set Char) (text : String) : Prop where
  /-- The characters of the text are the letters. -/
  mem_iff : ∀ letter, letter ∈ text.toList ↔ letter ∈ letters
  /-- They increase. -/
  sorted : text.toList.Pairwise (· < ·)

/-- A set is spelled in one way. -/
theorem Spells.eq {letters : Set Char} {text text' : String} (h : Spells letters text)
    (h' : Spells letters text') : text = text' :=
  String.toList_injective <| h.sorted.eq_of_mem_iff h'.sorted fun letter =>
    (h.mem_iff letter).trans (h'.mem_iff letter).symm

/-- What is left of a list without repetition has none. -/
theorem nodup_eraseDups {α : Type} [BEq α] [LawfulBEq α] (items : List α) :
    items.eraseDups.Nodup := by
  match items with
  | [] => exact List.nodup_nil
  | item :: rest =>
    rw [List.eraseDups_cons]
    refine List.nodup_cons.mpr ⟨?_, nodup_eraseDups _⟩
    simp [List.mem_eraseDups]
  termination_by items.length
  decreasing_by
    have hlength := List.length_filter_le (fun other => !other == item) rest
    rw [List.length_cons]
    omega

/-- Arranged letters are the letters, once each and in the order of their units. -/
theorem exists_arranged (letters : List Char) : ∃ arranged : List Char,
    (arrange (letters.map String.singleton)).toList = arranged ∧
      (∀ letter, letter ∈ arranged ↔ letter ∈ letters) ∧ arranged.Nodup ∧
      arranged.Pairwise fun a b => Text.unitLe (String.singleton a) (String.singleton b) = true := by
  have hperm := List.mergeSort_perm (letters.map String.singleton).eraseDups Text.unitLe
  have hsorted := List.pairwise_mergeSort Text.unitLe_trans Text.unitLe_total
    (letters.map String.singleton).eraseDups
  have hnodup := hperm.nodup_iff.mpr (nodup_eraseDups _)
  have hmem (text : String) :
      text ∈ (letters.map String.singleton).eraseDups.mergeSort Text.unitLe ↔
        ∃ letter ∈ letters, String.singleton letter = text := by
    rw [hperm.mem_iff, List.mem_eraseDups, List.mem_map]
  obtain ⟨arranged, harranged⟩ : ∃ arranged : List Char, arranged.map String.singleton =
      (letters.map String.singleton).eraseDups.mergeSort Text.unitLe := by
    rw [← Set.mem_range, Set.range_list_map]
    intro text htext
    obtain ⟨letter, -, rfl⟩ := (hmem text).mp htext
    exact ⟨letter, rfl⟩
  rw [← harranged] at hsorted hnodup
  refine ⟨arranged, ?_, ?_, hnodup.of_map _, List.pairwise_map.mp hsorted⟩
  · unfold arrange
    rw [← harranged, String.toList_join]
    simp [List.flatMap_map]
  · intro letter
    have hletter := hmem (String.singleton letter)
    rw [← harranged] at hletter
    simpa [String.singleton_inj] using hletter

/-- Arranging letters spells them. -/
theorem spells_arrange {letters : List Char} (h : ∀ letter ∈ letters, letter.toNat < 0x10000) :
    Spells {letter | letter ∈ letters} (arrange (letters.map String.singleton)) := by
  obtain ⟨arranged, htext, hmem, hnodup, hsorted⟩ := exists_arranged letters
  refine ⟨fun letter => by rw [htext]; exact hmem letter, ?_⟩
  rw [htext]
  refine (hnodup.and hsorted).imp_of_mem ?_
  rintro a b ha hb ⟨hne, hle⟩
  rw [Text.unitLe_singleton (h a ((hmem a).mp ha)) (h b ((hmem b).mp hb))] at hle
  exact lt_of_le_of_ne hle hne

/-- Letters that are in order stay as they are. -/
theorem arrange_map_singleton {letters : List Char} (hsorted : letters.Pairwise (· < ·))
    (h : ∀ letter ∈ letters, letter.toNat < 0x10000) :
    arrange (letters.map String.singleton) = String.ofList letters := by
  refine (spells_arrange h).eq ⟨fun letter => ?_, ?_⟩
  · rw [String.toList_ofList]
    rfl
  · rw [String.toList_ofList]
    exact hsorted

/-- Merging letters spells the union. -/
theorem Spells.merge {letters : Set Char} {text : String} (h : Spells letters text)
    {added : List Char} (hletters : ∀ letter ∈ letters, letter.toNat < 0x10000)
    (hadded : ∀ letter ∈ added, letter.toNat < 0x10000) :
    Spells (letters ∪ {letter | letter ∈ added})
      (merge text (added.map String.singleton)) := by
  have hall : ∀ letter ∈ text.toList ++ added, letter.toNat < 0x10000 := by
    intro letter hletter
    rcases List.mem_append.mp hletter with htext | hadd
    · exact hletters letter ((h.mem_iff letter).mp htext)
    · exact hadded letter hadd
  have hunion : letters ∪ {letter | letter ∈ added} =
      {letter | letter ∈ text.toList ++ added} := by
    ext letter
    simp [h.mem_iff]
  unfold Capability.merge lettersOf
  rw [hunion, ← List.map_append]
  exact spells_arrange hall

/-- Merging letters loses none. -/
theorem subset_merge (text : String) (added : List Char) :
    text.toList ⊆ (merge text (added.map String.singleton)).toList := by
  obtain ⟨arranged, htext, hmem, -, -⟩ := exists_arranged (text.toList ++ added)
  intro letter hletter
  have hmerge : merge text (added.map String.singleton) =
      arrange ((text.toList ++ added).map String.singleton) := by
    rw [merge, lettersOf, List.map_append]
  rw [hmerge, htext, hmem]
  exact List.mem_append_left _ hletter

/-- A text without a `+` is its own letters. -/
theorem own_eq_self {text : String} (h : '+' ∉ text.toList) : own text = text := by
  unfold own
  rw [List.takeWhile_eq_self_iff.mpr, String.ofList_toList]
  intro letter hletter
  simp only [bne_iff_ne, ne_eq]
  rintro rfl
  exact h hletter

/-! ## Key flags -/

/-- Key flags grant a letter. -/
inductive Grants (flags : UInt8) : (letter : Char) → Prop
  /-- The first bit is to certify. -/
  | certify : flags &&& 0x01 ≠ 0 → Grants flags 'c'
  /-- The second bit is to sign. -/
  | sign : flags &&& 0x02 ≠ 0 → Grants flags 's'
  /-- The third bit is to encrypt communications. -/
  | encryptCommunications : flags &&& 0x04 ≠ 0 → Grants flags 'e'
  /-- The fourth bit is to encrypt storage. -/
  | encryptStorage : flags &&& 0x08 ≠ 0 → Grants flags 'e'
  /-- The sixth bit is to authenticate. -/
  | authenticate : flags &&& 0x20 ≠ 0 → Grants flags 'a'

/-- The letters granted are those that the bits stand for. -/
theorem mem_granted_iff (flags : UInt8) (letter : Char) :
    letter ∈ granted flags.toNat ↔ Grants flags letter := by
  have hbit (mask : UInt8) : flags.toNat &&& mask.toNat = 0 ↔ flags &&& mask = 0 := by
    rw [← UInt8.toNat_and, ← UInt8.toNat_inj]
    rfl
  have hencrypt : flags.toNat &&& 0x0C = 0 ↔ flags &&& 0x04 = 0 ∧ flags &&& 0x08 = 0 := by
    rw [← hbit, ← hbit, show 0x0C = (0x04 : UInt8).toNat ||| (0x08 : UInt8).toNat from rfl,
      Nat.and_or_distrib_left, Nat.or_eq_zero_iff]
  have hgranted : letter ∈ granted flags.toNat ↔
      (flags &&& 0x01 ≠ 0 ∧ letter = 'c') ∨ (flags &&& 0x02 ≠ 0 ∧ letter = 's') ∨
        (¬ (flags &&& 0x04 = 0 ∧ flags &&& 0x08 = 0) ∧ letter = 'e') ∨
          (flags &&& 0x20 ≠ 0 ∧ letter = 'a') := by
    rw [← hencrypt, ne_eq, ← hbit 0x01, ne_eq, ← hbit 0x02, ne_eq, ← hbit 0x20]
    simp [granted, List.mem_filterMap, eq_comm]
  rw [hgranted]
  constructor
  · rintro (⟨h, rfl⟩ | ⟨h, rfl⟩ | ⟨h, rfl⟩ | ⟨h, rfl⟩)
    · exact .certify h
    · exact .sign h
    · rcases not_and_or.mp h with h | h
      · exact .encryptCommunications h
      · exact .encryptStorage h
    · exact .authenticate h
  · rintro (h | h | h | h | h)
    · exact .inl ⟨h, rfl⟩
    · exact .inr (.inl ⟨h, rfl⟩)
    · exact .inr (.inr (.inl ⟨fun hnone => h hnone.1, rfl⟩))
    · exact .inr (.inr (.inl ⟨fun hnone => h hnone.2, rfl⟩))
    · exact .inr (.inr (.inr ⟨h, rfl⟩))

/-- A letter that key flags grant is written by one unit and is not a `+`. -/
theorem Grants.lt_and_ne {flags : UInt8} {letter : Char} (h : Grants flags letter) :
    letter.toNat < 0x10000 ∧ letter ≠ '+' := by
  cases h <;> decide

end Capability

end PgpInspect
