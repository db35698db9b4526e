import PgpInspect.Proofs.Key.Usage
import PgpInspect.Schema.Pattern

/-!
# The language of capability texts

Key flags grant letters out of four, so what a key of a stream shows is made of these letters, and
behind a `+` of at least one of them (`Capability.IsText`). This is the language that replies
declare for capabilities (`Pattern.isCapabilities_iff`), and that the derivation stays in
(`Ownership.isText_derive`).
-/

namespace PgpInspect

namespace Capability

/-- The letters of what a key may be used for. -/
def letters : List Char := ['a', 'c', 's', 'e']

/-- Letters, and perhaps a `+` and at least one letter more. -/
inductive IsText : (text : List Char) → Prop
  /-- Nothing is inherited. -/
  | alone {own : List Char} : own ⊆ letters → IsText own
  /-- Something is inherited. -/
  | inheriting {own inherited : List Char} : own ⊆ letters → inherited ≠ [] → inherited ⊆ letters →
      IsText (own ++ '+' :: inherited)

/-- The characters of a capability text are letters and `+`. -/
theorem IsText.subset {text : List Char} (h : IsText text) : text ⊆ '+' :: letters := by
  cases h with
  | alone hown => exact List.subset_cons_of_subset _ hown
  | inheriting hown _ hinherited =>
    apply List.append_subset.mpr
    exact ⟨List.subset_cons_of_subset _ hown, List.cons_subset_cons _ hinherited⟩

/-- Key flags grant letters only. -/
theorem Grants.mem_letters {flags : UInt8} {letter : Char} (h : Grants flags letter) :
    letter ∈ letters := by
  cases h <;> decide

variable {own inherited : Set Char} {text : String}

/-- A set of letters is spelled by letters. -/
theorem Spells.subset (h : Spells own text) (hown : ∀ letter ∈ own, letter ∈ letters) :
    text.toList ⊆ letters := fun letter hletter => hown letter ((h.mem_iff letter).mp hletter)

/-- Own and inherited letters are shown as a capability text. -/
theorem Shows.isText (h : Shows own inherited text) (hown : ∀ letter ∈ own, letter ∈ letters)
    (hinherited : ∀ letter ∈ inherited, letter ∈ letters) : IsText text.toList := by
  cases h with
  | alone _ hspells => exact .alone (hspells.subset hown)
  | @inheriting front back hnonempty hfront hback =>
    -- There is a letter behind the `+`, since it is written only if something is inherited.
    have hne : back.toList ≠ [] := by
      obtain ⟨letter, hletter⟩ := hnonempty
      exact List.ne_nil_of_mem ((hback.mem_iff letter).mpr hletter)
    have htext : (front ++ "+" ++ back).toList = front.toList ++ '+' :: back.toList := by simp
    rw [htext]
    exact .inheriting (hfront.subset hown) hne (hback.subset hinherited)

end Capability

namespace Pattern

open Capability (letters IsText)

/-- The letters of the pattern are the capability letters. -/
theorem isCapability_iff (c : Char) : isCapability c = true ↔ c ∈ letters := by
  simp [isCapability, letters, or_assoc]

/-- Letters alone, or letters in front of a `+` and at least one letter behind it. -/
theorem isCapabilities_iff (text : List Char) : isCapabilities text = true ↔ IsText text := by
  have hfront : text.takeWhile isCapability ⊆ letters := fun c hc =>
    (isCapability_iff c).mp (List.mem_takeWhile_imp hc)
  -- The letters in front are passed over up to the `+`, which is none of them.
  have hstop {front rest : List Char} (h : front ⊆ letters) :
      (front ++ '+' :: rest).dropWhile isCapability = '+' :: rest := by
    rw [List.dropWhile_append_of_pos fun c hc => (isCapability_iff c).mpr (h hc)]
    rfl
  have htext := List.takeWhile_append_dropWhile (p := isCapability) (l := text)
  constructor
  · intro h
    unfold isCapabilities at h
    split at h
    · next hrest =>
      rw [hrest, List.append_nil] at htext
      rw [← htext]
      exact .alone hfront
    · next back hrest =>
      rw [Bool.and_eq_true, List.all_eq_true] at h
      rw [hrest] at htext
      rw [← htext]
      refine .inheriting hfront (by simpa using h.1) fun c hc => ?_
      exact (isCapability_iff c).mp (h.2 c hc)
    · cases h
  · intro h
    unfold isCapabilities
    cases h with
    | alone hown =>
      have hrest : text.dropWhile isCapability = [] := by
        rw [List.dropWhile_eq_nil_iff]
        exact fun c hc => (isCapability_iff c).mpr (hown hc)
      rw [hrest]
    | @inheriting own inherited hown hne hinherited =>
      rw [hstop hown]
      show (!inherited.isEmpty && inherited.all isCapability) = true
      rw [Bool.and_eq_true, List.all_eq_true]
      exact ⟨by simpa using hne, fun c hc => (isCapability_iff c).mpr (hinherited hc)⟩

end Pattern

namespace Ownership

variable {records : List PacketRecord} {place : PublicKey × Nat}

/-- The letters of the key at a position are capability letters. -/
theorem mem_letters_of_mem_ownLetters {letter : Char} (h : letter ∈ ownLetters records place) :
    letter ∈ Capability.letters := by
  obtain ⟨_, _, _, _, _, hgrants⟩ := h
  exact hgrants.mem_letters

/-- So are those of unexpired subkeys. -/
theorem mem_letters_of_mem_unexpiredLetters {subkeys : List Key} {now : Binary64} {letter : Char}
    (h : letter ∈ unexpiredLetters records place subkeys now) : letter ∈ Capability.letters := by
  obtain ⟨_, _, _, hletter⟩ := h
  exact mem_letters_of_mem_ownLetters hletter

/-- The key at a position shows a capability text. -/
theorem isText_signedKey (records : List PacketRecord) (place : PublicKey × Nat) :
    Capability.IsText (signedKey records place).capabilities.toList :=
  .alone ((spells_signedKey records place).subset fun _ => mem_letters_of_mem_ownLetters)

/-- A primary key shows a capability text after the derivation. -/
theorem isText_derive (records : List PacketRecord) (place : PublicKey × Nat) (now : Binary64)
    (claim : Option IdentityClaim) :
    Capability.IsText ((primaryKey records place).derive now claim).capabilities.toList := by
  rw [Key.capabilities_derive]
  exact (shows_inheritCapabilities records place now).isText
    (fun _ => mem_letters_of_mem_ownLetters) (fun _ => mem_letters_of_mem_unexpiredLetters)

end Ownership

end PgpInspect
