import Mathlib.Data.List.DropRight
import Mathlib.Data.List.TakeWhile
import PgpInspect.Text.Blank

/-!
# Trimming

A text is trimmed if neither its first nor its last character is blank (`Text.IsTrimmed`). Trimming
takes blanks off both ends of a text and nothing else (`Text.exists_trim_eq`), and the texts that it
leaves as they are, are the trimmed ones (`Text.trim_eq_self_iff`).
-/

namespace PgpInspect.Text

variable {text : List Char}

/-! ## One end -/

/-- A text is blanks and what is left of it without those in front. -/
theorem exists_trimStart_eq (text : List Char) :
    ∃ blanks, text = blanks ++ trimStart text ∧ ∀ c ∈ blanks, isBlank c = true :=
  ⟨text.takeWhile isBlank, List.takeWhile_append_dropWhile.symm, fun _ => List.mem_takeWhile_imp⟩

/-- A text is what is left of it without the blanks at its end, and blanks. -/
theorem exists_trimEnd_eq (text : List Char) :
    ∃ blanks, text = trimEnd text ++ blanks ∧ ∀ c ∈ blanks, isBlank c = true :=
  ⟨text.rtakeWhile isBlank, List.rdropWhile_append_rtakeWhile.symm,
    fun _ => List.mem_rtakeWhile_imp⟩

/-- Nothing is trimmed in front of a text whose first character is not blank. -/
theorem trimStart_eq_self_iff :
    trimStart text = text ↔ ∀ c ∈ text.head?, isBlank c = false := by
  unfold trimStart
  cases text with
  | nil => simp
  | cons c rest =>
    rw [List.dropWhile_eq_self_iff]
    simp

/-- Nothing is trimmed at the end of a text whose last character is not blank. -/
theorem trimEnd_eq_self_iff :
    trimEnd text = text ↔ ∀ c ∈ text.getLast?, isBlank c = false := by
  show text.rdropWhile isBlank = text ↔ _
  rw [List.rdropWhile_eq_self_iff]
  cases text using List.reverseRecOn <;> simp

/-- The first character that is left without the blanks in front is not blank. -/
theorem isBlank_eq_false_of_mem_head?_trimStart {c : Char} (h : c ∈ (trimStart text).head?) :
    isBlank c = false :=
  trimStart_eq_self_iff.mp (List.dropWhile_idempotent isBlank text) c h

/-- The last character that is left without the blanks at the end is not blank. -/
theorem isBlank_eq_false_of_mem_getLast?_trimEnd {c : Char} (h : c ∈ (trimEnd text).getLast?) :
    isBlank c = false :=
  trimEnd_eq_self_iff.mp (List.rdropWhile_idempotent isBlank text) c h

/-- A text that ends in a character that is not blank. -/
theorem isBlank_eq_false_of_mem_getLast?_concat {last c : Char} (h : isBlank last = false)
    (hc : c ∈ (text ++ [last]).getLast?) : isBlank c = false := by
  rw [List.getLast?_concat, Option.mem_some_iff] at hc
  rw [← hc]
  exact h

/-- Blanks behind a text are trimmed. -/
theorem trimEnd_append_blanks {blanks : List Char} (h : ∀ c ∈ blanks, isBlank c = true)
    (text : List Char) : trimEnd (text ++ blanks) = trimEnd text := by
  unfold trimEnd
  rw [List.reverse_append, List.dropWhile_append_of_pos fun c hc => h c (List.mem_reverse.mp hc)]

/-- What ends in a character that is not blank is not trimmed at its end. -/
theorem trimEnd_append {last : Char} (h : isBlank last = false) (front text : List Char) :
    trimEnd (front ++ last :: text) = front ++ last :: trimEnd text := by
  have hreverse : (front ++ last :: text).reverse = text.reverse ++ last :: front.reverse := by simp
  have hlast : (last :: front.reverse).dropWhile isBlank = last :: front.reverse :=
    List.dropWhile_cons_of_neg (by simp [h])
  unfold trimEnd
  rw [hreverse, List.dropWhile_append, hlast]
  -- Read from the end, nothing is dropped beyond `last`, even if all of `text` is.
  split
  · next hnone =>
    rw [List.isEmpty_iff.mp hnone]
    simp
  · simp

/-! ## Both ends -/

/-- A text whose first and last characters are not blank. -/
structure IsTrimmed (text : List Char) : Prop where
  /-- The first character is not blank. -/
  head : ∀ c ∈ text.head?, isBlank c = false
  /-- The last character is not blank. -/
  last : ∀ c ∈ text.getLast?, isBlank c = false

/-- A text is what is left of it without the blanks around it, and these. -/
theorem exists_trim_eq (text : List Char) : ∃ before after, text = before ++ trim text ++ after ∧
    (∀ c ∈ before, isBlank c = true) ∧ ∀ c ∈ after, isBlank c = true := by
  obtain ⟨before, hbefore, hfront⟩ := exists_trimStart_eq text
  obtain ⟨after, hafter, hback⟩ := exists_trimEnd_eq (trimStart text)
  refine ⟨before, after, ?_, hfront, hback⟩
  rw [List.append_assoc, trim, ← hafter, ← hbefore]

/-- Blanks around a text are trimmed. -/
theorem trim_append_blanks {before after : List Char} (hbefore : ∀ c ∈ before, isBlank c = true)
    (hafter : ∀ c ∈ after, isBlank c = true) (text : List Char) :
    trim (before ++ text ++ after) = trim text := by
  have hstart : trimStart (before ++ text ++ after) = trimStart (text ++ after) := by
    unfold trimStart
    rw [List.append_assoc, List.dropWhile_append_of_pos hbefore]
  unfold trim
  rw [hstart]
  unfold trimStart
  rw [List.dropWhile_append]
  -- If all of the text is blank, the blanks behind it are dropped as if they were in front.
  split
  · next hnone =>
    rw [List.isEmpty_iff.mp hnone, List.dropWhile_eq_nil_iff.mpr hafter]
  · exact trimEnd_append_blanks hafter _

/-- Trimming at the end is part of trimming. -/
theorem trim_trimEnd (text : List Char) : trim (trimEnd text) = trim text := by
  obtain ⟨blanks, htext, hblanks⟩ := exists_trimEnd_eq text
  have htrim := trim_append_blanks (List.forall_mem_nil _) hblanks (trimEnd text)
  rw [List.nil_append, ← htext] at htrim
  exact htrim.symm

/-- What is left without the blanks around a text is in it. -/
theorem mem_of_mem_trim {c : Char} (h : c ∈ trim text) : c ∈ text := by
  obtain ⟨before, after, htext, -, -⟩ := exists_trim_eq text
  rw [htext]
  exact List.mem_append_left _ (List.mem_append_right _ h)

/-- Trimming leaves a trimmed text. -/
theorem isTrimmed_trim (text : List Char) : IsTrimmed (trim text) where
  head c hc := by
    -- What is trimmed at the end has the same first character, if there is one left.
    obtain ⟨blanks, hblanks, -⟩ := exists_trimEnd_eq (trimStart text)
    have hfirst : (trimEnd (trimStart text)).head? = some c := hc
    apply isBlank_eq_false_of_mem_head?_trimStart
    rw [hblanks, List.head?_append, hfirst]
    rfl
  last _ := isBlank_eq_false_of_mem_getLast?_trimEnd

/-- The texts that trimming leaves as they are, are the trimmed ones. -/
theorem trim_eq_self_iff : trim text = text ↔ IsTrimmed text := by
  constructor
  · intro h
    rw [← h]
    exact isTrimmed_trim text
  · intro h
    rw [trim, trimStart_eq_self_iff.mpr h.head, trimEnd_eq_self_iff.mpr h.last]

/-- The empty text is trimmed. -/
theorem isTrimmed_nil : IsTrimmed [] := ⟨nofun, nofun⟩

/-- A text without blanks is trimmed. -/
theorem isTrimmed_of_forall (h : ∀ c ∈ text, isBlank c = false) : IsTrimmed text :=
  ⟨fun c hc => h c (List.mem_of_mem_head? hc), fun c hc => h c (List.mem_of_mem_getLast? hc)⟩

/-- A text without blanks stays as it is. -/
theorem trim_eq_self (h : ∀ c ∈ text, isBlank c = false) : trim text = text :=
  trim_eq_self_iff.mpr (isTrimmed_of_forall h)

/-! ## No blanks at all -/

/-- Blanks in front are blanks. -/
theorem withoutBlanks_trimStart (text : List Char) :
    withoutBlanks (trimStart text) = withoutBlanks text := by
  have hfront : (text.takeWhile isBlank).filter (fun c => !isBlank c) = [] := by
    rw [List.filter_eq_nil_iff]
    exact fun c hc => by simp [List.mem_takeWhile_imp hc]
  calc withoutBlanks (trimStart text)
      = (text.takeWhile isBlank).filter (fun c => !isBlank c) ++
          (text.dropWhile isBlank).filter (fun c => !isBlank c) := by rw [hfront]; rfl
    _ = withoutBlanks text := by
      rw [← List.filter_append, List.takeWhile_append_dropWhile]
      rfl

/-- Blanks at the end are blanks. -/
theorem withoutBlanks_trimEnd (text : List Char) :
    withoutBlanks (trimEnd text) = withoutBlanks text := by
  have hreverse (text : List Char) : withoutBlanks text.reverse = (withoutBlanks text).reverse :=
    List.filter_reverse
  calc withoutBlanks (trimEnd text)
      = (withoutBlanks (trimStart text.reverse)).reverse := hreverse _
    _ = withoutBlanks text := by
      rw [withoutBlanks_trimStart, hreverse, List.reverse_reverse]

/-- Trimming takes blanks only. -/
theorem withoutBlanks_trim (text : List Char) : withoutBlanks (trim text) = withoutBlanks text := by
  rw [trim, withoutBlanks_trimEnd, withoutBlanks_trimStart]

end PgpInspect.Text
