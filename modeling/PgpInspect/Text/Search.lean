/-!
# Looking for a part of a text

A part occurs in a text if it begins at one of its positions. Of several occurrences the first one
counts.
-/

namespace PgpInspect.Text

/-- Whether `part` occurs in `text`. -/
def occursIn (part : List Char) : (text : List Char) → Bool
  | [] => part.isEmpty
  | c :: rest => part.isPrefixOf (c :: rest) || occursIn part rest

/-- The text in front of the first occurrence of `part`, if it occurs. -/
def before? (part : List Char) : (text : List Char) → Option (List Char)
  | [] => if part.isEmpty then some [] else none
  | c :: rest =>
    if part.isPrefixOf (c :: rest) then some []
    else (before? part rest).map (c :: ·)

/-- A part occurs in a text if the text has it between two others. -/
theorem occursIn_iff (part text : List Char) : occursIn part text = true ↔ part <:+: text := by
  induction text with
  | nil => rw [occursIn, List.isEmpty_iff, List.infix_nil]
  | cons c rest ih =>
    rw [occursIn, Bool.or_eq_true, List.isPrefixOf_iff_prefix, ih, List.infix_cons_iff]

end PgpInspect.Text
