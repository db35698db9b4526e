/-!
# Splitting text

A text with a separator between its parts. There is always one part more than there are separators,
and putting the separators back gives the text (`Text.join_split`).
-/

namespace PgpInspect.Text

/-- The parts of a text between separators. -/
def split (separator : Char) : (text : List Char) → List (List Char)
  | [] => [[]]
  | c :: rest =>
    if c = separator then [] :: split separator rest
    else
      match split separator rest with
      | part :: more => (c :: part) :: more
      | [] => [[c]]

/-- Parts with a separator between. -/
def join (separator : Char) : (parts : List (List Char)) → List Char
  | [] => []
  | [part] => part
  | part :: rest => part ++ separator :: join separator rest

/-- A text has at least one part. -/
theorem split_ne_nil (separator : Char) (text : List Char) : split separator text ≠ [] := by
  cases text with
  | nil => simp [split]
  | cons c rest =>
    rw [split]
    split
    · simp
    · split <;> simp

/-- The parts of a text with the separators between them are the text. -/
theorem join_split (separator : Char) (text : List Char) :
    join separator (split separator text) = text := by
  induction text with
  | nil => rfl
  | cons c rest ih =>
    rw [split]
    cases hs : split separator rest with
    | nil => exact absurd hs (split_ne_nil separator rest)
    | cons part more =>
      rw [hs] at ih
      split
      · next h => rw [← ih]; simp [join, h]
      · rw [← ih]; cases more <;> simp [join]

end PgpInspect.Text
