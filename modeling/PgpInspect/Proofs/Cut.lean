import Mathlib.Data.List.TakeWhile

/-!
# Cutting a list in front of some of its items

A list is cut in front of every item that opens a block. `pieces` has the items in front of the
first such item, and then the blocks, each from one such item up to the next. The pieces in order
are the list again, and a change to one item that leaves alone whether it opens a block changes one
piece only.
-/

namespace PgpInspect.Cut

variable {α β : Type} (opens : α → Bool)

/-- The items in front of the first that opens a block. -/
def lead (items : List α) : List α := items.takeWhile fun item => !opens item

/-- The blocks: every item that opens one, with the items behind it that open none. -/
def blocks : (items : List α) → List (List α)
  | [] => []
  | item :: rest => if opens item then (item :: lead opens rest) :: blocks rest else blocks rest

/-- The items in front of the first block, and the blocks. -/
def pieces (items : List α) : List (List α) := lead opens items :: blocks opens items

/-- The pieces of a list with one item more in front. -/
theorem pieces_cons (item : α) (rest : List α) :
    pieces opens (item :: rest) =
      if opens item then [] :: (item :: lead opens rest) :: blocks opens rest
      else (item :: lead opens rest) :: blocks opens rest := by
  cases h : opens item <;> simp [pieces, lead, blocks, h]

/-- The pieces in order are the list. -/
theorem flatten_pieces (items : List α) : (pieces opens items).flatten = items := by
  induction items with
  | nil => rfl
  | cons item rest ih =>
    have hrest : lead opens rest ++ (blocks opens rest).flatten = rest := ih
    rw [pieces_cons]
    cases opens item <;> simp [hrest]

/-- No item in front of the first block opens one. -/
theorem not_opens_of_mem_lead {items : List α} {item : α} (h : item ∈ lead opens items) :
    opens item = false := by
  have hitem := List.mem_takeWhile_imp h
  simpa using hitem

/-- A block begins with the one item of it that opens a block. -/
theorem exists_of_mem_blocks {items block : List α} (h : block ∈ blocks opens items) :
    ∃ item rest, block = item :: rest ∧ opens item = true ∧ ∀ other ∈ rest, opens other = false := by
  induction items with
  | nil => simp [blocks] at h
  | cons item rest ih =>
    rw [blocks] at h
    split at h
    · next hopens =>
      rcases List.mem_cons.mp h with rfl | h
      · exact ⟨item, lead opens rest, rfl, hopens, fun _ => not_opens_of_mem_lead opens⟩
      · exact ih h
    · exact ih h

/-- A map that leaves alone which items open a block maps the pieces. -/
theorem pieces_map {opens' : β → Bool} {f : α → β} (h : ∀ item, opens' (f item) = opens item)
    (items : List α) : pieces opens' (items.map f) = (pieces opens items).map (List.map f) := by
  induction items with
  | nil => rfl
  | cons item rest ih =>
    rw [pieces, pieces, List.map_cons, List.cons.injEq] at ih
    rw [List.map_cons, pieces_cons, pieces_cons, h, ih.1, ih.2]
    cases opens item <;> simp

/-- The number of the piece of the item at a position: as many items up to it open a block. -/
def pieceIndex (items : List α) (position : Nat) : Nat :=
  (items.take (position + 1)).countP opens

/-- There is one block for every item that opens one. -/
theorem length_blocks (items : List α) : (blocks opens items).length = items.countP opens := by
  induction items with
  | nil => rfl
  | cons item rest ih => cases h : opens item <;> simp [blocks, h, ih]

/-- Every position has its piece. -/
theorem pieceIndex_lt_length (items : List α) (position : Nat) :
    pieceIndex opens items position < (pieces opens items).length := by
  have hle : pieceIndex opens items position ≤ items.countP opens :=
    List.Sublist.countP_le (List.take_sublist _ _)
  rw [pieces, List.length_cons, length_blocks]
  omega

/-- A change to one item that leaves alone whether it opens a block changes its piece only. -/
theorem pieces_modify {f : α → α} (h : ∀ item, opens (f item) = opens item) (items : List α)
    (position : Nat) : ∃ piece, pieces opens (items.modify position f) =
      (pieces opens items).set (pieceIndex opens items position) piece := by
  induction items generalizing position with
  | nil => exact ⟨[], by simp [pieces, lead, blocks, pieceIndex]⟩
  | cons item rest ih =>
    cases position with
    | zero =>
      refine ⟨f item :: lead opens rest, ?_⟩
      rw [List.modify_zero_cons, pieces_cons, pieces_cons, h]
      cases hopens : opens item <;> simp [pieceIndex, hopens]
    | succ position =>
      obtain ⟨piece, hpiece⟩ := ih position
      rw [List.modify_succ_cons, pieces_cons, pieces_cons]
      have hindex : pieceIndex opens (item :: rest) (position + 1) =
          pieceIndex opens rest position + (if opens item then 1 else 0) := by
        rw [pieceIndex, List.take_succ_cons, List.countP_cons, pieceIndex]
      rw [hindex]
      rw [pieces, pieces] at hpiece
      -- Whether the changed item is in front of the first block of `rest` or in a block of it.
      cases hcount : pieceIndex opens rest position with
      | zero =>
        rw [hcount, List.set_cons_zero, List.cons.injEq] at hpiece
        refine ⟨item :: piece, ?_⟩
        rw [hpiece.1, hpiece.2]
        cases opens item <;> simp
      | succ count =>
        rw [hcount, List.set_cons_succ, List.cons.injEq] at hpiece
        refine ⟨piece, ?_⟩
        rw [hpiece.1, hpiece.2]
        cases opens item <;> simp

end PgpInspect.Cut
