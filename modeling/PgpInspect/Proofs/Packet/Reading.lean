import Mathlib.Data.Rat.Floor
import PgpInspect.Packet.Cursor
import PgpInspect.Proofs.Octets

/-!
# What a reading step reads

Between whole octets a step is settled by the octets that it consumes: what stands behind them, the
tag of the packet and the place in the body change nothing (`Reading.Reads`). A reader made of such
steps is again of this kind, and what is known of the value of one step may be used for the steps
behind it (`Reading.Settled`), so that both are proved along the text of a reader.
-/

namespace PgpInspect

/-- A whole number of octets is kept as it is. -/
theorem Cursor.measure_natCast (n : Nat) : Cursor.measure (n : Rat) = (n : Rat) := by
  unfold measure
  exact if_pos (Rat.den_natCast n)

/-- Between whole octets, as many octets are in front of the place as were read. -/
theorem Cursor.offset_whole (tag : Binary64) (position : Nat) (rest : Octets) :
    Cursor.offset ⟨tag, position, rest, 0⟩ = (position : Rat) := by
  simp [Cursor.offset]

/-- Between whole octets, as many octets are after the place as were not read. -/
theorem Cursor.remaining_whole (tag : Binary64) (position : Nat) (rest : Octets) :
    Cursor.remaining ⟨tag, position, rest, 0⟩ = (rest.length : Rat) := by
  have hdifference : ((position + rest.length : Nat) : Rat) - position = rest.length := by
    push_cast
    ring
  unfold Cursor.remaining
  rw [Cursor.offset_whole, Cursor.total, hdifference, Cursor.measure_natCast]

/-- A cursor moves over a whole number of octets. -/
theorem Cursor.moveTo_add (tag : Binary64) (position : Nat) (rest : Octets) (length : Nat) :
    Cursor.moveTo ⟨tag, position, rest, 0⟩ ((position + length : Nat) : Rat) =
      (rest.take length, ⟨tag, position + length, rest.drop length, 0⟩) := by
  have hfloor : ((position + length : Nat) : Rat).floor = ((position + length : Nat) : Int) :=
    Rat.floor_intCast _
  have hcount : ((position + length : Nat) : Rat).floor.toNat - position = length := by
    rw [hfloor]
    omega
  unfold moveTo
  simp only [hcount, sub_self]

namespace Reading

variable {α β : Type}

/-! ## One step -/

/-- A step that reads nothing. -/
theorem runAt_pure (value : α) (cursor : Cursor) :
    runAt (pure value) cursor = (.ok value, cursor) := rfl

/-- A step that fails. -/
theorem runAt_fail (cause : FieldCause) (cursor : Cursor) :
    runAt (fail cause : Reading α) cursor = (.error ⟨cursor.tag, cause⟩, cursor) := rfl

/-- A step and what follows it. -/
theorem runAt_bind (reading : Reading α) (next : α → Reading β) (cursor : Cursor) :
    runAt (reading >>= next) cursor =
      match runAt reading cursor with
      | (.ok value, cursor) => runAt (next value) cursor
      | (.error fault, cursor) => (.error fault, cursor) := by
  unfold runAt ExceptT.run StateT.run
  simp only [bind, ExceptT.bind, ExceptT.mk, StateT.bind]
  cases reading cursor with
  | mk outcome after => cases outcome <;> rfl

/-- The state of a step is its cursor. -/
theorem runAt_get_bind (next : Cursor → Reading α) (cursor : Cursor) :
    runAt (get >>= next) cursor = runAt (next cursor) cursor := rfl

/-- Octets are read if there are as many. Otherwise the cursor stays. -/
theorem runAt_bytes (tag : Binary64) (position : Nat) (rest : Octets) (length : Nat)
    (field : String) :
    runAt (bytes (length : Int) field) ⟨tag, position, rest, 0⟩ =
      if length ≤ rest.length then
        (.ok (rest.take length), ⟨tag, position + length, rest.drop length, 0⟩)
      else
        (.error ⟨tag, .truncated field position (length : Binary64) rest.length⟩,
          ⟨tag, position, rest, 0⟩) := by
  have hplace : Cursor.measure (position + ((length : Int) : Rat)) =
      ((position + length : Nat) : Rat) := by
    have hsum : (position : Rat) + ((length : Int) : Rat) = ((position + length : Nat) : Rat) := by
      push_cast
      rfl
    rw [hsum, Cursor.measure_natCast]
  unfold bytes portion
  rw [runAt_get_bind]
  dsimp only
  show runAt (if _ then _ else _) _ = _
  rw [Cursor.offset_whole, hplace, Cursor.remaining_whole]
  by_cases h : length ≤ rest.length
  · have hinside : ¬ (((length : Int) : Rat) < 0 ∨
        ((Cursor.total ⟨tag, position, rest, 0⟩ : Nat) : Rat) < ((position + length : Nat) : Rat)) := by
      rw [Rat.natCast_lt_natCast, Cursor.total]
      simp
      omega
    rw [if_neg hinside, if_pos h, Cursor.moveTo_add]
    rfl
  · have houtside : ((Cursor.total ⟨tag, position, rest, 0⟩ : Nat) : Rat) <
        ((position + length : Nat) : Rat) := by
      rw [Rat.natCast_lt_natCast, Cursor.total]
      dsimp only
      omega
    rw [if_pos (.inr houtside), if_neg h]
    rfl

/-! ## Readers -/

/-- A reader takes `value` from `octets`, whatever stands behind them, in a packet of any tag and at
any place of its body. -/
def Reads (reading : Reading α) (octets : Octets) (value : α) : Prop :=
  ∀ tag position rest, runAt reading ⟨tag, position, octets ++ rest, 0⟩ =
    (.ok value, ⟨tag, position + octets.length, rest, 0⟩)

/-- Wherever a reader succeeds, it takes its value from the next octets, and the value satisfies
`post`. -/
def Settled (reading : Reading α) (post : α → Prop) : Prop :=
  ∀ tag position rest value after,
    runAt reading ⟨tag, position, rest, 0⟩ = (.ok value, after) →
      post value ∧ ∃ octets behind, rest = octets ++ behind ∧ Reads reading octets value

variable {reading : Reading α} {next : α → Reading β} {post : α → Prop} {post' : β → Prop}

/-- Nothing has to be read for a value that is there. -/
theorem Reads.pure (value : α) : Reads (pure value) [] value :=
  fun tag position rest => runAt_pure value ⟨tag, position, rest, 0⟩

/-- Readers one after the other read octets one after the other. -/
theorem Reads.bind {octets octets' : Octets} {value : α} {value' : β}
    (h : Reads reading octets value) (h' : Reads (next value) octets' value') :
    Reads (reading >>= next) (octets ++ octets') value' := by
  intro tag position rest
  rw [List.append_assoc, runAt_bind, h tag position (octets' ++ rest)]
  dsimp only
  rw [h' tag (position + octets.length) rest, List.length_append, Nat.add_assoc]

/-- Octets are read as they are. -/
theorem Reads.bytes (octets : Octets) (field : String) :
    Reads (bytes (octets.length : Int) field) octets octets := by
  intro tag position rest
  have hle : octets.length ≤ (octets ++ rest).length := by
    rw [List.length_append]
    omega
  rw [runAt_bytes, if_pos hle, List.take_left, List.drop_left]

/-- What is made of a value without reading on is read from its octets. -/
theorem Reads.map {octets : Octets} {value : α} (h : Reads reading octets value) (f : α → β) :
    Reads (reading >>= fun value => Pure.pure (f value)) octets (f value) := by
  have hreads : Reads (reading >>= fun value => Pure.pure (f value)) (octets ++ []) (f value) :=
    h.bind (Reads.pure (f value))
  rw [List.append_nil] at hreads
  exact hreads

/-- As many octets as were asked for are read as they are. -/
theorem Reads.bytes_of_length {octets : Octets} {length : Nat} (h : octets.length = length)
    (field : String) : Reads (Reading.bytes (length : Int) field) octets octets := by
  rw [← h]
  exact Reads.bytes octets field

/-- As many octets as a number has are read as the number that they write. -/
theorem Reads.number_toNat {octets : Octets} {width : Nat} (h : octets.length = width)
    (field : String) : Reads (Reading.number width field) octets octets.toNat :=
  (Reads.bytes_of_length h field).map Octets.toNat

/-- A number is read back from its octets. -/
theorem Reads.number {width value : Nat} (h : value < 256 ^ width) (field : String) :
    Reads (Reading.number width field) (Octets.ofNat width value) value := by
  have hreads := Reads.number_toNat (Octets.length_ofNat width value) field
  rw [Octets.toNat_ofNat_of_lt h] at hreads
  exact hreads

/-- A multiprecision integer is read from its bit count and as many octets as hold that many
bits. -/
theorem Reads.mpi {bits : Nat} {octets : Octets} (hbits : bits < 2 ^ 16)
    (hlength : octets.length = (bits + 7) / 8) (field : String) :
    Reads (Reading.mpi field) (Octets.ofNat 2 bits ++ octets) octets :=
  (Reads.number hbits field).bind (Reads.bytes_of_length hlength field)

/-- The cursor of a reader that succeeds stands behind the octets that it reads. -/
theorem Reads.after_eq {tag : Binary64} {position : Nat} {octets behind : Octets} {value : α}
    {outcome : Except FieldFault α} {after : Cursor} (h : Reads reading octets value)
    (hrun : runAt reading ⟨tag, position, octets ++ behind, 0⟩ = (outcome, after)) :
    after = ⟨tag, position + octets.length, behind, 0⟩ := by
  rw [h tag position behind] at hrun
  exact (Prod.mk.inj hrun).2.symm

/-- A value that is there is settled. -/
theorem Settled.pure {value : α} (h : post value) : Settled (pure value) post := by
  intro tag position rest value' after hrun
  cases hrun
  exact ⟨h, [], rest, rfl, .pure value⟩

/-- A reader that never succeeds is settled. -/
theorem Settled.fail (cause : FieldCause) : Settled (fail cause) post := by
  intro tag position rest value after hrun
  rw [runAt_fail] at hrun
  cases hrun

/-- A reader is settled if its first step is and, for each value of that, the others are. -/
theorem Settled.bind (h : Settled reading post) (h' : ∀ value, post value → Settled (next value) post') :
    Settled (reading >>= next) post' := by
  intro tag position rest value' after hrun
  rw [runAt_bind] at hrun
  split at hrun
  · next value middle hfirst =>
    obtain ⟨hvalue, octets, behind, rfl, hreads⟩ := h _ _ _ _ _ hfirst
    obtain rfl := hreads.after_eq hfirst
    obtain ⟨hvalue', octets', behind', rfl, hreads'⟩ := h' value hvalue _ _ _ _ _ hrun
    exact ⟨hvalue', octets ++ octets', behind', (List.append_assoc ..).symm, hreads.bind hreads'⟩
  · cases hrun

/-- A choice between settled readers is settled. -/
theorem Settled.ite {p : Prop} [Decidable p] {other : Reading α} (h : p → Settled reading post)
    (h' : ¬ p → Settled other post) : Settled (if p then reading else other) post := by
  split
  · next hp => exact h hp
  · next hp => exact h' hp

/-- Less may be said of the value of a settled reader. -/
theorem Settled.mono {post' : α → Prop} (h : Settled reading post)
    (hpost : ∀ value, post value → post' value) : Settled reading post' := by
  intro tag position rest value after hrun
  obtain ⟨hvalue, hreads⟩ := h _ _ _ _ _ hrun
  exact ⟨hpost value hvalue, hreads⟩

/-- Octets are settled, and they are as many as were asked for. -/
theorem Settled.bytes (length : Nat) (field : String) :
    Settled (bytes (length : Int) field) fun octets => octets.length = length := by
  intro tag position rest octets after hrun
  rw [runAt_bytes] at hrun
  split at hrun
  · next hle =>
    cases hrun
    have hlength : (rest.take length).length = length := List.length_take_of_le hle
    refine ⟨hlength, rest.take length, rest.drop length, (List.take_append_drop ..).symm, ?_⟩
    have hreads := Reads.bytes (rest.take length) field
    rw [hlength] at hreads
    exact hreads
  · cases hrun

/-- A number is settled, and it is one of so many octets. -/
theorem Settled.number (width : Nat) (field : String) :
    Settled (number width field) (· < 256 ^ width) := by
  refine (Settled.bytes width field).bind fun octets hlength => .pure ?_
  rw [← hlength]
  exact Octets.toNat_lt octets

/-- A multiprecision integer is settled, and its bit count in two octets bounds its length. -/
theorem Settled.mpi (field : String) : Settled (mpi field) fun octets => octets.length ≤ 2 ^ 13 := by
  refine (Settled.number 2 field).bind fun bits hbits => (Settled.bytes _ field).mono ?_
  intro octets hlength
  have hwidth : 256 ^ 2 = 2 ^ 16 := by decide
  omega

end Reading

end PgpInspect
