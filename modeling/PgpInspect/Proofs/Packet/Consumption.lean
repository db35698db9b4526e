import PgpInspect.Proofs.Packet.Reading

/-!
# Steps consume a body from its front

Whatever steps are taken over a body, and whether they succeed or fail, the cursor stands between
whole octets of that body: those in front of it were consumed, in order and without gaps, and those
after it were not (`Cursor.placed`). `Consumes` says of each step what it gives at a place and where
the cursor stands afterwards; it is settled by the body and the place alone. One step is followed in
`consumes_placed`, and any number of them by induction in `exists_placed_after`, since a failing
step leaves a cursor behind like any other.
-/

namespace PgpInspect

/-- A step over a field of a body. -/
inductive FieldStep where
  /-- A number of so many octets: `Reading.u8`, `Reading.u16` and `Reading.u32` are those of one,
  two and four. -/
  | number (width : Nat) (field : String)
  /-- A multiprecision integer. -/
  | mpi (field : String)
  /-- So many octets. -/
  | bytes (length : Int) (field : String)
  /-- All octets that are left. -/
  | rest

/-- What a step reads. -/
inductive FieldValue where
  /-- A number. -/
  | number (value : Nat)
  /-- Octets. -/
  | octets (value : Octets)

/-- The octets of a body from one place up to another. -/
def octetsBetween (body : Octets) (start stop : Nat) : Octets := (body.take stop).drop start

/-- The cursor in a body after so many octets. -/
def Cursor.placed (tag : Binary64) (body : Octets) (position : Nat) : Cursor :=
  ⟨tag, position, body.drop position, 0⟩

namespace FieldStep

/-- The reading of a step. -/
def reading : FieldStep → Reading FieldValue
  | .number width field => do return .number (← Reading.number width field)
  | .mpi field => do return .octets (← Reading.mpi field)
  | .bytes length field => do return .octets (← Reading.bytes length field)
  | .rest => do return .octets (← Reading.rest)

/-- The cursor after steps, each taken where the one before it left the cursor. -/
def after (steps : List FieldStep) (cursor : Cursor) : Cursor :=
  steps.foldl (fun cursor step => (step.reading.runAt cursor).2) cursor

/-- At `position` of a body, `wanted` octets cannot be had: fewer are left, or the number is
negative. -/
def Exceeds (body : Octets) (position : Nat) (wanted : Int) : Prop :=
  wanted < 0 ∨ ((body.length - position : Nat) : Int) < wanted

/-- The fault that `wanted` octets cannot be had at `position` of a body. -/
def shortage (tag : Binary64) (body : Octets) (field : String) (position : Nat) (wanted : Int) :
    FieldFault :=
  ⟨tag,
    .truncated field (position : Rat) (wanted : Binary64) ((body.length - position : Nat) : Rat)⟩

/-- What a step gives at `position` of a body in a packet of the tag `tag`, and the position after
it. -/
inductive Consumes (tag : Binary64) (body : Octets) (position : Nat) :
    FieldStep → Except FieldFault FieldValue → (position' : Nat) → Prop where
  /-- A number is what the next octets write, most significant first. -/
  | number {width : Nat} {field : String} : position + width ≤ body.length →
    Consumes tag body position (.number width field)
      (.ok (.number (octetsBetween body position (position + width)).toNat)) (position + width)
  /-- Octets are the next ones. -/
  | bytes {length : Nat} {field : String} : position + length ≤ body.length →
    Consumes tag body position (.bytes length field)
      (.ok (.octets (octetsBetween body position (position + length)))) (position + length)
  /-- All octets that are left are those up to the end. -/
  | rest : Consumes tag body position .rest
      (.ok (.octets (octetsBetween body position body.length))) body.length
  /-- A multiprecision integer is what follows a bit count in two octets, as many octets as hold
  that many bits. -/
  | mpi {bits length : Nat} {field : String} :
    (octetsBetween body position (position + 2)).toNat = bits → length = (bits + 7) / 8 →
    position + 2 + length ≤ body.length →
    Consumes tag body position (.mpi field)
      (.ok (.octets (octetsBetween body (position + 2) (position + 2 + length))))
      (position + 2 + length)
  /-- A number that is cut short is not read, and the cursor stays. -/
  | numberCut {width : Nat} {field : String} : Exceeds body position width →
    Consumes tag body position (.number width field)
      (.error (shortage tag body field position width)) position
  /-- Octets that cannot be had are not read, and the cursor stays. -/
  | bytesCut {length : Int} {field : String} : Exceeds body position length →
    Consumes tag body position (.bytes length field)
      (.error (shortage tag body field position length)) position
  /-- Without a bit count there is no multiprecision integer, and the cursor stays. -/
  | countCut {field : String} : Exceeds body position 2 →
    Consumes tag body position (.mpi field) (.error (shortage tag body field position 2)) position
  /-- A multiprecision integer that is cut short after its bit count keeps that consumed. -/
  | mpiCut {bits length : Nat} {field : String} : position + 2 ≤ body.length →
    (octetsBetween body position (position + 2)).toNat = bits → length = (bits + 7) / 8 →
    Exceeds body (position + 2) length →
    Consumes tag body position (.mpi field)
      (.error (shortage tag body field (position + 2) length)) (position + 2)

end FieldStep

/-! ## Octets -/

/-- What is taken at a place are the octets from there on. -/
theorem take_drop_eq_octetsBetween (body : Octets) (position length : Nat) :
    (body.drop position).take length = octetsBetween body position (position + length) := by
  rw [octetsBetween, List.drop_take, Nat.add_sub_cancel_left]

namespace Cursor

variable (tag : Binary64) (body : Octets)

/-- The start of a body is its first place. -/
theorem placed_zero : placed tag body 0 = start tag body := rfl

/-- The place of a cursor is the number of octets in front of it. -/
theorem offset_placed (position : Nat) : (placed tag body position).offset = (position : Rat) :=
  offset_whole tag position (body.drop position)

/-- What is left at a place is the length of the body without the octets in front. -/
theorem remaining_placed (position : Nat) :
    (placed tag body position).remaining = ((body.length - position : Nat) : Rat) := by
  rw [placed, remaining_whole, List.length_drop]

end Cursor

namespace Reading

variable {tag : Binary64} {body : Octets}

/-- A negative number of octets cannot be had, and the cursor stays. -/
theorem runAt_bytes_of_neg (cursor : Cursor) {length : Int} (h : length < 0) (field : String) :
    runAt (bytes length field) cursor =
      (.error ⟨cursor.tag, .truncated field cursor.offset (length : Binary64) cursor.remaining⟩,
        cursor) := by
  have hnegative : ((length : Int) : Rat) < 0 := by exact_mod_cast h
  unfold bytes portion
  rw [runAt_get_bind]
  dsimp only
  show runAt (if _ then _ else _) _ = _
  rw [if_pos (.inl hnegative)]
  rfl

/-- All that is left is as many octets as are left. -/
theorem runAt_rest (tag : Binary64) (position : Nat) (rest : Octets) :
    runAt Reading.rest ⟨tag, position, rest, 0⟩ =
      runAt (bytes (rest.length : Int) "rest") ⟨tag, position, rest, 0⟩ := by
  have hlength : ((rest.length : Int) : Rat) = (rest.length : Rat) := by push_cast; rfl
  unfold Reading.rest
  rw [runAt_get_bind, Cursor.remaining_whole, ← hlength]
  rfl

/-- At a place of a body, octets that are there are read, and the cursor stands behind them. -/
theorem runAt_bytes_placed {position length : Nat} (h : position + length ≤ body.length)
    (field : String) :
    runAt (bytes (length : Int) field) (.placed tag body position) =
      (.ok (octetsBetween body position (position + length)),
        .placed tag body (position + length)) := by
  have hthere : length ≤ (body.drop position).length := by
    rw [List.length_drop]
    omega
  rw [Cursor.placed, runAt_bytes, if_pos hthere, take_drop_eq_octetsBetween, List.drop_drop]
  rfl

/-- At a place of a body, octets that are not there are not read, and the cursor stays. -/
theorem runAt_bytes_of_exceeds {position : Nat} {length : Int}
    (h : FieldStep.Exceeds body position length) (field : String) :
    runAt (bytes length field) (.placed tag body position) =
      (.error (FieldStep.shortage tag body field position length), .placed tag body position) := by
  rcases h with hnegative | hshort
  · rw [runAt_bytes_of_neg _ hnegative, Cursor.offset_placed, Cursor.remaining_placed]
    rfl
  · obtain ⟨length, rfl⟩ : ∃ n : Nat, length = n := ⟨length.toNat, by omega⟩
    have hshort : ¬ length ≤ (body.drop position).length := by
      rw [List.length_drop]
      omega
    rw [Cursor.placed, runAt_bytes, if_neg hshort, List.length_drop]
    rfl

/-- Octets are there or are not. -/
theorem exceeds_or_exists (body : Octets) {position : Nat} (h : position ≤ body.length)
    (length : Int) :
    FieldStep.Exceeds body position length ∨
      ∃ n : Nat, length = n ∧ position + n ≤ body.length := by
  by_cases hexceeds : FieldStep.Exceeds body position length
  · exact .inl hexceeds
  · unfold FieldStep.Exceeds at hexceeds
    exact .inr ⟨length.toNat, by omega, by omega⟩

end Reading

namespace FieldStep

variable {tag : Binary64} {body : Octets}

/-! ## Steps -/

/-- At a place of a body, each step gives what is there, and the cursor stands at a place that is
not in front of it. -/
theorem consumes_placed (tag : Binary64) {position : Nat} (h : position ≤ body.length)
    (step : FieldStep) :
    ∃ outcome position', step.reading.runAt (.placed tag body position) =
        (outcome, .placed tag body position') ∧
      position ≤ position' ∧ position' ≤ body.length ∧
      Consumes tag body position step outcome position' := by
  cases step with
  | number width field =>
    rcases Reading.exceeds_or_exists body h width with hexceeds | ⟨width, heq, hthere⟩
    · refine ⟨_, position, ?_, le_refl _, h, .numberCut hexceeds⟩
      simp only [reading, Reading.number, Reading.runAt_bind,
        Reading.runAt_bytes_of_exceeds hexceeds]
    · obtain rfl := Int.ofNat.inj heq
      refine ⟨_, position + width, ?_, Nat.le_add_right _ _, hthere, .number hthere⟩
      simp only [reading, Reading.number, Reading.runAt_bind, Reading.runAt_bytes_placed hthere,
        Reading.runAt_pure]
  | bytes length field =>
    rcases Reading.exceeds_or_exists body h length with hexceeds | ⟨length, rfl, hthere⟩
    · refine ⟨_, position, ?_, le_refl _, h, .bytesCut hexceeds⟩
      simp only [reading, Reading.runAt_bind, Reading.runAt_bytes_of_exceeds hexceeds]
    · refine ⟨_, position + length, ?_, Nat.le_add_right _ _, hthere, .bytes hthere⟩
      simp only [reading, Reading.runAt_bind, Reading.runAt_bytes_placed hthere, Reading.runAt_pure]
  | rest =>
    have hlength : (body.drop position).length = body.length - position := List.length_drop
    have hend : position + (body.length - position) = body.length := by omega
    have hbytes : Reading.runAt (Reading.bytes ((body.length - position : Nat) : Int) "rest")
        (.placed tag body position) =
          (.ok (octetsBetween body position body.length), .placed tag body body.length) := by
      rw [Reading.runAt_bytes_placed hend.le, hend]
    refine ⟨_, body.length, ?_, h, le_refl _, .rest⟩
    simp only [reading, Reading.runAt_bind]
    rw [Cursor.placed, Reading.runAt_rest, hlength, ← Cursor.placed, hbytes]
    rfl
  | mpi field =>
    -- The bit count comes first, and only where it is there a number of octets is asked for.
    rcases Reading.exceeds_or_exists body h (2 : Nat) with hexceeds | ⟨width, heq, hcount⟩
    · refine ⟨_, position, ?_, le_refl _, h, .countCut hexceeds⟩
      simp only [reading, Reading.mpi, Reading.u16, Reading.number, Reading.runAt_bind,
        Reading.runAt_bytes_of_exceeds hexceeds]
      rfl
    · obtain rfl := Int.ofNat.inj heq
      generalize hbits : (octetsBetween body position (position + 2)).toNat = bits
      generalize hlength : (bits + 7) / 8 = length
      rcases Reading.exceeds_or_exists body hcount length with hexceeds | ⟨length', heq', hthere⟩
      · refine ⟨_, position + 2, ?_, Nat.le_add_right _ _, hcount,
          .mpiCut hcount hbits hlength.symm hexceeds⟩
        simp only [reading, Reading.mpi, Reading.u16, Reading.number, Reading.runAt_bind,
          Reading.runAt_bytes_placed hcount, Reading.runAt_pure, hbits, hlength,
          Reading.runAt_bytes_of_exceeds hexceeds]
      · obtain rfl := Int.ofNat.inj heq'
        refine ⟨_, position + 2 + length, ?_, by omega, hthere,
          .mpi hbits hlength.symm hthere⟩
        simp only [reading, Reading.mpi, Reading.u16, Reading.number, Reading.runAt_bind,
          Reading.runAt_bytes_placed hcount, Reading.runAt_pure, hbits, hlength,
          Reading.runAt_bytes_placed hthere]

/-- The last step is taken where the others have left the cursor. -/
theorem after_concat (steps : List FieldStep) (step : FieldStep) (cursor : Cursor) :
    after (steps ++ [step]) cursor = (step.reading.runAt (after steps cursor)).2 := by
  unfold after
  rw [List.foldl_append]
  rfl

/-- After any steps from the start of a body, the cursor stands at a place of the body. -/
theorem exists_placed_after (tag : Binary64) (body : Octets) (steps : List FieldStep) :
    ∃ position, position ≤ body.length ∧
      after steps (.start tag body) = .placed tag body position := by
  -- From the end: the steps before the last have left the cursor at a place.
  induction steps using List.reverseRecOn with
  | nil => exact ⟨0, Nat.zero_le _, (Cursor.placed_zero tag body).symm⟩
  | append_singleton steps step ih =>
    obtain ⟨position, hposition, hafter⟩ := ih
    obtain ⟨outcome, position', hrun, -, hposition', -⟩ :=
      consumes_placed tag hposition step
    refine ⟨position', hposition', ?_⟩
    rw [after_concat, hafter, hrun]

/-- After any steps over a body, the octets in front of the cursor and those after it make up the
body, and the next step gives what `Consumes` says at that place: on success what the octets between
the place before and the place after it write, and on failure a fault with the tag of the packet
that is true of the place where it arose, which is the place before the step unless a bit count was
read in front of it. -/
theorem consumes_after (tag : Binary64) (body : Octets) (steps : List FieldStep)
    (step : FieldStep) :
    ∃ position position' : Nat,
      (after steps (.start tag body)).offset = position ∧
      (after steps (.start tag body)).offset + (after steps (.start tag body)).remaining =
        body.length ∧
      (step.reading.runAt (after steps (.start tag body))).2.offset = position' ∧
      position ≤ position' ∧ position' ≤ body.length ∧
      Consumes tag body position step (step.reading.runAt (after steps (.start tag body))).1
        position' := by
  obtain ⟨position, hposition, hafter⟩ := exists_placed_after tag body steps
  obtain ⟨outcome, position', hrun, hle, hle', hconsumes⟩ :=
    consumes_placed tag hposition step
  have hsum : (position : Rat) + ((body.length - position : Nat) : Rat) = (body.length : Rat) := by
    rw [Nat.cast_sub hposition]
    ring
  rw [hafter, hrun]
  refine ⟨position, position', Cursor.offset_placed tag body position, ?_,
    Cursor.offset_placed tag body position', hle, hle', hconsumes⟩
  rw [Cursor.offset_placed, Cursor.remaining_placed, hsum]

end FieldStep

end PgpInspect
