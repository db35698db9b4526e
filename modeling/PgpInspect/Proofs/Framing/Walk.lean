import Mathlib.Logic.Relation
import PgpInspect.Proofs.Octets
import PgpInspect.Packet.Framing

/-!
# The walk over a stream by offsets

The reader of `PgpInspect/Packet/Framing.lean` takes a stream apart and so cannot look past its end.
Here the same reader walks over the stream with an offset, as one does over octets in an array: it
looks up each octet by its index, with a fallback for an index past the end, and cuts bodies out
between two offsets. `Look` keeps the indexes that were looked up, and `Walk.step` is one turn of
the walk: a packet header with its old-format body, or one chunk of a new-format body.

`Walk.keeps_step` says what one turn keeps: each index is inside the stream, the offset grows but
not past the end, and a fault tells the truth about the stream. `Walk.finish_step` says that it
leaves to the rest of the walk what the reader makes of it. By induction on what is left,
`walk_readPackets` follows: the walk ends, and its end is the outcome of `readPackets`.
-/

namespace PgpInspect

/-- What a fault says about a stream is true: the octet at its offset is the header that it names
and begins no packet, or at its offset fewer octets are left than it names. -/
def DecodeFault.IsTruthful (data : Octets) : DecodeFault → Prop
  | .invalidHeader offset header =>
    (data[offset]?).map UInt8.toNat = some header ∧ header < 0x80
  | .pastEnd offset length available => offset + available = data.length ∧ available < length
  | _ => False

namespace Framing

/-- An outcome together with the indexes of the octets that were looked up for it, in order. -/
structure Look (α : Type) where
  /-- The indexes. -/
  seen : List Nat
  /-- The outcome. -/
  outcome : Except DecodeFault α

namespace Look

variable {α β : Type}

instance : Monad Look where
  pure value := ⟨[], .ok value⟩
  bind look next :=
    match look.outcome with
    | .ok value => ⟨look.seen ++ (next value).seen, (next value).outcome⟩
    | .error fault => ⟨look.seen, .error fault⟩

/-- Fails. -/
def fail (fault : DecodeFault) : Look α := ⟨[], .error fault⟩

/-- The octet at an index, zero past the end. -/
def octetAt (data : Octets) (index : Nat) : Look Nat := ⟨[index], .ok (data[index]?.getD 0).toNat⟩

/-- Makes sure that there are `length` octets from `offset` on. -/
def need (data : Octets) (offset length : Nat) : Look Unit :=
  if data.length < offset + length then fail (.pastEnd offset length (data.length - offset))
  else pure ()

/-- The number that octets from `index` on write after the digits of `value`. -/
def digitsAt (data : Octets) (value index : Nat) : (width : Nat) → Look Nat
  | 0 => pure value
  | width + 1 => do
    let octet ← octetAt data index
    digitsAt data (256 * value + octet) (index + 1) width

/-- The number that `width` octets from `offset` on write. -/
def numberAt (data : Octets) (offset width : Nat) : Look Nat := do
  need data offset width
  digitsAt data 0 offset width

/-- The `length` octets from `offset` on, and the offset behind them. -/
def cutAt (data : Octets) (offset length : Nat) : Look (Octets × Nat) := do
  need data offset length
  ⟨List.range' offset length, .ok ((data.drop offset).take length, offset + length)⟩

/-- The length in front of a chunk of a new-format body, whether another chunk follows, and the
offset behind the length. -/
def chunkLengthAt (data : Octets) (offset : Nat) : Look (Nat × Bool × Nat) := do
  need data offset 1
  let first ← octetAt data offset
  if first < 192 then return (first, false, offset + 1)
  else if first < 224 then
    need data offset 2
    let second ← octetAt data (offset + 1)
    return ((first - 192) * 256 + second + 192, false, offset + 2)
  else if first = 255 then
    let length ← numberAt data (offset + 1) 4
    return (length, false, offset + 5)
  else return (2 ^ (first % 32), true, offset + 1)

/-- The length that `width` octets write, and the offset behind it. -/
def countAt (data : Octets) (offset width : Nat) : Look (Nat × Nat) := do
  let length ← numberAt data offset width
  return (length, offset + width)

/-- The length of an old-format body by the length type of its header, and the offset behind it. -/
def oldLengthAt (data : Octets) (offset : Nat) : (lengthType : Nat) → Look (Nat × Nat)
  | 0 => countAt data offset 1
  | 1 => countAt data offset 2
  | 2 => countAt data offset 4
  | _ => return (data.length - offset, offset)

/-- The body of an old-format packet, and the offset behind it. -/
def oldBodyAt (data : Octets) (offset lengthType : Nat) : Look (Octets × Nat) := do
  let (length, offset) ← oldLengthAt data offset lengthType
  cutAt data offset length

end Look

/-- Where a walk stands: in front of a packet, or of a chunk of a new-format body. -/
structure Walk where
  /-- The offset of the next octet. -/
  offset : Nat := 0
  /-- The packets so far. -/
  packets : List RawPacket := []
  /-- The tag of the new-format packet that is being read, and its body so far. -/
  pending : Option (Nat × Octets) := none

namespace Walk

/-- The walk ends in front of a packet, where no octet is left. -/
def IsOver (data : Octets) (walk : Walk) : Prop :=
  walk.pending = none ∧ data.length ≤ walk.offset

/-- One turn of the walk. -/
def step (data : Octets) (walk : Walk) : Look Walk :=
  match walk.pending with
  | none => do
    let header ← Look.octetAt data walk.offset
    if header < 0x80 then Look.fail (.invalidHeader walk.offset header)
    else if 0xC0 ≤ header then
      return { walk with offset := walk.offset + 1, pending := some (header % 64, []) }
    else
      let (body, offset) ← Look.oldBodyAt data (walk.offset + 1) (header % 4)
      let packet : RawPacket := ⟨((header / 4 % 16 : Nat) : Binary64), body⟩
      return { offset, packets := walk.packets ++ [packet] }
  | some (tag, body) => do
    let (length, continues, offset) ← Look.chunkLengthAt data walk.offset
    let (chunk, offset) ← Look.cutAt data offset length
    if continues then return { walk with offset, pending := some (tag, body ++ chunk) }
    else return { offset, packets := walk.packets ++ [⟨(tag : Binary64), body ++ chunk⟩] }

/-- The walk goes on from one place to another by some turns, none of them after its end. -/
def Reaches (data : Octets) : Walk → Walk → Prop :=
  Relation.ReflTransGen fun walk next =>
    ¬ walk.IsOver data ∧ (walk.step data).outcome = .ok next

/-- The walk stops with an outcome: at its end with its packets, or in a turn that fails. -/
def Stops (data : Octets) (walk : Walk) : Except DecodeFault (List RawPacket) → Prop
  | .ok packets => walk.IsOver data ∧ walk.packets = packets
  | .error fault => ¬ walk.IsOver data ∧ (walk.step data).outcome = .error fault

end Walk

/-! ## Inside the stream -/

namespace Look

variable {α β : Type} {data : Octets} {post : α → Prop}

/-- What is looked up is inside of `data`, a value satisfies `post`, and a fault is true of
`data`. -/
structure Keeps (data : Octets) (look : Look α) (post : α → Prop) : Prop where
  /-- All indexes are those of octets. -/
  seen_lt : ∀ index ∈ look.seen, index < data.length
  /-- A value satisfies the condition. -/
  post_of_ok : ∀ value, look.outcome = .ok value → post value
  /-- A fault tells the truth. -/
  truthful_of_error : ∀ fault, look.outcome = .error fault → fault.IsTruthful data

/-- A value that is there looks nothing up. -/
theorem Keeps.pure {value : α} (h : post value) : Keeps data (pure value) post where
  seen_lt _ hindex := nomatch hindex
  post_of_ok _ hok := Except.ok.inj hok ▸ h
  truthful_of_error _ herror := nomatch herror

/-- A true fault may be raised. -/
theorem Keeps.fail {fault : DecodeFault} (h : fault.IsTruthful data) :
    Keeps data (fail fault : Look α) post where
  seen_lt _ hindex := nomatch hindex
  post_of_ok _ hok := nomatch hok
  truthful_of_error _ herror := Except.error.inj herror ▸ h

/-- What comes after a look may use what is known of its value. -/
theorem Keeps.bind {look : Look α} {next : α → Look β} {post' : β → Prop} (h : Keeps data look post)
    (h' : ∀ value, post value → Keeps data (next value) post') :
    Keeps data (look >>= next) post' := by
  obtain ⟨seen, outcome⟩ := look
  obtain ⟨hseen, hok, herror⟩ := h
  cases outcome with
  | error fault =>
    refine ⟨hseen, fun _ hvalue => (nomatch hvalue), fun fault' hfault => ?_⟩
    obtain rfl : fault = fault' := Except.error.inj hfault
    exact herror fault rfl
  | ok value =>
    obtain ⟨hseen', hok', herror'⟩ := h' value (hok value rfl)
    refine ⟨fun index hindex => ?_, hok', herror'⟩
    rcases List.mem_append.mp hindex with hfront | hbehind
    · exact hseen index hfront
    · exact hseen' index hbehind

/-- Both sides of a choice may use what decides it. -/
theorem Keeps.ite {p : Prop} [Decidable p] {look other : Look α} (h : p → Keeps data look post)
    (h' : ¬ p → Keeps data other post) : Keeps data (if p then look else other) post := by
  split
  · next hp => exact h hp
  · next hp => exact h' hp

/-- An octet inside of the stream is looked up without the fallback. -/
theorem keeps_octetAt {index : Nat} (h : index < data.length) :
    Keeps data (octetAt data index) fun value => (data[index]?).map UInt8.toNat = some value where
  seen_lt other hother := by
    rw [List.mem_singleton.mp hother]
    exact h
  post_of_ok value hok := by
    rw [← Except.ok.inj hok, List.getElem?_eq_getElem h]
    rfl
  truthful_of_error _ herror := nomatch herror

/-- Octets that are needed are there behind the check, and a failing check tells how many are. -/
theorem keeps_need {offset : Nat} (h : offset ≤ data.length) (length : Nat) :
    Keeps data (need data offset length) fun _ => offset + length ≤ data.length :=
  .ite (fun hshort => .fail ⟨by omega, by omega⟩) fun hthere => .pure (by omega)

/-- The digits of a number that is there are inside of the stream. -/
theorem keeps_digitsAt {width index : Nat} (h : index + width ≤ data.length) (value : Nat) :
    Keeps data (digitsAt data value index width) fun _ => True := by
  induction width generalizing value index with
  | zero => exact .pure trivial
  | succ width ih => exact (keeps_octetAt (by omega)).bind fun octet _ => ih (by omega) _

/-- A number stays inside of the stream. -/
theorem keeps_numberAt {offset : Nat} (h : offset ≤ data.length) (width : Nat) :
    Keeps data (numberAt data offset width) fun _ => offset + width ≤ data.length := by
  refine (keeps_need h width).bind fun _ hthere => ?_
  obtain ⟨hseen, -, herror⟩ := keeps_digitsAt hthere 0
  exact ⟨hseen, fun _ _ => hthere, herror⟩

/-- A body stays inside of the stream. -/
theorem keeps_cutAt {offset : Nat} (h : offset ≤ data.length) (length : Nat) :
    Keeps data (cutAt data offset length) fun cut =>
      cut.2 = offset + length ∧ cut.2 ≤ data.length := by
  refine (keeps_need h length).bind fun _ hthere => ⟨fun index hindex => ?_, fun cut hcut => ?_,
    fun _ herror => nomatch herror⟩
  · obtain ⟨k, hk, rfl⟩ := List.mem_range'.mp hindex
    omega
  · rw [← Except.ok.inj hcut]
    exact ⟨rfl, hthere⟩

/-- The length of a chunk has at least one octet and stays inside of the stream. -/
theorem keeps_chunkLengthAt {offset : Nat} (h : offset ≤ data.length) :
    Keeps data (chunkLengthAt data offset) fun found =>
      offset < found.2.2 ∧ found.2.2 ≤ data.length := by
  refine (keeps_need h 1).bind fun _ hone => ?_
  refine (keeps_octetAt (by omega)).bind fun first _ => ?_
  refine .ite (fun _ => .pure ⟨Nat.lt_succ_self offset, hone⟩) fun _ => ?_
  refine .ite (fun _ => ?_) fun _ => .ite (fun _ => ?_) fun _ => ?_
  · refine (keeps_need h 2).bind fun _ htwo => ?_
    refine (keeps_octetAt (by omega)).bind fun second _ => ?_
    exact .pure ⟨Nat.lt_add_of_pos_right (by decide), htwo⟩
  · refine (keeps_numberAt hone 4).bind fun length hfour => ?_
    exact .pure ⟨Nat.lt_add_of_pos_right (by decide), by omega⟩
  · exact .pure ⟨Nat.lt_succ_self offset, hone⟩

/-- The length of an old-format body stays inside of the stream. -/
theorem keeps_oldLengthAt {offset : Nat} (h : offset ≤ data.length) (lengthType : Nat) :
    Keeps data (oldLengthAt data offset lengthType) fun found =>
      offset ≤ found.2 ∧ found.2 ≤ data.length := by
  have hcounted (width : Nat) :
      Keeps data (countAt data offset width) fun found =>
        offset ≤ found.2 ∧ found.2 ≤ data.length :=
    (keeps_numberAt h width).bind fun _ hthere => .pure ⟨Nat.le_add_right _ _, hthere⟩
  match lengthType with
  | 0 => exact hcounted 1
  | 1 => exact hcounted 2
  | 2 => exact hcounted 4
  | _ + 3 => exact .pure ⟨le_refl _, h⟩

/-- The body of an old-format packet stays inside of the stream. -/
theorem keeps_oldBodyAt {offset : Nat} (h : offset ≤ data.length) (lengthType : Nat) :
    Keeps data (oldBodyAt data offset lengthType) fun cut =>
      offset ≤ cut.2 ∧ cut.2 ≤ data.length := by
  refine (keeps_oldLengthAt h lengthType).bind fun found hfound => ?_
  obtain ⟨hseen, hok, herror⟩ := keeps_cutAt hfound.2 found.1
  refine ⟨hseen, fun cut hcut => ?_, herror⟩
  have hbehind := hok cut hcut
  omega

end Look

namespace Walk

variable {data : Octets} {walk : Walk}

/-- In front of a packet the walk is over at the end only. -/
theorem lt_of_not_isOver {offset : Nat} {packets : List RawPacket}
    (hopen : ¬ IsOver data ⟨offset, packets, none⟩) : offset < data.length := by
  by_contra hend
  exact hopen ⟨rfl, by simpa using hend⟩

/-- One turn looks at no octet past the end, goes on by at least one octet but not past the end, and
if it fails, then for a fault that is true of the stream. -/
theorem keeps_step (h : walk.offset ≤ data.length) (hopen : ¬ walk.IsOver data) :
    (walk.step data).Keeps data fun next =>
      walk.offset < next.offset ∧ next.offset ≤ data.length := by
  obtain ⟨offset, packets, pending⟩ := walk
  unfold step
  cases pending with
  | none =>
    have hoffset := lt_of_not_isOver hopen
    refine (Look.keeps_octetAt hoffset).bind fun header hheader => ?_
    refine .ite (fun hlow => .fail ⟨hheader, hlow⟩) fun _ => ?_
    refine .ite (fun _ => .pure ⟨Nat.lt_succ_self offset, hoffset⟩) fun _ => ?_
    exact (Look.keeps_oldBodyAt hoffset (header % 4)).bind fun cut hcut => .pure hcut
  | some body =>
    refine (Look.keeps_chunkLengthAt h).bind fun found hfound => ?_
    refine (Look.keeps_cutAt hfound.2 found.1).bind fun cut hcut => ?_
    have hgrows : offset < cut.2 ∧ cut.2 ≤ data.length := by
      dsimp only at hfound
      omega
    exact .ite (fun _ => .pure hgrows) fun _ => .pure hgrows

end Walk

/-! ## The reader of the stream -/

/-- Two readings fail alike, or both succeed with related values. -/
inductive Agree {α β : Type} (related : α → β → Prop) :
    Except DecodeFault α → Except DecodeFault β → Prop where
  /-- Both succeed. -/
  | ok {value : α} {value' : β} : related value value' → Agree related (.ok value) (.ok value')
  /-- Both fail. -/
  | error {fault : DecodeFault} : Agree related (.error fault) (.error fault)

namespace Look

variable {data : Octets} {offset : Nat}

/-- What follows an octet at an offset is there at the next offset. -/
theorem drop_succ {first : UInt8} {rest : Octets} (h : data.drop offset = first :: rest) :
    data.drop (offset + 1) = rest := by
  rw [← List.tail_drop, h, List.tail_cons]

/-- As many octets are in front of an offset as the offset says. -/
theorem length_eq_of_drop {rest : Octets} (hoffset : offset ≤ data.length)
    (h : data.drop offset = rest) : data.length = offset + rest.length := by
  rw [← h, List.length_drop]
  omega

/-- A shortage in front of what is left is one at the offset. -/
theorem shortage_drop (hoffset : offset ≤ data.length) (length : Nat) :
    shortage data.length (data.drop offset) length =
      .pastEnd offset length (data.length - offset) := by
  unfold shortage
  rw [List.length_drop, Nat.sub_sub_self hoffset]

/-- The first octet of what is left is the one at the offset. -/
theorem octetAt_of_drop {first : UInt8} {rest : Octets} (h : data.drop offset = first :: rest) :
    octetAt data offset = ⟨[offset], .ok first.toNat⟩ := by
  have hfirst : data[offset]? = some first := by
    rw [← List.head?_drop, h, List.head?_cons]
  rw [octetAt, hfirst, Option.getD_some]

/-- A check of octets that are there does nothing. -/
theorem need_of_le {length : Nat} (h : offset + length ≤ data.length) :
    need data offset length = ⟨[], .ok ()⟩ := if_neg (by omega)

/-- A check of octets that are not there fails. -/
theorem need_of_lt {length : Nat} (h : data.length < offset + length) :
    need data offset length = ⟨[], .error (.pastEnd offset length (data.length - offset))⟩ :=
  if_pos h

/-- Looks one after the other have the outcome of the second one if the first succeeds. -/
theorem outcome_bind {α β : Type} {look : Look α} (next : α → Look β) :
    (look >>= next).outcome =
      match look.outcome with
      | .ok value => (next value).outcome
      | .error fault => .error fault := by
  obtain ⟨seen, outcome⟩ := look
  cases outcome <;> rfl

/-- The digits of a number are the octets in front of what is left. -/
theorem outcome_digitsAt {octets rest : Octets} (h : data.drop offset = octets ++ rest)
    (value : Nat) :
    (digitsAt data value offset octets.length).outcome =
      .ok (octets.foldl (fun value octet => 256 * value + octet.toNat) value) := by
  induction octets generalizing value offset with
  | nil => rfl
  | cons octet octets ih =>
    rw [List.cons_append] at h
    rw [List.length_cons, digitsAt, octetAt_of_drop h, outcome_bind]
    exact ih (drop_succ h) _

/-- A number of octets that are there is the number that they write. -/
theorem outcome_numberAt {octets rest : Octets} (hoffset : offset ≤ data.length)
    (h : data.drop offset = octets ++ rest) :
    (numberAt data offset octets.length).outcome = .ok octets.toNat := by
  have hthere : offset + octets.length ≤ data.length := by
    rw [length_eq_of_drop hoffset h, List.length_append]
    omega
  rw [numberAt, need_of_le hthere, outcome_bind]
  exact outcome_digitsAt h 0

/-- A number of octets that are not there is not read. -/
theorem outcome_numberAt_of_lt {width : Nat} (h : data.length < offset + width) :
    (numberAt data offset width).outcome =
      .error (.pastEnd offset width (data.length - offset)) := by
  rw [numberAt, need_of_lt h, outcome_bind]

/-- Cutting at an offset splits what is left. -/
theorem agree_cutAt (hoffset : offset ≤ data.length) (length : Nat) :
    Agree (fun cut found => cut.1 = found.body ∧ cut.2 ≤ data.length ∧ data.drop cut.2 = found.rest)
      (cutAt data offset length).outcome
      (split data.length (data.drop offset) length) := by
  by_cases hthere : offset + length ≤ data.length
  · have hle : length ≤ (data.drop offset).length := by
      rw [List.length_drop]
      omega
    rw [cutAt, need_of_le hthere, outcome_bind, split, if_pos hle]
    exact .ok ⟨rfl, hthere, (List.drop_drop ..).symm⟩
  · have hlt : ¬ length ≤ (data.drop offset).length := by
      rw [List.length_drop]
      omega
    rw [cutAt, need_of_lt (by omega), outcome_bind, split, if_neg hlt,
      shortage_drop hoffset]
    exact .error

/-- An octet that is there is looked at after a check that does nothing. -/
theorem outcome_octetAt_bind {α : Type} {start length : Nat} {first : UInt8} {rest : Octets}
    (hthere : start + length ≤ data.length) (h : data.drop offset = first :: rest)
    (next : Nat → Look α) :
    (need data start length >>= fun _ => octetAt data offset >>= next).outcome =
      (next first.toNat).outcome := by
  rw [need_of_le hthere, octetAt_of_drop h, outcome_bind, outcome_bind]

/-- The length of a chunk that is found at an offset is the one in front of what is left. -/
structure FindsLength (data : Octets) {left : Octets} (found : Nat × Bool × Nat)
    (length : ChunkLength left) : Prop where
  /-- The lengths are the same. -/
  length_eq : found.1 = length.length
  /-- So is whether another chunk follows. -/
  continues_eq : found.2.1 = length.continues
  /-- The offset behind the length is not past the end. -/
  offset_le : found.2.2 ≤ data.length
  /-- The octets from there are those behind the length. -/
  drop_eq : data.drop found.2.2 = length.rest

section Forms

variable {first : UInt8} {rest : Octets}

/-- A length of two octets is found if both are there. -/
theorem agree_chunkLengthAt_two (hleft : data.drop offset = first :: rest)
    (hoffset : offset < data.length) (hone : ¬ first.toNat < 192) (htwo : first.toNat < 224) :
    Agree (FindsLength data) (chunkLengthAt data offset).outcome
      (chunkLength data.length (first :: rest)) := by
  have hlength := length_eq_of_drop hoffset.le hleft
  rw [List.length_cons] at hlength
  have hrest := drop_succ hleft
  have hshort := shortage_drop hoffset.le 2
  rw [hleft] at hshort
  rw [chunkLengthAt, outcome_octetAt_bind (by omega) hleft]
  simp only [chunkLength, if_neg hone, if_pos htwo]
  cases rest with
  | nil =>
    rw [List.length_nil] at hlength
    rw [need_of_lt (by omega), outcome_bind, hshort]
    exact .error
  | cons second rest =>
    rw [List.length_cons] at hlength
    rw [outcome_octetAt_bind (by omega) hrest]
    exact .ok ⟨rfl, rfl, by dsimp only; omega, drop_succ hrest⟩

/-- A length of five octets is found if the last four are there. -/
theorem agree_chunkLengthAt_five (hleft : data.drop offset = first :: rest)
    (hoffset : offset < data.length) (hfive : first.toNat = 255) :
    Agree (FindsLength data) (chunkLengthAt data offset).outcome
      (chunkLength data.length (first :: rest)) := by
  have hone : ¬ first.toNat < 192 := by omega
  have htwo : ¬ first.toNat < 224 := by omega
  have hrest := drop_succ hleft
  have hlength := length_eq_of_drop hoffset hrest
  have hshort := shortage_drop hoffset 4
  rw [hrest] at hshort
  rw [chunkLengthAt, outcome_octetAt_bind (by omega) hleft]
  simp only [chunkLength, if_neg hone, if_neg htwo, if_pos hfive]
  rw [outcome_bind]
  rcases rest with _ | ⟨a, _ | ⟨b, _ | ⟨c, _ | ⟨d, rest⟩⟩⟩⟩
  case cons.cons.cons.cons =>
    have hjoined : data.drop (offset + 1) = [a, b, c, d] ++ rest := hrest
    have hnumber : (numberAt data (offset + 1) 4).outcome = .ok (Octets.toNat [a, b, c, d]) :=
      outcome_numberAt hoffset hjoined
    have hdrop : data.drop (offset + 5) = rest := by
      rw [← List.drop_drop, hleft]
      rfl
    simp only [List.length_cons] at hlength
    rw [hnumber]
    exact .ok ⟨rfl, rfl, by dsimp only; omega, hdrop⟩
  all_goals
    -- Fewer than four octets are left behind the first.
    simp only [List.length_cons, List.length_nil] at hlength
    rw [outcome_numberAt_of_lt (by omega)]
    dsimp only
    rw [hshort]
    exact .error

end Forms

/-- The length of a chunk is the one in front of what is left. -/
theorem agree_chunkLengthAt (hoffset : offset ≤ data.length) :
    Agree (FindsLength data) (chunkLengthAt data offset).outcome
      (chunkLength data.length (data.drop offset)) := by
  have hshort := shortage_drop hoffset 1
  generalize hleft : data.drop offset = left at hshort ⊢
  have hlength := length_eq_of_drop hoffset hleft
  cases left with
  | nil =>
    rw [List.length_nil, Nat.add_zero] at hlength
    rw [chunkLengthAt, need_of_lt (by omega), outcome_bind, chunkLength, hshort]
    exact .error
  | cons first rest =>
    rw [List.length_cons] at hlength
    have hstart : offset < data.length := by omega
    have hrest := drop_succ hleft
    -- The four forms, told apart by the first octet.
    by_cases htwo : ¬ first.toNat < 192 ∧ first.toNat < 224
    · exact agree_chunkLengthAt_two hleft hstart htwo.1 htwo.2
    by_cases hfive : first.toNat = 255
    · exact agree_chunkLengthAt_five hleft hstart hfive
    rw [chunkLengthAt, outcome_octetAt_bind (by omega) hleft]
    by_cases hone : first.toNat < 192
    · simp only [chunkLength, if_pos hone]
      exact .ok ⟨rfl, rfl, hstart, hrest⟩
    · have hpower : ¬ first.toNat < 224 := fun hlt => htwo ⟨hone, hlt⟩
      have hfirst := first.toNat_lt
      have hexponent : first.toNat % 32 = first.toNat - 224 := by omega
      simp only [chunkLength, if_neg hone, if_neg hpower, if_neg hfive, hexponent]
      exact .ok ⟨rfl, rfl, hstart, hrest⟩

/-- A body whose length is written in `width` octets is the one in front of what is left. -/
theorem agree_countedBody (hoffset : offset ≤ data.length) (width : Nat) :
    Agree (fun cut found => cut.1 = found.body ∧ cut.2 ≤ data.length ∧ data.drop cut.2 = found.rest)
      (countAt data offset width >>= fun found => cutAt data found.2 found.1).outcome
      (countedBody data.length width (data.drop offset)) := by
  rw [countAt, outcome_bind, outcome_bind]
  unfold countedBody
  by_cases hthere : width ≤ (data.drop offset).length
  · have hlength : split data.length (data.drop offset) width =
        .ok ⟨(data.drop offset).take width, (data.drop offset).drop width,
          (List.drop_sublist ..).length_le⟩ := if_pos hthere
    have hnumber := outcome_numberAt hoffset (List.take_append_drop width (data.drop offset)).symm
    rw [List.length_take_of_le hthere] at hnumber
    have hbehind : offset + width ≤ data.length := by
      rw [List.length_drop] at hthere
      omega
    have hcut := agree_cutAt hbehind (Octets.toNat ((data.drop offset).take width))
    rw [← List.drop_drop] at hcut
    rw [hlength, hnumber]
    dsimp only [pure]
    generalize (cutAt data (offset + width) _).outcome = cut at hcut ⊢
    generalize split data.length _ _ = found at hcut ⊢
    cases hcut with
    | ok hrelated => exact .ok hrelated
    | error => exact .error
  · have hlt : data.length < offset + width := by
      rw [List.length_drop] at hthere
      omega
    have hlength : split data.length (data.drop offset) width =
        .error (.pastEnd offset width (data.length - offset)) := by
      rw [split, if_neg hthere, shortage_drop hoffset]
    rw [hlength, outcome_numberAt_of_lt hlt]
    exact .error

/-- An old-format body is the one in front of what is left. -/
theorem agree_oldBodyAt (hoffset : offset ≤ data.length) (lengthType : Nat) :
    Agree (fun cut found => cut.1 = found.body ∧ cut.2 ≤ data.length ∧ data.drop cut.2 = found.rest)
      (oldBodyAt data offset lengthType).outcome
      (oldBody data.length lengthType (data.drop offset)) := by
  match lengthType with
  | 0 => exact agree_countedBody hoffset 1
  | 1 => exact agree_countedBody hoffset 2
  | 2 => exact agree_countedBody hoffset 4
  | n + 3 =>
    -- Without a length the body is all that is left.
    have hend : offset + (data.length - offset) = data.length := by omega
    have hall : (data.drop offset).take (data.length - offset) = data.drop offset := by
      rw [← List.length_drop, List.take_length]
    have hcut : (oldBodyAt data offset (n + 3)).outcome = .ok (data.drop offset, data.length) := by
      show (cutAt data offset (data.length - offset)).outcome = _
      rw [cutAt, need_of_le hend.le, outcome_bind, hall, hend]
    rw [hcut]
    exact .ok ⟨rfl, le_refl _, List.drop_length⟩

end Look

namespace Walk

variable {data : Octets} {walk : Walk}

/-- What the reader makes of what is left of a stream of `total` octets, behind the packets and the
chunks so far. -/
def outcomeFrom (total : Nat) (packets : List RawPacket) (pending : Option (Nat × Octets))
    (left : Octets) : Except DecodeFault (List RawPacket) :=
  match pending with
  | none => (packetsFrom total left).map (packets ++ ·)
  | some (tag, body) =>
    match newBody total left with
    | .error fault => .error fault
    | .ok ⟨more, rest, _⟩ =>
      (packetsFrom total rest).map fun others =>
        packets ++ ⟨(tag : Binary64), body ++ more⟩ :: others

/-- A packet that is done stands in front of those that are left. -/
theorem outcomeFrom_concat (total : Nat) (packets : List RawPacket) (packet : RawPacket)
    (left : Octets) :
    outcomeFrom total (packets ++ [packet]) none left =
      (packetsFrom total left).map fun others => packets ++ packet :: others := by
  unfold outcomeFrom
  dsimp only
  cases packetsFrom total left with
  | error fault => rfl
  | ok others =>
    dsimp only [Except.map]
    rw [List.append_assoc]
    rfl

/-- The outcome of the stream if the walk has come so far. -/
def finish (data : Octets) (walk : Walk) : Except DecodeFault (List RawPacket) :=
  outcomeFrom data.length walk.packets walk.pending (data.drop walk.offset)

/-- What is left to the rest of the walk by a turn, or the fault of the turn. -/
def continued (data : Octets) (turn : Look Walk) : Except DecodeFault (List RawPacket) :=
  match turn.outcome with
  | .ok next => next.finish data
  | .error fault => .error fault

/-- One turn in front of a packet leaves to the rest of the walk what the reader makes of it. -/
theorem finish_step_packet {offset : Nat} (packets : List RawPacket) (h : offset < data.length) :
    finish data ⟨offset, packets, none⟩ = continued data (step data ⟨offset, packets, none⟩) := by
  obtain ⟨header, rest, hleft⟩ : ∃ header rest, data.drop offset = header :: rest :=
    List.exists_cons_of_ne_nil (by simpa using h)
  have hlength := Look.length_eq_of_drop h.le hleft
  rw [List.length_cons] at hlength
  have hoffset : data.length - (rest.length + 1) = offset := by omega
  have hrest := Look.drop_succ hleft
  unfold step continued finish
  dsimp only
  rw [Look.octetAt_of_drop hleft, Look.outcome_bind, hleft, outcomeFrom, packetsFrom]
  dsimp only
  by_cases hlow : header.toNat < 0x80
  · rw [if_pos hlow, if_pos hlow, hoffset]
    rfl
  rw [if_neg hlow, if_neg hlow]
  by_cases hnew : 0xC0 ≤ header.toNat
  · simp only [decide_eq_true hnew, if_true, if_pos hnew]
    show _ = outcomeFrom data.length packets (some (header.toNat % 64, [])) (data.drop (offset + 1))
    rw [hrest, outcomeFrom]
    cases newBody data.length rest with
    | error fault => rfl
    | ok found =>
      dsimp only
      cases packetsFrom data.length found.rest <;> rfl
  · have hbody := Look.agree_oldBodyAt h (header.toNat % 4)
    rw [hrest] at hbody
    simp only [decide_eq_false hnew, Bool.false_eq_true, if_false, if_neg hnew]
    rw [Look.outcome_bind]
    generalize (Look.oldBodyAt data (offset + 1) (header.toNat % 4)).outcome = cut at hbody ⊢
    generalize oldBody data.length (header.toNat % 4) rest = found at hbody ⊢
    cases hbody with
    | error => rfl
    | @ok cut found hrelated =>
      obtain ⟨hbody, -, hbehind⟩ := hrelated
      show _ = outcomeFrom data.length (packets ++ [⟨_, cut.1⟩]) none (data.drop cut.2)
      rw [hbehind, hbody, outcomeFrom_concat]
      dsimp only
      cases packetsFrom data.length found.rest <;> rfl

/-- One turn in front of a chunk leaves to the rest of the walk what the reader makes of it. -/
theorem finish_step_chunk {offset : Nat} (packets : List RawPacket) (tag : Nat) (body : Octets)
    (h : offset ≤ data.length) :
    finish data ⟨offset, packets, some (tag, body)⟩ =
      continued data (step data ⟨offset, packets, some (tag, body)⟩) := by
  have hlength := Look.agree_chunkLengthAt h
  unfold step continued finish
  dsimp only
  rw [outcomeFrom, newBody, Look.outcome_bind]
  generalize (Look.chunkLengthAt data offset).outcome = foundAt at hlength ⊢
  generalize chunkLength data.length (data.drop offset) = found at hlength ⊢
  cases hlength with
  | error => rfl
  | @ok foundAt found hrelated =>
    obtain ⟨length, continues, behind⟩ := foundAt
    obtain ⟨length', continues', rest, hlt⟩ := found
    obtain ⟨rfl, rfl, hbehind, hrest⟩ := hrelated
    dsimp only at hbehind hrest ⊢
    have hcut := Look.agree_cutAt hbehind length
    rw [hrest] at hcut
    rw [Look.outcome_bind]
    generalize (Look.cutAt data behind length).outcome = cut at hcut ⊢
    generalize split data.length rest length = found at hcut ⊢
    cases hcut with
    | error => rfl
    | @ok cut found hrelated =>
      obtain ⟨chunk, next⟩ := cut
      obtain ⟨chunk', rest', hle⟩ := found
      obtain ⟨rfl, hnext, hrest'⟩ := hrelated
      dsimp only at hnext hrest' ⊢
      cases continues with
      | true =>
        simp only [if_true]
        show _ = outcomeFrom data.length packets (some (tag, body ++ chunk)) (data.drop next)
        rw [hrest', outcomeFrom]
        cases newBody data.length rest' with
        | error fault => rfl
        | ok found =>
          dsimp only
          rw [List.append_assoc]
      | false =>
        simp only [Bool.false_eq_true, if_false]
        show _ = outcomeFrom data.length (packets ++ [⟨_, body ++ chunk⟩]) none (data.drop next)
        rw [hrest', outcomeFrom_concat]

/-- One turn leaves to the rest of the walk what the reader makes of it. -/
theorem finish_step (h : walk.offset ≤ data.length) (hopen : ¬ walk.IsOver data) :
    walk.finish data = continued data (walk.step data) := by
  obtain ⟨offset, packets, pending⟩ := walk
  cases pending with
  | none =>
    exact finish_step_packet packets (lt_of_not_isOver hopen)
  | some started => exact finish_step_chunk packets started.1 started.2 h

/-! ## The whole walk -/

/-- The reader makes of a stream what it makes of it in front of the first packet. -/
theorem finish_start (data : Octets) : finish data {} = readPackets data := by
  show (packetsFrom data.length data).map ([] ++ ·) = _
  unfold readPackets
  cases packetsFrom data.length data <;> rfl

/-- At the end of the walk, the outcome is its packets. -/
theorem finish_of_isOver (h : walk.IsOver data) : walk.finish data = .ok walk.packets := by
  obtain ⟨offset, packets, pending⟩ := walk
  obtain ⟨rfl, hend⟩ : pending = none ∧ data.length ≤ offset := h
  unfold finish outcomeFrom
  dsimp only
  rw [List.drop_eq_nil_of_le hend, packetsFrom]
  dsimp only [Except.map]
  rw [List.append_nil]

/-- No turn goes past the end of the stream. -/
theorem Reaches.offset_le {start : Walk} (h : Reaches data start walk)
    (hstart : start.offset ≤ data.length) : walk.offset ≤ data.length := by
  induction h with
  | refl => exact hstart
  | tail _ hturn ih => exact ((keeps_step ih hturn.1).post_of_ok _ hturn.2).2

/-- From any place, the walk stops with what the reader makes of what is left. -/
theorem exists_stops (h : walk.offset ≤ data.length) :
    ∃ last, Reaches data walk last ∧ last.Stops data (walk.finish data) := by
  -- On the number of octets that are left, of which each turn takes at least one.
  induction hn : data.length - walk.offset using Nat.strongRecOn generalizing walk with
  | ind n ih =>
    by_cases hover : walk.IsOver data
    · refine ⟨walk, .refl, ?_⟩
      rw [finish_of_isOver hover]
      exact ⟨hover, rfl⟩
    · have hkeeps := keeps_step h hover
      rw [finish_step h hover, continued]
      cases hturn : (walk.step data).outcome with
      | error fault => exact ⟨walk, .refl, hover, hturn⟩
      | ok next =>
        obtain ⟨hgrows, hnext⟩ := hkeeps.post_of_ok next hturn
        obtain ⟨last, hreaches, hstops⟩ := ih (data.length - next.offset) (by omega) hnext rfl
        exact ⟨last, .head ⟨hover, hturn⟩ hreaches, hstops⟩

/-- The walk over a stream looks at no octet past the end in any of its turns, and each turn goes on
by at least one octet but not past the end. So the walk stops, and it stops with the outcome of
reading the stream: with all packets at the end, or in a turn that fails. The fault of a stream is
true of it. -/
theorem walk_readPackets (data : Octets) :
    (∀ walk, Reaches data {} walk → ¬ walk.IsOver data →
      (walk.step data).Keeps data fun next =>
        walk.offset < next.offset ∧ next.offset ≤ data.length) ∧
      (∃ last, Reaches data {} last ∧ last.Stops data (readPackets data)) ∧
      ∀ fault, readPackets data = .error fault → fault.IsTruthful data := by
  have hturns (walk : Walk) (hreaches : Reaches data {} walk) (hopen : ¬ walk.IsOver data) :=
    keeps_step (hreaches.offset_le (Nat.zero_le _)) hopen
  have hstart : ({} : Walk).offset ≤ data.length := Nat.zero_le _
  obtain ⟨last, hreaches, hstops⟩ := exists_stops hstart
  rw [finish_start] at hstops
  refine ⟨hturns, ⟨last, hreaches, hstops⟩, fun fault hfault => ?_⟩
  -- The fault is that of the turn in which the walk stops.
  rw [hfault] at hstops
  exact (hturns last hreaches hstops.1).truthful_of_error fault hstops.2

end Walk

end Framing

end PgpInspect
