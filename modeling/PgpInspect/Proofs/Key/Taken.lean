import Mathlib.Data.List.TakeWhile
import PgpInspect.Key.Binding
import PgpInspect.Proofs.Assembly.Ownership
import PgpInspect.Proofs.Assembly.Tracking

/-!
# The subpackets that a key takes

A signature is taken up to its first subpacket that is too short (`Signature.taken`). What signatures
make of a key is one pass over all subpackets taken (`Key.signedBy_eq_foldl`), so that what holds of
the key in the end is shown for one subpacket and carried over that pass.
-/

namespace PgpInspect

/-! ## One signature -/

/-- A subpacket that stops its signature: a key expiration with fewer than four octets, or key flags
without any. -/
def Subpacket.Stops (subpacket : Subpacket) : Prop :=
  subpacket.type = keyExpiration ∧ subpacket.data.length < 4 ∨
    subpacket.type = keyFlags ∧ subpacket.data = []

instance : DecidablePred Subpacket.Stops := fun subpacket =>
  inferInstanceAs (Decidable (subpacket.type = Subpacket.keyExpiration ∧ subpacket.data.length < 4 ∨
    subpacket.type = Subpacket.keyFlags ∧ subpacket.data = []))

/-- What is wrong with a subpacket that stops its signature. -/
def Subpacket.stopCause (subpacket : Subpacket) : FieldCause :=
  if subpacket.type = keyExpiration then .shortExpiration else .emptyFlags

/-- The subpackets of a signature in front of the first that stops it. -/
def Signature.taken (signature : Signature) : List Subpacket :=
  signature.subpackets.takeWhile fun subpacket => ¬ subpacket.Stops

namespace Key

/-- A key after a subpacket that does not stop its signature. -/
def take (key : Key) (subpacket : Subpacket) : Key :=
  if subpacket.type = Subpacket.keyExpiration then
    key.applyExpiration (leadingWord subpacket.data : Binary64)
  else if subpacket.type = Subpacket.keyFlags then
    match subpacket.data with
    | [] => key
    | flags :: _ => key.applyFlags flags.toNat
  else key

/-- A subpacket is refused for what is wrong with it if it stops its signature, and taken otherwise.
-/
theorem applySubpacket_cases (key : Key) (subpacket : Subpacket) :
    (subpacket.Stops ∧ key.applySubpacket subpacket = .error subpacket.stopCause) ∨
      (¬ subpacket.Stops ∧ key.applySubpacket subpacket = .ok (key.take subpacket)) := by
  obtain ⟨type, critical, data⟩ := subpacket
  have hdistinct : Subpacket.keyFlags ≠ Subpacket.keyExpiration := by decide
  unfold applySubpacket take Subpacket.Stops Subpacket.stopCause
  dsimp only
  by_cases hexpiration : type = Subpacket.keyExpiration
  · subst hexpiration
    by_cases hlength : data.length < 4
    · exact .inl ⟨.inl ⟨rfl, hlength⟩, by simp [hlength]⟩
    · exact .inr ⟨by simp [hlength, hdistinct.symm], by simp [hlength]⟩
  · by_cases hflags : type = Subpacket.keyFlags
    · subst hflags
      cases data with
      | nil => exact .inl ⟨.inr ⟨rfl, rfl⟩, by simp [hdistinct]⟩
      | cons flags rest => exact .inr ⟨by simp [hdistinct], by simp [hdistinct]⟩
    · exact .inr ⟨by simp [hexpiration, hflags], by simp [hexpiration, hflags]⟩

/-- Subpackets are taken in order up to the first that stops their signature. -/
theorem applySubpackets_fst (key : Key) (subpackets : List Subpacket) :
    (key.applySubpackets subpackets).1 =
      (subpackets.takeWhile fun subpacket => ¬ subpacket.Stops).foldl take key := by
  induction subpackets generalizing key with
  | nil => rfl
  | cons subpacket rest ih =>
    rw [applySubpackets]
    rcases key.applySubpacket_cases subpacket with ⟨hstops, hrefused⟩ | ⟨hstops, htaken⟩
    · rw [hrefused, List.takeWhile_cons_of_neg (by simpa using hstops)]
      rfl
    · rw [htaken, List.takeWhile_cons_of_pos (by simpa using hstops), List.foldl_cons]
      exact ih (key.take subpacket)

/-- A signature is the subpackets that are taken of it. -/
theorem applySignature_fst (key : Key) (signature : Signature) :
    (key.applySignature signature).1 = signature.taken.foldl take key :=
  applySubpackets_fst key signature.subpackets

/-! ## All signatures -/

/-- The subpackets that are taken of signatures. -/
def takenOf (signatures : List (Signature × Nat)) : List Subpacket :=
  signatures.flatMap fun (signature, _) => signature.taken

/-- The key of a packet under signatures. -/
def signedBy (signatures : List (Signature × Nat)) (packet : PublicKey) : Key :=
  signatures.foldl (fun key (signature, _) => (key.applySignature signature).1)
    (Assembly.keyOf packet)

/-- Signatures are the subpackets that are taken of them. -/
theorem signedBy_eq_foldl (signatures : List (Signature × Nat)) (packet : PublicKey) :
    signedBy signatures packet = (takenOf signatures).foldl take (Assembly.keyOf packet) := by
  unfold signedBy takenOf
  rw [List.foldl_flatMap]
  congr 1
  funext key item
  exact key.applySignature_fst item.1

end Key

namespace Ownership

/-- The key of a packet in a stream is that packet under the signatures that bind to it. -/
theorem signedKey_eq_signedBy (records : List PacketRecord) (place : PublicKey × Nat) :
    signedKey records place = Key.signedBy (signaturesOn place.2 records) place.1 := rfl

/-- The assembled keys are those of the stream. -/
theorem assembleKeys_fst_eq (records : List PacketRecord) :
    (assembleKeys records).1 = keys records := by
  rw [Assembly.assembleKeys_fst, (tracks_after records).keys_eq]

end Ownership

end PgpInspect
