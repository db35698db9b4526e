import Mathlib.Data.Nat.Digits.Lemmas
import PgpInspect.Proofs.Octets

/-!
# Hexadecimal digits

The hexadecimal text of octets is followed as the list of the values of its digits, most significant
first (`Octets.nibbles`), two for each octet. Without the zeros in front they are the digits of the
number that the octets write (`Octets.reverse_dropWhile_nibbles`); the library has these the other
way round.
-/

namespace PgpInspect.Octets

/-- The values of the hexadecimal digits that write octets, two for each. -/
def nibbles (octets : Octets) : List Nat :=
  octets.flatMap fun octet => [octet.toNat / 16, octet.toNat % 16]

/-- The value of a digit is below 16. -/
theorem lt_of_mem_nibbles {octets : Octets} {nibble : Nat} (h : nibble ∈ octets.nibbles) :
    nibble < 16 := by
  obtain ⟨octet, -, hnibble⟩ := List.mem_flatMap.mp h
  have hoctet := octet.toNat_lt
  rcases List.mem_pair.mp hnibble with rfl | rfl <;> omega

/-- Digits are characters of their values. -/
theorem hexDigits_eq_map (octets : Octets) :
    octets.hexDigits = octets.nibbles.map Nat.digitChar := by
  rw [hexDigits, nibbles, List.map_flatMap]
  rfl

/-- The digits of octets write their number. -/
theorem ofDigits_reverse_nibbles (octets : Octets) :
    Nat.ofDigits 16 octets.nibbles.reverse = octets.toNat := by
  induction octets with
  | nil => rfl
  | cons octet rest ih =>
    have hcons : (nibbles (octet :: rest)).reverse =
        (nibbles rest).reverse ++ [octet.toNat % 16, octet.toNat / 16] := by
      simp [nibbles]
    have hlength : (nibbles rest).reverse.length = 2 * rest.length := by
      rw [List.length_reverse, ← length_hexDigits rest, hexDigits_eq_map, List.length_map]
    have hoctet : Nat.ofDigits 16 [octet.toNat % 16, octet.toNat / 16] = octet.toNat := by
      simp only [Nat.ofDigits_cons, Nat.ofDigits_nil]
      omega
    rw [hcons, Nat.ofDigits_append, ih, hlength, hoctet, pow_mul, toNat_cons]
    ring

/-- Zeros in front do not change the number that digits write. -/
theorem ofDigits_reverse_dropWhile (nibbles : List Nat) :
    Nat.ofDigits 16 (nibbles.dropWhile (· == 0)).reverse = Nat.ofDigits 16 nibbles.reverse := by
  induction nibbles with
  | nil => rfl
  | cons nibble rest ih =>
    by_cases hzero : nibble = 0
    · rw [List.dropWhile_cons_of_pos (by simpa using hzero), ih, hzero, List.reverse_cons,
        Nat.ofDigits_append_zero]
    · rw [List.dropWhile_cons_of_neg (by simpa using hzero)]

/-- Without the zeros in front, the digits of octets are those of their number. -/
theorem reverse_dropWhile_nibbles (octets : Octets) :
    (octets.nibbles.dropWhile (· == 0)).reverse = Nat.digits 16 octets.toNat := by
  rw [← ofDigits_reverse_nibbles, ← ofDigits_reverse_dropWhile, Nat.digits_ofDigits 16 (by decide)]
  · intro nibble hnibble
    rw [List.mem_reverse] at hnibble
    exact lt_of_mem_nibbles (List.dropWhile_subset _ hnibble)
  · intro hne
    have hhead := List.head_dropWhile_not (· == 0) (List.reverse_ne_nil_iff.mp hne)
    rw [List.getLast_reverse]
    simpa using hhead

/-- A digit is written as a zero only if it is zero. -/
theorem digitChar_table : ∀ nibble < 16, (Nat.digitChar nibble == '0') = (nibble == 0) := by
  decide

/-- The digits that are left without the zeros in front are as many as the number has. -/
theorem length_dropWhile_hexDigits (octets : Octets) :
    (octets.hexDigits.dropWhile (· == '0')).length = (Nat.digits 16 octets.toNat).length := by
  have hdrop (nibbles : List Nat) (h : ∀ nibble ∈ nibbles, nibble < 16) :
      ((nibbles.map Nat.digitChar).dropWhile (· == '0')).length =
        (nibbles.dropWhile (· == 0)).length := by
    induction nibbles with
    | nil => rfl
    | cons nibble rest ih =>
      have hchar := digitChar_table nibble (h nibble List.mem_cons_self)
      rw [List.map_cons, List.dropWhile_cons, List.dropWhile_cons, hchar]
      split
      · exact ih fun other hother => h other (List.mem_cons_of_mem _ hother)
      · rw [List.length_cons, List.length_cons, List.length_map]
  rw [← reverse_dropWhile_nibbles, List.length_reverse, hexDigits_eq_map]
  exact hdrop _ fun _ => lt_of_mem_nibbles

/-- Zeros in front do not change a number. -/
theorem toNat_replicate_append (count : Nat) (octets : Octets) :
    toNat (List.replicate count 0 ++ octets) = octets.toNat := by
  induction count with
  | zero => rfl
  | succ count ih =>
    rw [List.replicate_succ, List.cons_append, toNat_cons, ih]
    simp

end PgpInspect.Octets
