import Mathlib.Algebra.Order.Round
import Mathlib.Data.Nat.Cast.Field
import Mathlib.Data.Rat.Floor
import Mathlib.Data.Rat.Lemmas
import Mathlib.Tactic.Linarith
import PgpInspect.Proofs.Binary64

/-!
# Quotients of whole numbers

A quotient of natural numbers is rounded to a multiple of its unit, which is small where the
dividend is. So the quotient by a power of two is exact (`Binary64.divideBy_of_dvd`), and the whole
part of any other quotient is right (`Binary64.floor?_divideBy`): the quotient is rounded up by less
than what is missing to the next whole number.
-/

namespace PgpInspect.Binary64

/-- The rounded quotient by a positive natural number. -/
def divideBy (divisor : Nat) : Binary64 → Binary64
  | .finite a => ofRat (a / divisor)
  | number => number

/-- The greatest integer that is not above the number. -/
def floor? : Binary64 → Option Int
  | .finite a => some ⌊a⌋
  | _ => none

/-- The nearest integer, of two the greater one. -/
def round? : Binary64 → Option Int
  | .finite a => some (round a)
  | _ => none

/-! ## Quotients that are rounded to whole numbers -/

variable {num den places : Nat}

/-- A whole quotient is not rounded. -/
theorem roundQuotient_of_dvd (hden : 0 < den) (h : den ∣ num) :
    roundQuotient num den = num / den := by
  unfold roundQuotient
  dsimp only
  rw [Nat.mod_eq_zero_of_dvd h, if_pos hden]

/-- A quotient is not rounded below its whole part. -/
theorem div_le_roundQuotient (num den : Nat) : num / den ≤ roundQuotient num den := by
  unfold roundQuotient
  dsimp only
  split
  · exact le_rfl
  · split
    · exact Nat.le_succ _
    · exact Nat.le_add_right _ _

/-- A quotient is rounded up by one half at most. -/
theorem two_mul_roundQuotient_le (num den : Nat) :
    2 * (den * roundQuotient num den) ≤ 2 * num + den := by
  have hdivision := Nat.div_add_mod num den
  have hparity : num / den % 2 ≤ 1 := Nat.le_of_lt_succ (Nat.mod_lt _ (by decide))
  have hstep : den * (num / den + num / den % 2) ≤ den * (num / den) + den :=
    calc den * (num / den + num / den % 2)
        ≤ den * (num / den + 1) := Nat.mul_le_mul_left den (Nat.add_le_add_left hparity _)
      _ = den * (num / den) + den := Nat.mul_succ den _
  unfold roundQuotient
  dsimp only
  split
  · omega
  · split
    · rw [Nat.mul_add, Nat.mul_one]
      omega
    · omega

/-! ## Magnitudes -/

/-- The unit of a quotient is small where the dividend is. -/
theorem unitExponent_le (hne : num ≠ 0) (h : num < 2 ^ places) (den : Nat) :
    unitExponent num den ≤ max ((places : Int) - 53) (-1074) := by
  have hlog : num.log2 < places := (Nat.log2_lt hne).mpr h
  unfold unitExponent binaryExponent
  dsimp only
  split <;> omega

/-- A quotient is rounded to a multiple of a unit with a bound. -/
theorem exists_roundMagnitude_eq (h : num < 2 ^ places) (hplaces : places ≤ 53) (hden : 0 < den) :
    ∃ shift, 53 - places ≤ shift ∧
      roundMagnitude num den = (roundQuotient (num * 2 ^ shift) den : Rat) / (2 ^ shift : Nat) := by
  unfold roundMagnitude
  split
  · next hzero =>
    refine ⟨53 - places, le_rfl, ?_⟩
    rw [hzero, Nat.zero_mul, roundQuotient_of_dvd hden (Nat.dvd_zero den), Nat.zero_div]
    simp
  · next hne =>
    have hunit := unitExponent_le hne h den
    dsimp only
    split
    · next hsign =>
      have hzero : unitExponent num den = 0 := by omega
      refine ⟨0, by omega, ?_⟩
      rw [hzero, scale]
      simp
    · next hsign =>
      refine ⟨(-unitExponent num den).toNat, by omega, ?_⟩
      rw [scale, if_neg hsign, Rat.mkRat_eq_div]
      rfl

/-- A quotient by a divisor of the unit is exact. -/
theorem roundMagnitude_of_dvd (h : num < 2 ^ places) (hplaces : places ≤ 53)
    (hden : den ∣ 2 ^ (53 - places)) : roundMagnitude num den = (num : Rat) / den := by
  have hpos : 0 < den := Nat.pos_of_dvd_of_pos hden (by positivity)
  obtain ⟨shift, hshift, hmagnitude⟩ := exists_roundMagnitude_eq h hplaces hpos
  have hdvd : den ∣ 2 ^ shift := hden.trans (Nat.pow_dvd_pow 2 hshift)
  have hne : (den : Rat) ≠ 0 := by exact_mod_cast hpos.ne'
  rw [hmagnitude, roundQuotient_of_dvd hpos (Dvd.dvd.mul_left hdvd num),
    Nat.cast_div (Dvd.dvd.mul_left hdvd num) hne]
  push_cast
  field_simp

/-- The whole part of a quotient by a number that is small against the unit is not changed. -/
theorem floor_roundMagnitude (h : num < 2 ^ places) (hplaces : places ≤ 53) (hpos : 0 < den)
    (hden : den < 2 ^ (54 - places)) : ⌊roundMagnitude num den⌋ = ((num / den : Nat) : Int) := by
  obtain ⟨shift, hshift, hmagnitude⟩ := exists_roundMagnitude_eq h hplaces hpos
  have hunit : den < 2 * 2 ^ shift := by
    calc den < 2 ^ (54 - places) := hden
      _ ≤ 2 ^ (shift + 1) := Nat.pow_le_pow_right (by decide) (by omega)
      _ = 2 * 2 ^ shift := Nat.pow_succ'
  have hbelow : num / den * 2 ^ shift ≤ roundQuotient (num * 2 ^ shift) den := by
    rw [Nat.mul_comm, Nat.mul_comm num]
    exact (Nat.mul_div_le_mul_div_assoc _ num den).trans (div_le_roundQuotient _ den)
  -- The quotient is at most `1 / den` below the next whole number, and rounding adds less than that.
  have habove : roundQuotient (num * 2 ^ shift) den < (num / den + 1) * 2 ^ shift := by
    have hround := two_mul_roundQuotient_le (num * 2 ^ shift) den
    have hnext : num + 1 ≤ den * (num / den + 1) := Nat.lt_mul_div_succ num hpos
    refine Nat.lt_of_mul_lt_mul_left (a := 2 * den) ?_
    nlinarith
  rw [hmagnitude, Rat.floor_natCast_div_natCast]
  norm_cast
  exact Nat.div_eq_of_lt_le hbelow habove

/-! ## Quotients -/

/-- The whole part of a quotient is the quotient of natural numbers. -/
theorem floor_natCast_div (num den : Nat) :
    ⌊(num : Rat) / den⌋ = ((num / den : Nat) : Int) := by
  rw [Rat.floor_natCast_div_natCast]
  push_cast
  rfl

/-- A number that is not negative and small is rounded to its magnitude. -/
theorem ofRat_of_lt {value : Rat} (hsign : 0 ≤ value)
    (h : roundMagnitude value.num.natAbs value.den < (2 ^ 54 : Nat)) :
    ofRat value = .finite (roundMagnitude value.num.natAbs value.den) := by
  unfold ofRat
  dsimp only
  -- The bound of all finite numbers is compared, not computed.
  generalize hplaces : 1024 = places
  have hbound : 2 ^ 54 ≤ Nat.pow 2 places := Nat.pow_le_pow_right (by decide) (by omega)
  have hlimit : ¬((Nat.pow 2 places : Nat) : Rat) ≤ roundMagnitude value.num.natAbs value.den :=
    not_le.mpr (h.trans_le (Nat.cast_le.mpr hbound))
  rw [if_neg hlimit, if_neg (Int.not_lt.mpr (Rat.num_nonneg.mpr hsign))]

/-- A quotient of natural numbers in lowest terms has no greater ones. -/
theorem num_den_natCast_div (a : Nat) {divisor : Nat} (h : 0 < divisor) :
    ((a : Rat) / divisor).num.natAbs ≤ a ∧ ((a : Rat) / divisor).den ∣ divisor ∧
      ((((a : Rat) / divisor).num.natAbs : Nat) : Rat) / ((a : Rat) / divisor).den =
        (a : Rat) / divisor := by
  have hsign : 0 ≤ ((a : Rat) / divisor).num := Rat.num_nonneg.mpr (by positivity)
  have hquotient : (a : Rat) / divisor = Rat.divInt a divisor := by
    rw [Rat.divInt_eq_div]
    push_cast
    rfl
  have hden : ((a : Rat) / divisor).den ∣ divisor := by
    rw [hquotient]
    exact Int.natCast_dvd_natCast.mp (Rat.den_dvd a divisor)
  have hvalue : ((((a : Rat) / divisor).num.natAbs : Nat) : Rat) / ((a : Rat) / divisor).den =
      (a : Rat) / divisor := by
    have hnum : ((((a : Rat) / divisor).num.natAbs : Nat) : Int) = ((a : Rat) / divisor).num :=
      Int.natAbs_of_nonneg hsign
    have hcast := congrArg (Int.cast (R := Rat)) hnum
    rw [Int.cast_natCast] at hcast
    rw [hcast, Rat.num_div_den]
  refine ⟨?_, hden, hvalue⟩
  have hnum : ((a : Rat) / divisor).num ∣ (a : Int) := by
    rw [hquotient]
    exact Rat.num_dvd a (Int.natCast_ne_zero.mpr h.ne')
  rcases Nat.eq_zero_or_pos a with rfl | hpos
  · simp
  · exact Nat.le_of_dvd hpos (Int.natAbs_dvd_natAbs.mpr hnum)

variable {a divisor : Nat}

/-- The quotient by a divisor of the unit is exact. -/
theorem divideBy_of_dvd (places : Nat) (h : a < 2 ^ places) (hplaces : places ≤ 53)
    (hdivisor : divisor ∣ 2 ^ (53 - places)) :
    divideBy divisor (a : Binary64) = .finite ((a : Rat) / divisor) := by
  have hpos : 0 < divisor := Nat.pos_of_dvd_of_pos hdivisor (by positivity)
  obtain ⟨hnum, hden, hvalue⟩ := num_den_natCast_div a hpos
  have hmagnitude := roundMagnitude_of_dvd (hnum.trans_lt h) hplaces (hden.trans hdivisor)
  rw [hvalue] at hmagnitude
  have hlt : (a : Rat) / divisor < (2 ^ 54 : Nat) := by
    calc (a : Rat) / divisor ≤ a := div_le_self (by positivity) (by exact_mod_cast hpos)
      _ < (2 ^ 54 : Nat) := by
        exact_mod_cast h.trans_le (Nat.pow_le_pow_right (by decide) (by omega))
  show ofRat ((a : Rat) / divisor) = _
  rw [← hmagnitude] at hlt
  rw [ofRat_of_lt (by positivity) hlt, hmagnitude]

/-- The whole part of a quotient by a number that is small against the unit is right. -/
theorem floor?_divideBy (places : Nat) (h : a < 2 ^ places) (hplaces : places ≤ 53)
    (hpos : 0 < divisor) (hdivisor : divisor < 2 ^ (54 - places)) :
    floor? (divideBy divisor (a : Binary64)) = some ((a / divisor : Nat) : Int) := by
  obtain ⟨hnum, hden, hvalue⟩ := num_den_natCast_div a hpos
  have hdenPos := Nat.pos_of_dvd_of_pos hden hpos
  have hfloor := floor_roundMagnitude (hnum.trans_lt h) hplaces hdenPos
    ((Nat.le_of_dvd hpos hden).trans_lt hdivisor)
  have hsame : ((((a : Rat) / divisor).num.natAbs / ((a : Rat) / divisor).den : Nat) : Int) =
      ((a / divisor : Nat) : Int) := by
    rw [← floor_natCast_div, hvalue, floor_natCast_div]
  rw [hsame] at hfloor
  have hlt : roundMagnitude ((a : Rat) / divisor).num.natAbs ((a : Rat) / divisor).den <
      (2 ^ 54 : Nat) := by
    have hquotient : a / divisor + 1 ≤ 2 ^ 54 := by
      have hpow : 2 ^ places ≤ 2 ^ 53 := Nat.pow_le_pow_right (by decide) hplaces
      have hdiv := Nat.div_le_self a divisor
      omega
    calc roundMagnitude ((a : Rat) / divisor).num.natAbs ((a : Rat) / divisor).den
        < (⌊roundMagnitude ((a : Rat) / divisor).num.natAbs ((a : Rat) / divisor).den⌋ : Rat) + 1 :=
          Int.lt_floor_add_one _
      _ = ((a / divisor + 1 : Nat) : Rat) := by
        rw [hfloor]
        push_cast
        rfl
      _ ≤ (2 ^ 54 : Nat) := by exact_mod_cast hquotient
  show floor? (ofRat ((a : Rat) / divisor)) = _
  rw [ofRat_of_lt (by positivity) hlt]
  exact congrArg some hfloor

end PgpInspect.Binary64
