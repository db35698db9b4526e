import Mathlib.Data.Nat.Digits.Lemmas
import PgpInspect.Key.Size
import PgpInspect.Proofs.Binary64

/-!
# Curve identifiers are shown as they were written

An object identifier is a sequence of numbers; in a packet it is octets (`ObjectIdentifier.octets`)
and for a reader it is text (`ObjectIdentifier.text`). As long as its numbers are below `2 ^ 53`,
`Curve.dotted` turns the octets into the text: `arcsFrom_octetsOfArc` reads the digits of one number
in base 128, whose intermediate values are its quotients by powers of 128 and so never rounded, and
the numbers follow one after the other. The text tells its numbers apart, since digits are no
points, so that a curve has the size of the table (`knownCurves`) exactly if its numbers are there.
-/

namespace PgpInspect

/-- A natural number of at most 53 bits is shown as its numeral. -/
theorem Binary64.text_natCast {n : Nat} (h : n < 2 ^ 53) : (n : Binary64).text = n.repr := by
  have hsafe : n ≤ greatestSafe := by
    unfold greatestSafe
    exact Nat.le_sub_one_of_lt h
  have hnum : ((n : Rat)).num = (n : Int) := Rat.num_natCast n
  have hden : ((n : Rat)).den = 1 := Rat.den_natCast n
  have hdigits : (n : Binary64).decimalDigits = Nat.toDigits 10 n := by
    show (Binary64.finite (n : Rat)).decimalDigits = _
    simp [decimalDigits, hnum, hden, hsafe]
  rw [text, hdigits, ← Nat.toList_repr, String.ofList_toList]

namespace Curve

/-! ## Dotted numbers -/

/-- Numbers in decimal with points between. -/
def dottedText (numbers : List Nat) : String := String.intercalate "." (numbers.map Nat.repr)

/-- The numeral of a number has no point. -/
theorem point_not_mem_repr (n : Nat) : '.' ∉ n.repr.toList := by
  intro hpoint
  rw [Nat.toList_repr] at hpoint
  have hdigit : ('.' : Char).isDigit = true :=
    Nat.isDigit_of_mem_toDigits (by decide) (by decide) hpoint
  exact absurd hdigit (by decide)

/-- The numerals are the parts of the text between its points. -/
theorem splitOn_dottedText {numbers : List Nat} (h : numbers ≠ []) :
    (dottedText numbers).toList.splitOn '.' = numbers.map fun n => n.repr.toList := by
  have hparts : (dottedText numbers).toList =
      ['.'].intercalate (numbers.map fun n => n.repr.toList) := by
    rw [dottedText, String.toList_intercalate, List.map_map]
    rfl
  rw [hparts, List.splitOn_intercalate]
  · intro part hpart
    obtain ⟨n, -, rfl⟩ := List.mem_map.mp hpart
    exact point_not_mem_repr n
  · simpa using h

/-- Different numbers have different texts. -/
theorem dottedText_inj {numbers numbers' : List Nat} (h : numbers ≠ []) (h' : numbers' ≠ []) :
    dottedText numbers = dottedText numbers' ↔ numbers = numbers' := by
  constructor
  · intro htext
    have hparts := splitOn_dottedText h
    rw [htext, splitOn_dottedText h'] at hparts
    -- A number is read back from the digits of its numeral.
    have hread (n : Nat) : Nat.ofDigitChars 10 n.repr.toList 0 = n := by
      rw [Nat.toList_repr, Nat.ofDigitChars_ten_toDigits]
    have hinjective : Function.Injective fun n : Nat => n.repr.toList :=
      Function.LeftInverse.injective hread
    exact (List.map_injective_iff.mpr hinjective hparts).symm
  · intro hnumbers
    rw [hnumbers]

/-- The text of at least one number is not empty. -/
theorem isEmpty_dottedText {numbers : List Nat} (h : numbers ≠ []) :
    (dottedText numbers).isEmpty = false := by
  by_contra hempty
  rw [Bool.not_eq_false, String.isEmpty_iff] at hempty
  have hparts := splitOn_dottedText h
  -- The empty text has one part, which is empty, but no numeral is.
  have hmem : [] ∈ numbers.map fun n => n.repr.toList := by
    rw [← hparts, hempty]
    decide
  obtain ⟨n, -, hrepr⟩ := List.mem_map.mp hmem
  exact Nat.repr_ne_empty (String.toList_eq_nil_iff.mp hrepr)

/-! ## The table -/

/-- The curves of known size: the numbers of the identifier and the field size in bits. -/
def knownCurves : List (List Nat × Nat) :=
  [ ([1, 2, 840, 10045, 3, 1, 7], 256), ([1, 3, 132, 0, 34], 384), ([1, 3, 132, 0, 35], 521),
    ([1, 3, 132, 0, 10], 256), ([1, 3, 36, 3, 3, 2, 8, 1, 1, 7], 256),
    ([1, 3, 36, 3, 3, 2, 8, 1, 1, 11], 384), ([1, 3, 36, 3, 3, 2, 8, 1, 1, 13], 512),
    ([1, 3, 6, 1, 4, 1, 11591, 15, 1], 256), ([1, 3, 6, 1, 4, 1, 3029, 1, 5, 1], 256),
    ([1, 3, 101, 110], 256), ([1, 3, 101, 111], 448), ([1, 3, 101, 112], 256),
    ([1, 3, 101, 113], 448) ]

/-- A curve of the table has its size under the text of its numbers. -/
theorem bits_of_mem {curve : List Nat × Nat} (h : curve ∈ knownCurves) :
    bits (dottedText curve.1) = curve.2 := by
  have hall : ∀ curve ∈ knownCurves, bits (dottedText curve.1) = curve.2 := by decide
  exact hall curve h

/-- No other text has a size. -/
theorem bits_of_forall_ne {identifier : String}
    (h : ∀ curve ∈ knownCurves, identifier ≠ dottedText curve.1) : bits identifier = 0 := by
  have htexts : knownCurves.map (fun curve => dottedText curve.1) =
      [ "1.2.840.10045.3.1.7", "1.3.132.0.34", "1.3.132.0.35", "1.3.132.0.10",
        "1.3.36.3.3.2.8.1.1.7", "1.3.36.3.3.2.8.1.1.11", "1.3.36.3.3.2.8.1.1.13",
        "1.3.6.1.4.1.11591.15.1", "1.3.6.1.4.1.3029.1.5.1", "1.3.101.110", "1.3.101.111",
        "1.3.101.112", "1.3.101.113" ] := by rfl
  have hunknown : identifier ∉ knownCurves.map fun curve => dottedText curve.1 := by
    intro hmem
    obtain ⟨curve, hcurve, htext⟩ := List.mem_map.mp hmem
    exact h curve hcurve htext.symm
  rw [htexts] at hunknown
  unfold bits
  split <;> first | rfl | exact absurd (by decide) hunknown

/-- The size of a curve is what the table says of its numbers. -/
theorem bits_dottedText {numbers : List Nat} (h : numbers ≠ []) :
    bits (dottedText numbers) = (knownCurves.lookup numbers).getD 0 := by
  cases hlookup : knownCurves.lookup numbers with
  | none =>
    refine bits_of_forall_ne fun curve hcurve htext => ?_
    have hnumbers : curve.1 ≠ [] := by
      have hall : ∀ curve ∈ knownCurves, curve.1 ≠ [] := by decide
      exact hall curve hcurve
    have hne := List.lookup_eq_none_iff.mp hlookup curve hcurve
    exact bne_iff_ne.mp hne ((dottedText_inj h hnumbers).mp htext)
  | some size =>
    obtain ⟨front, behind, htable, -⟩ := List.lookup_eq_some_iff.mp hlookup
    have hmem : (numbers, size) ∈ knownCurves := by
      rw [htable]
      simp
    exact bits_of_mem hmem

/-! ## Numbers in base 128 -/

/-- The base-128 digits of a number, most significant first and none for zero, each in an octet with
the top bit set. -/
def continuedOctets (n : Nat) : Octets :=
  (Nat.digits 128 n).reverse.map fun digit => UInt8.ofNat (128 + digit)

/-- The shortest octets of a number in base 128: the last digit without the top bit, and the others
with it. -/
def octetsOfArc (n : Nat) : Octets := continuedOctets (n / 128) ++ [UInt8.ofNat (n % 128)]

/-- The digits of a number are those of its quotient and the last one. -/
theorem continuedOctets_of_pos {n : Nat} (h : 0 < n) :
    continuedOctets n = continuedOctets (n / 128) ++ [UInt8.ofNat (128 + n % 128)] := by
  unfold continuedOctets
  rw [Nat.digits_def' (by decide) h, List.reverse_cons, List.map_append, List.map_singleton]

/-- No octet of a number could be left out: the first has a digit, unless it is the only one. -/
theorem head?_octetsOfArc_ne (n : Nat) : (octetsOfArc n).head? ≠ some 0x80 := by
  have htop {digit : Nat} (h : digit < 128) (h0 : digit ≠ 0) :
      UInt8.ofNat (128 + digit) ≠ 0x80 := by
    intro heq
    have hnat := congrArg UInt8.toNat heq
    rw [UInt8.toNat_ofNat'] at hnat
    change _ = 128 at hnat
    omega
  unfold octetsOfArc continuedOctets
  rcases Nat.eq_zero_or_pos (n / 128) with hzero | hpos
  · have hlast : (UInt8.ofNat (n % 128)).toNat ≠ 128 := by
      rw [UInt8.toNat_ofNat']
      omega
    rw [hzero]
    intro hhead
    exact hlast (congrArg UInt8.toNat (Option.some.inj hhead))
  · have hdigits : Nat.digits 128 (n / 128) ≠ [] := Nat.digits_ne_nil_iff_ne_zero.mpr hpos.ne'
    have hmem := List.getLast_mem hdigits
    have hlt := Nat.digits_lt_base (by decide) hmem
    have hne := Nat.getLast_digit_ne_zero 128 hpos.ne'
    rw [List.head?_append, List.head?_map, List.head?_reverse,
      List.getLast?_eq_some_getLast hdigits]
    exact fun hhead => htop hlt hne (Option.some.inj hhead)

/-- One more digit is read without rounding, and goes on or ends the number by its top bit. -/
theorem arcsFrom_digit {value digit : Nat} (hdigit : digit < 128) (h : value * 128 + digit < 2 ^ 53)
    (rest : Octets) :
    arcsFrom (value : Binary64) (UInt8.ofNat (128 + digit) :: rest) =
        arcsFrom ((value * 128 + digit : Nat) : Binary64) rest ∧
      arcsFrom (value : Binary64) (UInt8.ofNat digit :: rest) =
        ((value * 128 + digit : Nat) : Binary64) :: arcsFrom 0 rest := by
  have hnext : (value : Binary64).scaleBy 128 + (digit : Binary64) =
      ((value * 128 + digit : Nat) : Binary64) := by
    rw [Binary64.scaleBy_natCast (by omega), Binary64.natCast_add_natCast h]
  have hcontinued : (UInt8.ofNat (128 + digit)).toNat = 128 + digit := by
    rw [UInt8.toNat_ofNat']
    omega
  have hlast : (UInt8.ofNat digit).toNat = digit := by
    rw [UInt8.toNat_ofNat']
    omega
  have hlow : (128 + digit) % 128 = digit := by omega
  constructor
  · rw [arcsFrom, hcontinued, hlow, hnext, if_neg (by omega)]
  · rw [arcsFrom, hlast, Nat.mod_eq_of_lt hdigit, hnext, if_pos hdigit]

/-- The continued digits of a number leave it as the value so far. -/
theorem arcsFrom_continuedOctets {n : Nat} (h : n < 2 ^ 53) (rest : Octets) :
    arcsFrom 0 (continuedOctets n ++ rest) = arcsFrom (n : Binary64) rest := by
  -- The induction is on the number: what is read before its last digit is its quotient.
  induction n using Nat.strongRecOn generalizing rest with
  | ind n ih =>
    rcases Nat.eq_zero_or_pos n with rfl | hpos
    · rfl
    · have hquotient : n / 128 < n := Nat.div_lt_self hpos (by decide)
      have hlast : n % 128 < 128 := Nat.mod_lt n (by decide)
      have hvalue : n / 128 * 128 + n % 128 = n := Nat.div_add_mod' n 128
      have hdigit := (arcsFrom_digit hlast (by rwa [hvalue]) rest).1
      rw [continuedOctets_of_pos hpos, List.append_assoc, ih (n / 128) hquotient (by omega)]
      rwa [hvalue] at hdigit

/-- A number below `2 ^ 53` is read from its octets, and what follows them is read afresh. -/
theorem arcsFrom_octetsOfArc {n : Nat} (h : n < 2 ^ 53) (rest : Octets) :
    arcsFrom 0 (octetsOfArc n ++ rest) = (n : Binary64) :: arcsFrom 0 rest := by
  have hlast : n % 128 < 128 := Nat.mod_lt n (by decide)
  have hvalue : n / 128 * 128 + n % 128 = n := Nat.div_add_mod' n 128
  have hdigit := (arcsFrom_digit hlast (by rwa [hvalue]) rest).2
  rw [octetsOfArc, List.append_assoc, arcsFrom_continuedOctets (by omega)]
  rwa [hvalue] at hdigit

/-- Numbers are read from their octets in order. -/
theorem arcsFrom_flatMap {later : List Nat} (h : ∀ n ∈ later, n < 2 ^ 53) :
    arcsFrom 0 (later.flatMap octetsOfArc) = later.map fun n : Nat => (n : Binary64) := by
  induction later with
  | nil => rfl
  | cons n rest ih =>
    obtain ⟨hn, hrest⟩ := List.forall_mem_cons.mp h
    rw [List.flatMap_cons, arcsFrom_octetsOfArc hn, ih hrest, List.map_cons]

end Curve

/-! ## Identifiers -/

/-- An object identifier whose numbers are binary64 numbers: two that share an octet, and the
others. -/
structure ObjectIdentifier where
  /-- The first number. -/
  first : Nat
  /-- The second number. -/
  second : Nat
  /-- The other numbers. -/
  later : List Nat
  /-- There are three roots. -/
  first_le : first ≤ 2
  /-- The second number is a digit in base 40. -/
  second_le : second ≤ 39
  /-- The other numbers are exact. -/
  later_lt : ∀ n ∈ later, n < 2 ^ 53

namespace ObjectIdentifier

/-- All numbers of an identifier. -/
def numbers (identifier : ObjectIdentifier) : List Nat :=
  identifier.first :: identifier.second :: identifier.later

/-- The octets that write an identifier. -/
def octets (identifier : ObjectIdentifier) : Octets :=
  UInt8.ofNat (40 * identifier.first + identifier.second) ::
    identifier.later.flatMap Curve.octetsOfArc

/-- The text of an identifier: its numbers in decimal with points between. -/
def text (identifier : ObjectIdentifier) : String := Curve.dottedText identifier.numbers

/-- An identifier has at least two numbers. -/
theorem numbers_ne_nil (identifier : ObjectIdentifier) : identifier.numbers ≠ [] :=
  List.cons_ne_nil _ _

/-- The numbers determine the identifier. -/
theorem numbers_inj {identifier other : ObjectIdentifier} :
    identifier.numbers = other.numbers ↔ identifier = other := by
  obtain ⟨first, second, later, _, _, _⟩ := identifier
  obtain ⟨first', second', later', _, _, _⟩ := other
  simp [numbers]

/-- The octets of an identifier are read as its numbers. -/
theorem arcs_octets (identifier : ObjectIdentifier) :
    Curve.arcs identifier.octets = identifier.numbers.map fun n : Nat => (n : Binary64) := by
  obtain ⟨first, second, later, hfirst, hsecond, hlater⟩ := identifier
  have hshared : (UInt8.ofNat (40 * first + second)).toNat = 40 * first + second := by
    rw [UInt8.toNat_ofNat']
    omega
  have hquotient : (40 * first + second) / 40 = first := by omega
  have hremainder : (40 * first + second) % 40 = second := by omega
  simp only [octets, numbers, Curve.arcs, hshared, hquotient, hremainder,
    Curve.arcsFrom_flatMap hlater, List.map_cons]

/-- The octets of an identifier are shown as its text. -/
theorem dotted_octets (identifier : ObjectIdentifier) :
    Curve.dotted identifier.octets = identifier.text := by
  have hexact : ∀ n ∈ identifier.numbers, n < 2 ^ 53 := by
    have hfirst := identifier.first_le
    have hsecond := identifier.second_le
    intro n hn
    rcases List.mem_cons.mp hn with rfl | hn
    · omega
    · rcases List.mem_cons.mp hn with rfl | hn
      · omega
      · exact identifier.later_lt n hn
  have htexts : (identifier.numbers.map fun n : Nat => (n : Binary64).text) =
      identifier.numbers.map Nat.repr :=
    List.map_congr_left fun n hn => Binary64.text_natCast (hexact n hn)
  rw [Curve.dotted, arcs_octets, List.map_map, text, Curve.dottedText, ← htexts]
  rfl

/-- The octets of the identifier of NIST P-256. -/
example : octets ⟨1, 2, [840, 10045, 3, 1, 7], by decide, by decide, by decide⟩ =
    [0x2A, 0x86, 0x48, 0xCE, 0x3D, 0x03, 0x01, 0x07] := by decide +kernel

/-- An identifier, whose octets are the shortest for each of its numbers, is shown by them as it is;
no other identifier is shown alike, and a key on a curve has the size that the table has for the
numbers of the curve's identifier, 0 if it has none. -/
theorem identifies_octets (identifier : ObjectIdentifier) :
    (∀ n ∈ identifier.later, (Curve.octetsOfArc n).head? ≠ some 0x80) ∧
      Curve.dotted identifier.octets = identifier.text ∧
      (∀ other : ObjectIdentifier,
        Curve.dotted other.octets = Curve.dotted identifier.octets ↔ other = identifier) ∧
      ∀ key : PublicKey,
        ({ key with modulus := none, curve := some (Curve.dotted identifier.octets) } :
          PublicKey).size = (Curve.knownCurves.lookup identifier.numbers).getD 0 := by
  refine ⟨fun n _ => Curve.head?_octetsOfArc_ne n, identifier.dotted_octets, fun other => ?_,
    fun key => ?_⟩
  · rw [dotted_octets, dotted_octets]
    exact (Curve.dottedText_inj other.numbers_ne_nil identifier.numbers_ne_nil).trans numbers_inj
  · have hempty := Curve.isEmpty_dottedText identifier.numbers_ne_nil
    have hbits := Curve.bits_dottedText identifier.numbers_ne_nil
    simp only [PublicKey.size, dotted_octets, text, hempty, hbits, Bool.false_eq_true, if_false]

end ObjectIdentifier

end PgpInspect
