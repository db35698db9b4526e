import PgpInspect.Proofs.Packet.PublicKey

/-!
# Key packets as they are written

A key is written as a heading and the public fields of its algorithm: version, creation time, in
versions 2 and 3 the days of validity, algorithm, and in versions 5 and 6 the number of octets of
the fields. `WrittenKey` is such a key of any version and algorithm, and its parts carry the bounds
of the places that they are written in, so that nothing that is not a key can be built.

What is written is read back (`PublicKey.ofPacket_written`), with any octets behind it, such as
secret material. The readers are followed field by field: each consumes exactly the octets of its
field (`Reading.Reads`), so the public part ends where the last field does. The fingerprint covers
this part and nothing else, and its length is never too large for the two octets that version 4 has
for it.
-/

namespace PgpInspect

/-! ## Public fields -/

/-- A multiprecision integer: a number of bits, and as many octets as hold that many bits. -/
structure WrittenInteger where
  /-- The number of bits. -/
  bits : Nat
  /-- The octets. -/
  octets : Octets
  /-- The number of bits is written in two octets. -/
  bits_lt : bits < 2 ^ 16
  /-- The last bits may not fill an octet. -/
  length_octets : octets.length = (bits + 7) / 8

/-- The octets that write an integer. -/
def WrittenInteger.written (integer : WrittenInteger) : Octets :=
  Octets.ofNat 2 integer.bits ++ integer.octets

/-- A curve identifier. Its number of octets is written in one octet, and neither 0 nor 255. -/
structure WrittenCurve where
  /-- The octets of the identifier. -/
  octets : Octets
  /-- There is at least one. -/
  length_pos : 1 ≤ octets.length
  /-- There are at most 254. -/
  length_le : octets.length ≤ 254

/-- The octets that write a curve identifier. -/
def WrittenCurve.written (curve : WrittenCurve) : Octets :=
  Octets.ofNat 1 curve.octets.length ++ curve.octets

/-- The parameters of a key derivation. Their number of octets is written in one octet. -/
structure WrittenParameters where
  /-- The octets of the parameters. -/
  octets : Octets
  /-- There are at most 255. -/
  length_le : octets.length ≤ 255

/-- The octets that write parameters. -/
def WrittenParameters.written (parameters : WrittenParameters) : Octets :=
  Octets.ofNat 1 parameters.octets.length ++ parameters.octets

/-- The public fields of a key of the algorithm. -/
inductive WrittenFields (algorithm : Nat) where
  /-- Modulus and exponent of an RSA key. -/
  | rsa (halgorithm : algorithm = 1 ∨ algorithm = 2 ∨ algorithm = 3)
      (modulus exponent : WrittenInteger)
  /-- Prime, generator and public value of an Elgamal key. -/
  | elgamal (halgorithm : algorithm = 16 ∨ algorithm = 20)
      (prime generator value : WrittenInteger)
  /-- Prime, group order, generator and public value of a DSA key. -/
  | dsa (halgorithm : algorithm = 17) (prime order generator value : WrittenInteger)
  /-- Curve, point and key derivation parameters of an ECDH key. -/
  | curvePointDerivation (halgorithm : algorithm = 18) (curve : WrittenCurve)
      (point : WrittenInteger) (parameters : WrittenParameters)
  /-- Curve and point of an ECDSA or EdDSA key. -/
  | curvePoint (halgorithm : algorithm = 19 ∨ algorithm = 22) (curve : WrittenCurve)
      (point : WrittenInteger)
  /-- The octets of an X25519, X448, Ed25519 or Ed448 key, as many as the algorithm has. -/
  | native (octets : Octets)
      (hlength : (algorithm = 25 ∨ algorithm = 27) ∧ octets.length = 32 ∨
        algorithm = 26 ∧ octets.length = 56 ∨ algorithm = 28 ∧ octets.length = 57)

namespace WrittenFields

variable {algorithm : Nat}

/-- The octets that write the fields. -/
def written : WrittenFields algorithm → Octets
  | rsa _ modulus exponent => modulus.written ++ exponent.written
  | elgamal _ prime generator value => prime.written ++ (generator.written ++ value.written)
  | dsa _ prime order generator value =>
    prime.written ++ (order.written ++ (generator.written ++ value.written))
  | curvePointDerivation _ curve point parameters =>
    curve.written ++ (point.written ++ parameters.written)
  | curvePoint _ curve point => curve.written ++ point.written
  | native octets _ => octets

/-- The octets of the number that determines the key size. -/
def modulus : WrittenFields algorithm → Option Octets
  | rsa _ modulus _ => some modulus.octets
  | elgamal _ prime _ _ | dsa _ prime _ _ _ => some prime.octets
  | curvePointDerivation .. | curvePoint .. | native .. => none

/-- The octets of the RSA exponent. -/
def exponent : WrittenFields algorithm → Option Octets
  | rsa _ _ exponent => some exponent.octets
  | _ => none

/-- The text of the curve identifier. -/
def curve : WrittenFields algorithm → Option String
  | curvePointDerivation _ curve _ _ | curvePoint _ curve _ => some (Curve.dotted curve.octets)
  | rsa .. | elgamal .. | dsa .. | native .. => none

/-- What is read of the fields beyond their extent. -/
def material (fields : WrittenFields algorithm) : PublicKey.Material :=
  { modulus := fields.modulus, exponent := fields.exponent, curve := fields.curve }

end WrittenFields

/-! ## Keys -/

/-- A key of version 2 to 6. -/
structure WrittenKey where
  /-- The key version. -/
  version : Nat
  /-- The creation time. -/
  created : Nat
  /-- The days of validity. -/
  daysValid : Nat
  /-- The number of the algorithm. -/
  algorithm : Nat
  /-- The public fields of the algorithm. -/
  fields : WrittenFields algorithm
  /-- The first version is 2. -/
  version_ge : 2 ≤ version
  /-- The last version is 6. -/
  version_le : version ≤ 6
  /-- The creation time is written in four octets. -/
  created_lt : created < 2 ^ 32
  /-- The days of validity are written in two octets. -/
  daysValid_lt : daysValid < 2 ^ 16
  /-- Versions after 3 do not state days of validity. -/
  daysValid_eq_zero : 4 ≤ version → daysValid = 0
  /-- Keys of versions 2 and 3 are RSA keys. -/
  algorithm_le : version ≤ 3 → algorithm ≤ 3

namespace WrittenKey

/-- The number of octets of the fields, if the version states it. -/
def fieldsLength (key : WrittenKey) : Option Nat :=
  if 5 ≤ key.version then some key.fields.written.length else none

/-- The octets in front of the fields. -/
def heading (key : WrittenKey) : Octets :=
  Octets.ofNat 1 key.version ++ (Octets.ofNat 4 key.created ++
    ((if key.version ≤ 3 then Octets.ofNat 2 key.daysValid else []) ++
      (Octets.ofNat 1 key.algorithm ++
        if 5 ≤ key.version then Octets.ofNat 4 key.fields.written.length else [])))

/-- The public part of a key packet. -/
def publicPart (key : WrittenKey) : Octets := key.heading ++ key.fields.written

/-- The digest that the fingerprint shows: of modulus and exponent for versions 2 and 3, else of the
public part after a version octet and its length, which has two octets for version 4 and four octets
for versions 5 and 6. -/
def digest (key : WrittenKey) : Octets :=
  match key.version with
  | 4 => Digest.Sha1.digest (0x99 :: Octets.ofNat 2 key.publicPart.length ++ key.publicPart)
  | 5 => Digest.Sha256.digest (0x9A :: Octets.ofNat 4 key.publicPart.length ++ key.publicPart)
  | 6 => Digest.Sha256.digest (0x9B :: Octets.ofNat 4 key.publicPart.length ++ key.publicPart)
  | _ => Digest.Md5.digest (key.fields.modulus.getD [] ++ key.fields.exponent.getD [])

/-- The view of the key in a packet with the tag `tag`. -/
def view (key : WrittenKey) (tag : Binary64) : PublicKey :=
  { tag
    subkey := tag = 14 ∨ tag = 7
    secret := tag = 5 ∨ tag = 7
    version := key.version
    fingerprint := Fingerprint.ofDigest key.digest
    algorithm := (key.algorithm : Binary64)
    created := (key.created : Binary64)
    daysValid := (key.daysValid : Binary64)
    modulus := key.fields.modulus
    curve := key.fields.curve }

end WrittenKey

/-! ## Lengths -/

/-- An integer takes its bit count and at most `2 ^ 13` octets. -/
theorem WrittenInteger.length_written_le (integer : WrittenInteger) :
    integer.written.length ≤ 2 + 2 ^ 13 := by
  have hbits := integer.bits_lt
  rw [written, List.length_append, Octets.length_ofNat, integer.length_octets]
  omega

/-- A curve identifier takes its length and at most 254 octets. -/
theorem WrittenCurve.length_written_le (curve : WrittenCurve) : curve.written.length ≤ 255 := by
  have hlength := curve.length_le
  rw [written, List.length_append, Octets.length_ofNat]
  omega

/-- Parameters take their length and at most 255 octets. -/
theorem WrittenParameters.length_written_le (parameters : WrittenParameters) :
    parameters.written.length ≤ 256 := by
  have hlength := parameters.length_le
  rw [written, List.length_append, Octets.length_ofNat]
  omega

/-- The fields with most octets are four integers. -/
theorem WrittenFields.length_written_le {algorithm : Nat} (fields : WrittenFields algorithm) :
    fields.written.length ≤ 4 * (2 + 2 ^ 13) := by
  cases fields with
  | rsa _ modulus exponent =>
    have hmodulus := modulus.length_written_le
    have hexponent := exponent.length_written_le
    rw [written, List.length_append]
    omega
  | elgamal _ prime generator value =>
    have hprime := prime.length_written_le
    have hgenerator := generator.length_written_le
    have hvalue := value.length_written_le
    rw [written, List.length_append, List.length_append]
    omega
  | dsa _ prime order generator value =>
    have hprime := prime.length_written_le
    have horder := order.length_written_le
    have hgenerator := generator.length_written_le
    have hvalue := value.length_written_le
    rw [written, List.length_append, List.length_append, List.length_append]
    omega
  | curvePointDerivation _ curve point parameters =>
    have hcurve := curve.length_written_le
    have hpoint := point.length_written_le
    have hparameters := parameters.length_written_le
    rw [written, List.length_append, List.length_append]
    omega
  | curvePoint _ curve point =>
    have hcurve := curve.length_written_le
    have hpoint := point.length_written_le
    rw [written, List.length_append]
    omega
  | native octets hlength =>
    rw [written]
    omega

/-- The number of an algorithm has one octet. -/
theorem WrittenFields.algorithm_lt {algorithm : Nat} (fields : WrittenFields algorithm) :
    algorithm < 2 ^ 8 := by
  cases fields <;> omega

/-- Of the first three algorithms the fields are a modulus and an exponent. -/
theorem WrittenFields.exists_exponent {algorithm : Nat} (fields : WrittenFields algorithm)
    (h : algorithm ≤ 3) :
    ∃ modulus exponent, fields.modulus = some modulus ∧ fields.exponent = some exponent := by
  cases fields with
  | rsa _ modulus exponent => exact ⟨modulus.octets, exponent.octets, rfl, rfl⟩
  | elgamal | dsa | curvePointDerivation | curvePoint | native => omega

/-- A heading has at most ten octets. -/
theorem WrittenKey.length_heading_le (key : WrittenKey) : key.heading.length ≤ 10 := by
  -- No version states both the days of validity and the length of the fields.
  have hdays : (if key.version ≤ 3 then Octets.ofNat 2 key.daysValid else []).length =
      if key.version ≤ 3 then 2 else 0 := by
    split <;> simp
  have hstated : (if 5 ≤ key.version then Octets.ofNat 4 key.fields.written.length else []).length =
      if 5 ≤ key.version then 4 else 0 := by
    split <;> simp
  simp only [heading, List.length_append, Octets.length_ofNat, hdays, hstated]
  split <;> split <;> omega

/-- The length of a public part has room in two octets. -/
theorem WrittenKey.length_publicPart_lt (key : WrittenKey) : key.publicPart.length < 2 ^ 16 := by
  have hheading := key.length_heading_le
  have hfields := key.fields.length_written_le
  rw [publicPart, List.length_append]
  omega

namespace PublicKey

open Reading (Reads)

/-! ## Reading what is written -/

/-- An integer is read back. -/
theorem reads_integer (integer : WrittenInteger) (field : String) :
    Reads (Reading.mpi field) integer.written integer.octets :=
  Reads.mpi integer.bits_lt integer.length_octets field

/-- A curve identifier is read back as its text. -/
theorem reads_curve (curve : WrittenCurve) :
    Reads readCurve curve.written (Curve.dotted curve.octets) := by
  have hpos := curve.length_pos
  have hle := curve.length_le
  refine (Reads.number (by omega) "curve OID length").bind ?_
  have hallowed : ¬ (curve.octets.length = 0 ∨ curve.octets.length = 255) := by omega
  rw [if_neg hallowed]
  exact (Reads.bytes curve.octets "curve OID").map Curve.dotted

/-- The public fields of every algorithm are read back. -/
theorem reads_fields {algorithm : Nat} (fields : WrittenFields algorithm) :
    Reads (readMaterial algorithm) fields.written fields.material := by
  unfold readMaterial
  cases fields with
  | rsa halgorithm modulus exponent =>
    have hlayout : Algorithm.layout algorithm = .rsa := by
      rcases halgorithm with h | h | h <;> rw [h] <;> rfl
    rw [hlayout]
    exact (reads_integer modulus "RSA n").bind ((reads_integer exponent "RSA e").map _)
  | elgamal halgorithm prime generator value =>
    have hlayout : Algorithm.layout algorithm = .elgamal := by
      rcases halgorithm with h | h <;> rw [h] <;> rfl
    rw [hlayout]
    exact (reads_integer prime "Elgamal p").bind
      ((reads_integer generator "Elgamal g").bind ((reads_integer value "Elgamal y").map _))
  | dsa halgorithm prime order generator value =>
    have hlayout : Algorithm.layout algorithm = .dsa := halgorithm ▸ rfl
    rw [hlayout]
    exact (reads_integer prime "DSA p").bind ((reads_integer order "DSA q").bind
      ((reads_integer generator "DSA g").bind ((reads_integer value "DSA y").map _)))
  | curvePointDerivation halgorithm curve point parameters =>
    have hlayout : Algorithm.layout algorithm = .curvePointDerivation := halgorithm ▸ rfl
    rw [hlayout]
    have hlength : parameters.octets.length < 256 ^ 1 := by
      have hle := parameters.length_le
      omega
    exact (reads_curve curve).bind ((reads_integer point "EC point").bind
      ((Reads.number hlength "KDF length").bind
        ((Reads.bytes parameters.octets "KDF parameters").map _)))
  | curvePoint halgorithm curve point =>
    have hlayout : Algorithm.layout algorithm = .curvePoint := by
      rcases halgorithm with h | h <;> rw [h] <;> rfl
    rw [hlayout]
    exact (reads_curve curve).bind ((reads_integer point "EC point").map _)
  | native octets hlength =>
    have hlayout : Algorithm.layout algorithm = .native octets.length := by
      rcases hlength with ⟨h | h, hlength⟩ | ⟨h, hlength⟩ | ⟨h, hlength⟩ <;>
        rw [h, hlength] <;> rfl
    rw [hlayout]
    exact (Reads.bytes octets "native public key").map _

/-- What the heading of a key is read as. -/
def headerOf (key : WrittenKey) : Header :=
  ⟨key.version, key.created, key.daysValid, key.algorithm, key.fieldsLength⟩

/-- The end of a heading is read back: the algorithm and, for versions 5 and 6, a length. -/
theorem reads_headerEnd {version created days algorithm length : Nat} (hge : 2 ≤ version)
    (hle : version ≤ 6) (halgorithm : algorithm < 256 ^ 1) (hlength : length < 256 ^ 4) :
    Reads (readHeaderEnd version created days)
      (Octets.ofNat 1 algorithm ++
        if version = 5 ∨ version = 6 then Octets.ofNat 4 length else [])
      ⟨version, created, days, algorithm,
        if version = 5 ∨ version = 6 then some length else none⟩ := by
  unfold readHeaderEnd
  refine (Reads.number halgorithm "algorithm").bind ?_
  by_cases hmeasured : version = 5 ∨ version = 6
  · rw [if_pos hmeasured, if_pos hmeasured, if_pos hmeasured]
    exact (Reads.number hlength "key material length").map _
  · have hplain : version = 2 ∨ version = 3 ∨ version = 4 := by omega
    rw [if_neg hmeasured, if_neg hmeasured, if_neg hmeasured, if_pos hplain]
    exact Reads.pure _

/-- The heading of every version is read back. -/
theorem reads_heading (key : WrittenKey) : Reads readHeader key.heading (headerOf key) := by
  obtain ⟨version, created, days, algorithm, fields, hge, hle, hcreated, hdays, hzero, -⟩ := key
  have halgorithm : algorithm < 256 ^ 1 := fields.algorithm_lt
  have hlength : fields.written.length < 256 ^ 4 := by
    have hfields := fields.length_written_le
    omega
  -- The reader asks for single versions, the heading for the first or the last of them.
  have hstated : (5 ≤ version) = (version = 5 ∨ version = 6) := by
    rw [eq_iff_iff]
    omega
  have hearly : (version ≤ 3) = (version = 2 ∨ version = 3) := by
    rw [eq_iff_iff]
    omega
  rw [readHeader_eq]
  unfold headerOf WrittenKey.heading WrittenKey.fieldsLength
  dsimp only
  simp only [hstated, hearly]
  refine (Reads.number (by omega) "version").bind ?_
  refine (Reads.number hcreated "creation time").bind ?_
  by_cases hdated : version = 2 ∨ version = 3
  · rw [if_pos hdated, if_pos hdated]
    exact (Reads.number hdays "validity days").bind (reads_headerEnd hge hle halgorithm hlength)
  · have hnone : days = 0 := hzero (by omega)
    rw [if_neg hdated, if_neg hdated, List.nil_append, hnone]
    exact reads_headerEnd hge hle halgorithm hlength

/-- The digest of a public part is that of the key that it writes. -/
theorem digest_publicPart (key : WrittenKey) (tag : Binary64) :
    digest tag (key.version : Binary64) key.publicPart key.fields.material = .ok key.digest := by
  have hge := key.version_ge
  have hle := key.version_le
  unfold digest WrittenKey.digest
  rw [Binary64.toInt?_natCast]
  by_cases hearly : key.version ≤ 3
  · -- Only versions 2 and 3 look at the fields, and theirs are those of RSA keys.
    obtain ⟨modulus, exponent, hmodulus, hexponent⟩ :=
      key.fields.exists_exponent (key.algorithm_le hearly)
    have hversion : key.version = 2 ∨ key.version = 3 := by omega
    rcases hversion with h | h <;> rw [h, WrittenFields.material, hmodulus, hexponent] <;> rfl
  · have hversion : key.version = 4 ∨ key.version = 5 ∨ key.version = 6 := by omega
    rcases hversion with h | h | h <;> rw [h] <;> rfl

/-- A key that is written in a packet of any tag, with any octets behind its public part, is read
back, and its fingerprint covers exactly that part. -/
theorem ofPacket_written (key : WrittenKey) (tag : Binary64) (trailing : Octets) :
    PublicKey.ofPacket ⟨tag, key.publicPart ++ trailing⟩ = .ok (key.view tag) ∧
      key.publicPart.length < 2 ^ 16 := by
  refine ⟨?_, key.length_publicPart_lt⟩
  have hheader : readHeader.runAt (.start tag (key.publicPart ++ trailing)) =
      (.ok (headerOf key), ⟨tag, 0 + key.heading.length, key.fields.written ++ trailing, 0⟩) := by
    rw [WrittenKey.publicPart, List.append_assoc]
    exact reads_heading key tag 0 (key.fields.written ++ trailing)
  have hlength : key.publicPart.length = key.heading.length + key.fields.written.length :=
    List.length_append
  -- The stated length and the end of the fields name the same place, the end of the public part.
  have hpart : publicPart (headerOf key)
      ⟨tag, 0 + key.heading.length, key.fields.written ++ trailing, 0⟩
      (key.publicPart ++ trailing) = (key.fields.material, key.publicPart.length) := by
    have hfields : Reads (readMaterial (headerOf key).algorithm) key.fields.written
        key.fields.material := reads_fields key.fields
    rw [publicPart_of_reads hfields]
    by_cases hmeasured : 5 ≤ key.version
    · have hstated : (headerOf key).materialLength = some key.fields.written.length :=
        if_pos hmeasured
      have hmin : min (key.publicPart ++ trailing).length
          (0 + key.heading.length + key.fields.written.length) = key.publicPart.length := by
        rw [List.length_append]
        omega
      rw [hstated]
      dsimp only
      rw [hmin]
    · have hstated : (headerOf key).materialLength = none := if_neg hmeasured
      rw [hstated, hlength, Nat.zero_add]
  rw [ofPacket_eq_map ⟨tag, key.publicPart ++ trailing⟩ hheader hpart, List.take_left]
  show (digest tag (key.version : Binary64) key.publicPart key.fields.material).map _ = _
  rw [digest_publicPart key tag]
  rfl

/-- A key of version 5 states the six octets of its RSA fields. -/
example : WrittenKey.publicPart
    { version := 5, created := 2, daysValid := 0, algorithm := 1
      fields := .rsa (.inl rfl) ⟨1, [1], by decide, rfl⟩ ⟨2, [3], by decide, rfl⟩
      version_ge := by decide, version_le := by decide, created_lt := by decide
      daysValid_lt := by decide, daysValid_eq_zero := fun _ => rfl
      algorithm_le := by decide } =
    [5, 0, 0, 0, 2, 1, 0, 0, 0, 6, 0, 1, 1, 0, 2, 3] := by decide

end PublicKey

end PgpInspect
