import PgpInspect.Proofs.Autocrypt.Layout

/-!
# What Autocrypt headers say, however they are written

A header says an address and a key, perhaps a preference, and attributes that may be ignored
(`HeaderContent`). It is written as parts with these attributes in any order, the key in base64
with blanks in it (`HeaderContent.IsWrittenAs`), and every text that it is written as is read as the
header (`HeaderContent.parse_of_isWrittenAs`).

The names of a content are different in lower case: those that have a meaning are given, and the
others begin with an underscore. So each of the three names has one value, wherever its part stands.
-/

namespace PgpInspect

open Text (IsTrimmed lower trim withoutBlanks)
open Text.Base64 (IsEncoding)
open AutocryptHeader

/-- What a header says. -/
structure HeaderContent where
  /-- The address. -/
  addr : List Char
  /-- The address is not empty. -/
  addr_ne_nil : addr ≠ []
  /-- The address has no blanks around it. -/
  addr_trimmed : IsTrimmed addr
  /-- The address has no separator. -/
  addr_separator : ';' ∉ addr
  /-- The key. -/
  key : Octets
  /-- The key is not empty. -/
  key_ne_nil : key ≠ []
  /-- The preference, if there is one. -/
  preference : Option (List Char)
  /-- The preference has no separator. -/
  preference_separator : ∀ value ∈ preference, ';' ∉ value
  /-- The attributes that may be ignored. -/
  extras : List Attribute
  /-- Their names say so. -/
  extras_optional : ∀ extra ∈ extras, extra.1.head? = some '_'
  /-- Their names have no separators, no equals signs and no blanks, and their values have no
  separators. -/
  extras_plain : ∀ extra ∈ extras, IsName extra.1 ∧ ';' ∉ extra.2
  /-- Their names are different in lower case. -/
  extras_nodup : (extras.map fun extra => lower extra.1).Nodup

namespace HeaderContent

variable (content : HeaderContent) (keyText : List Char)

/-- The attributes whose names have a meaning, with a text for the key. -/
def known : List Attribute :=
  ("addr".toList, content.addr) :: ("keydata".toList, keyText) ::
    (content.preference.map fun value => ("prefer-encrypt".toList, value)).toList

/-- All attributes, with a text for the key. -/
def attributes : List Attribute := content.known keyText ++ content.extras

/-- A text writes a content: its parts write the attributes in some order, with a text for the key
that is base64 of it if the blanks are left out. -/
def IsWrittenAs (text : List Char) : Prop :=
  ∃ keyText attributes parts, IsEncoding (withoutBlanks keyText) content.key ∧
    attributes.Perm (content.attributes keyText) ∧ Lays parts attributes ∧
      text = Text.join ';' parts

/-- The header that a content is read as. -/
def header : AutocryptHeader where
  addr := String.ofList content.addr
  preferEncrypt :=
    if content.preference.map trim = some "mutual".toList then .wanted else .noPreference
  keydata := content.key

variable {content keyText}

/-! ## Names and values -/

/-- The attributes with a meaning are the address, the key, and the preference if there is one. -/
theorem cases_of_mem_known {entry : Attribute} (h : entry ∈ content.known keyText) :
    entry = ("addr".toList, content.addr) ∨ entry = ("keydata".toList, keyText) ∨
      ∃ value ∈ content.preference, entry = ("prefer-encrypt".toList, value) := by
  unfold known at h
  rw [List.mem_cons, List.mem_cons, Option.mem_toList, Option.map_eq_some_iff] at h
  refine h.imp id (Or.imp id ?_)
  rintro ⟨value, hvalue, rfl⟩
  exact ⟨value, hvalue, rfl⟩

/-- Their names are known ones. -/
theorem mem_knownNames_of_mem_known {entry : Attribute} (h : entry ∈ content.known keyText) :
    entry.1 ∈ knownNames := by
  rcases cases_of_mem_known h with rfl | rfl | ⟨value, -, rfl⟩
  · exact List.mem_cons_self
  · exact List.mem_cons_of_mem _ (List.mem_cons_of_mem _ List.mem_cons_self)
  · exact List.mem_cons_of_mem _ List.mem_cons_self

/-- Attributes can be parts of a header. -/
theorem plain_of_mem (hkey : ';' ∉ keyText) :
    ∀ entry ∈ content.attributes keyText, IsName entry.1 ∧ ';' ∉ entry.2 := by
  intro entry hentry
  rcases List.mem_append.mp hentry with hknown | hextra
  · refine ⟨(isName_of_mem_knownNames (mem_knownNames_of_mem_known hknown)).1, ?_⟩
    rcases cases_of_mem_known hknown with rfl | rfl | ⟨value, hvalue, rfl⟩
    · exact content.addr_separator
    · exact hkey
    · exact content.preference_separator value hvalue
  · exact content.extras_plain entry hextra

/-- Attributes may occur, by their names in lower case. -/
theorem isAllowed_of_mem :
    ∀ entry ∈ content.attributes keyText, isAllowed (lower entry.1) = true := by
  intro entry hentry
  rw [isAllowed, Bool.or_eq_true]
  rcases List.mem_append.mp hentry with hknown | hextra
  · have hname := mem_knownNames_of_mem_known hknown
    rw [(isName_of_mem_knownNames hname).2.1]
    exact .inl (List.contains_iff_mem.mpr hname)
  · exact .inr (beq_iff_eq.mpr (head?_lower_of_head? (content.extras_optional entry hextra)))

/-- The names of attributes are different in lower case. -/
theorem nodup_lower_names :
    ((content.attributes keyText).map fun entry => lower entry.1).Nodup := by
  rw [attributes, List.map_append, List.nodup_append]
  refine ⟨?_, content.extras_nodup, ?_⟩
  · unfold known
    cases content.preference with
    | none =>
      have hnames : [lower "addr".toList, lower "keydata".toList].Nodup := by decide
      exact hnames
    | some value =>
      have hnames : [lower "addr".toList, lower "keydata".toList,
          lower "prefer-encrypt".toList].Nodup := by decide
      exact hnames
  · -- A name with a meaning has no underscore in front.
    rintro name hknown other hextra rfl
    obtain ⟨entry, hentry, rfl⟩ := List.mem_map.mp hknown
    obtain ⟨extra, hmem, hsame⟩ := List.mem_map.mp hextra
    obtain ⟨-, hlower, hhead⟩ := isName_of_mem_knownNames (mem_knownNames_of_mem_known hentry)
    apply hhead
    rw [← hlower, ← hsame]
    exact head?_lower_of_head? (content.extras_optional extra hmem)

/-- The preference is the value of its name. -/
theorem lookup_preference :
    lookup ((content.attributes keyText).map readEntry) "prefer-encrypt".toList =
      content.preference.map trim := by
  cases hpreference : content.preference with
  | some value =>
    have hknown : content.attributes keyText =
        ("addr".toList, content.addr) :: ("keydata".toList, keyText) ::
          ("prefer-encrypt".toList, value) :: content.extras := by
      rw [attributes, known, hpreference]
      rfl
    rw [hknown]
    rfl
  | none =>
    have hknown : content.attributes keyText =
        ("addr".toList, content.addr) :: ("keydata".toList, keyText) :: content.extras := by
      rw [attributes, known, hpreference]
      rfl
    have hnone : lookup (content.extras.map readEntry) "prefer-encrypt".toList = none := by
      rw [lookup_eq_none_iff, List.map_map]
      intro hmem
      obtain ⟨extra, hextra, hname⟩ := List.mem_map.mp hmem
      have hhead := head?_lower_of_head? (content.extras_optional extra hextra)
      have hlower : lower extra.1 = "prefer-encrypt".toList := hname
      rw [hlower] at hhead
      cases hhead
    rw [hknown]
    exact hnone

/-! ## Key texts -/

variable {text : List Char} {octets : Octets}

/-- What is base64 without its blanks has no separator. -/
theorem not_mem_of_isEncoding (h : IsEncoding (withoutBlanks text) octets) : ';' ∉ text := by
  intro hmem
  have hkept : ';' ∈ withoutBlanks text := List.mem_filter.mpr ⟨hmem, by decide⟩
  obtain ⟨pads, -, htext⟩ := h.isLettered
  rw [htext, List.mem_append] at hkept
  rcases hkept with hletter | hpad
  · exact absurd (Text.Base64.isAlphabet_of_mem_letters hletter) (by decide)
  · exact absurd (List.eq_of_mem_replicate hpad) (by decide)

/-- What is base64 of octets is accepted for a key. -/
theorem isBase64_of_isEncoding (h : IsEncoding text octets) (hne : octets ≠ []) :
    isBase64 text = true := by
  refine isBase64_iff.mpr ⟨h.isLettered, fun hnone => hne ?_⟩
  have hlength := h.isLettered.isReading.length_eq
  rw [hnone, Text.Base64.decode_of_isEncoding h] at hlength
  exact List.eq_nil_of_length_eq_zero hlength

/-! ## Headers -/

/-- Every text that a content is written as is read as its header. -/
theorem parse_of_isWrittenAs (h : content.IsWrittenAs text) : parse text = .ok content.header := by
  obtain ⟨keyText, attributes, parts, hencoding, hperm, hlays, rfl⟩ := h
  have hplain : ∀ entry ∈ attributes, IsName entry.1 ∧ ';' ∉ entry.2 := fun entry hentry =>
    plain_of_mem (not_mem_of_isEncoding hencoding) entry (hperm.mem_iff.mp hentry)
  have hnodup : (attributes.map fun entry => lower entry.1).Nodup :=
    (hperm.map _).nodup_iff.mpr nodup_lower_names
  have hparts : parts ≠ [] := by
    rintro rfl
    cases hlays
    cases hperm.nil_eq
  -- The order is the one of the content from here on, since only values of names are asked for.
  have hvalue (name : List Char) : lookup (attributes.map readEntry) name =
      lookup ((content.attributes keyText).map readEntry) name := by
    refine lookup_eq_of_perm (hperm.map readEntry) ?_ name
    rwa [List.map_map]
  have hallowed : ∀ entry ∈ attributes.map readEntry, isAllowed entry.1 = true := by
    rw [List.forall_mem_map]
    exact fun entry hentry => isAllowed_of_mem entry (hperm.mem_iff.mp hentry)
  have haddr : lookup (attributes.map readEntry) "addr".toList = some content.addr := by
    rw [hvalue]
    exact congrArg some (Text.trim_eq_self_iff.mpr content.addr_trimmed)
  have hkey : lookup (attributes.map readEntry) "keydata".toList = some (trim keyText) := by
    rw [hvalue]
    rfl
  have hread : withoutBlanks (trim keyText) = withoutBlanks keyText :=
    Text.withoutBlanks_trim keyText
  have hbase64 : isBase64 (withoutBlanks (trim keyText)) = true :=
    hread ▸ isBase64_of_isEncoding hencoding content.key_ne_nil
  rw [parse_join_of_lays hlays hparts hplain hnodup,
    ofAttributes_eq_ok hallowed haddr content.addr_ne_nil hkey hbase64, hvalue, lookup_preference,
    hread, Text.Base64.decode_of_isEncoding hencoding]
  rfl

/-- An address with an equals sign, a key of four octets, a preference, and a note. -/
def sample : HeaderContent where
  addr := "a=b@example.org".toList
  addr_ne_nil := by decide
  addr_trimmed := Text.trim_eq_self_iff.mp (by decide)
  addr_separator := by decide
  key := [0x41, 0x42, 0x43, 0x44]
  key_ne_nil := by decide
  preference := some "mutual".toList
  preference_separator := by
    intro value hvalue
    rw [← Option.mem_some_iff.mp hvalue]
    decide
  extras := [("_Note".toList, "xy".toList)]
  extras_optional := by decide
  extras_plain := by
    rw [List.forall_mem_singleton]
    exact ⟨by decide, by decide⟩
  extras_nodup := by decide

/-- The sample in another order than it is given, with blank parts, names in both cases, and blanks
around names and values and in the key. -/
def sampleText : List Char :=
  "; _nOtE =xy;KeyData = QUJD\n RA;\t;prefer-encrypt=mutual ;ADDR=a=b@example.org".toList

/-- The sample text is read as the sample. -/
theorem parse_sampleText :
    sample.IsWrittenAs sampleText ∧
      parse sampleText = .ok ⟨"a=b@example.org", .wanted, [0x41, 0x42, 0x43, 0x44]⟩ := by
  have hlays : Lays
      ["".toList, " _nOtE =xy".toList, "KeyData = QUJD\n RA".toList, "\t".toList,
        "prefer-encrypt=mutual ".toList, "ADDR=a=b@example.org".toList]
      [("_Note".toList, "xy".toList), ("keydata".toList, "QUJD\n RA".toList),
        ("prefer-encrypt".toList, "mutual".toList), ("addr".toList, "a=b@example.org".toList)] := by
    refine .blank (by decide) (.entry ⟨[' '], "_nOtE".toList, [' '], [], [], by decide⟩ ?_)
    refine .entry ⟨[], "KeyData".toList, [' '], [' '], [], by decide⟩ (.blank (by decide) ?_)
    refine .entry ⟨[], "prefer-encrypt".toList, [], [], [' '], by decide⟩ ?_
    exact .entry ⟨[], "ADDR".toList, [], [], [], by decide⟩ .nil
  have hwritten : sample.IsWrittenAs sampleText :=
    ⟨"QUJD\n RA".toList, _, _, by decide, by decide, hlays, by decide⟩
  exact ⟨hwritten, parse_of_isWrittenAs hwritten⟩

end HeaderContent

end PgpInspect
