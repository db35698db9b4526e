import Mathlib.Data.List.Nodup
import PgpInspect.Autocrypt
import PgpInspect.Proofs.Armor.RoundTrip
import PgpInspect.Proofs.Text.Base64.Encoding
import PgpInspect.Proofs.Text.Blank
import PgpInspect.Proofs.Text.LowerCase

/-!
# Autocrypt headers in any layout

What a header says can be written in many ways: with the attributes in any order, the letters of
their names in either case, blanks around names and values and inside the key, and parts without
content. Every text of these is read as what it says (`AutocryptHeader.parse_of_isWrittenAs`).

A header is followed part by part. Each part that writes an attribute adds it to those before it
(`attributesOf_of_lays`), as names are told apart in lower case. After that only the values of names
are asked for, and these do not depend on the order (`lookup_eq_of_perm`).
-/

namespace PgpInspect

namespace Text

/-- Parts without separators are what their join is split into. -/
theorem split_join {separator : Char} {parts : List (List Char)} (hne : parts ≠ [])
    (h : ∀ part ∈ parts, separator ∉ part) : split separator (join separator parts) = parts := by
  induction parts with
  | nil => exact absurd rfl hne
  | cons part rest ih =>
    obtain ⟨hpart, hrest⟩ := List.forall_mem_cons.mp h
    cases rest with
    | nil => exact split_of_not_mem hpart
    | cons next more =>
      have hjoin : join separator (part :: next :: more) =
          part ++ separator :: join separator (next :: more) := rfl
      rw [hjoin, split_append hpart, ih (List.cons_ne_nil _ _) hrest]

end Text

namespace AutocryptHeader

open Text (IsTrimmed isBlank lower trim trimEnd trimStart withoutBlanks)
open Text.Base64 (IsEncoding)

/-! ## Names -/

/-- A text that can be the name of an attribute. -/
structure IsName (name : List Char) : Prop where
  /-- A name has a character. -/
  ne_nil : name ≠ []
  /-- No character ends a part or a name, and none is blank. -/
  plain : ∀ c ∈ name, c ≠ ';' ∧ c ≠ '=' ∧ isBlank c = false

variable {name spelled : List Char}

/-- A name is told by its characters. -/
theorem isName_iff :
    IsName name ↔ name ≠ [] ∧ name.all (fun c => c != ';' && c != '=' && !isBlank c) = true := by
  simp only [List.all_eq_true, Bool.and_eq_true, bne_iff_ne, Bool.not_eq_true', and_assoc]
  exact ⟨fun h => ⟨h.ne_nil, h.plain⟩, fun h => ⟨h.1, h.2⟩⟩

instance : Decidable (IsName name) := decidable_of_iff' _ isName_iff

/-- A name stays one if its letters are written in the other case. -/
theorem IsName.of_map_toLower_eq (h : IsName name)
    (hspelled : spelled.map Char.toLower = name.map Char.toLower) : IsName spelled where
  ne_nil := by
    rintro rfl
    exact h.ne_nil (List.map_eq_nil_iff.mp hspelled.symm)
  plain c hc := by
    have hmem : c.toLower ∈ name.map Char.toLower := hspelled ▸ List.mem_map_of_mem hc
    obtain ⟨other, hother, hlower⟩ := List.mem_map.mp hmem
    obtain ⟨hsemicolon, hequals, hblank⟩ := h.plain other hother
    refine ⟨?_, ?_, ?_⟩
    · rintro rfl
      exact hsemicolon (Text.eq_of_toLower_eq (by decide) hlower)
    · rintro rfl
      exact hequals (Text.eq_of_toLower_eq (by decide) hlower)
    · rw [← (Text.toLower_alike c).2.2, ← hlower, (Text.toLower_alike other).2.2, hblank]

/-- The known names are names in lower case, and none is optional. -/
theorem isName_of_mem_knownNames (h : name ∈ knownNames) :
    IsName name ∧ lower name = name ∧ name.head? ≠ some '_' := by
  have hknown : ∀ name ∈ knownNames,
      IsName name ∧ lower name = name ∧ name.head? ≠ some '_' := by decide +kernel
  exact hknown name h

/-- An optional name is one in lower case. -/
theorem head?_lower_of_head? (h : name.head? = some '_') : (lower name).head? = some '_' := by
  cases name with
  | nil => cases h
  | cons c rest =>
    obtain rfl := Option.some.inj h
    rfl

/-! ## Parts -/

/-- A text of blanks, perhaps empty. -/
def AllBlank (text : List Char) : Prop := ∀ c ∈ text, isBlank c = true

instance (text : List Char) : Decidable (AllBlank text) :=
  decidable_of_iff (text.all isBlank = true) List.all_eq_true

/-- A part writes an attribute: the name with its ASCII letters in either case, `=` and the value,
with blanks around both. -/
def WritesAttribute (part : List Char) (entry : Attribute) : Prop :=
  ∃ before spelled behind front back : List Char,
    part = before ++ spelled ++ behind ++ '=' :: (front ++ entry.2 ++ back) ∧
      spelled.map Char.toLower = entry.1.map Char.toLower ∧
      (AllBlank before ∧ AllBlank behind) ∧ AllBlank front ∧ AllBlank back

/-- Parts write attributes in order, with blank parts anywhere. -/
inductive Lays : (parts : List (List Char)) → (attributes : List Attribute) → Prop where
  /-- No parts write nothing. -/
  | nil : Lays [] []
  /-- A blank part writes nothing. -/
  | blank {part : List Char} {parts : List (List Char)} {attributes : List Attribute}
      (hpart : AllBlank part) (hrest : Lays parts attributes) : Lays (part :: parts) attributes
  /-- Any other part writes an attribute. -/
  | entry {part : List Char} {entry : Attribute} {parts : List (List Char)}
      {attributes : List Attribute} (hpart : WritesAttribute part entry)
      (hrest : Lays parts attributes) : Lays (part :: parts) (entry :: attributes)

/-- An attribute as it is read: the name in lower case, and the value without blanks around it. -/
def readEntry (entry : Attribute) : Attribute := (lower entry.1, trim entry.2)

variable {part : List Char} {entry : Attribute} {parts : List (List Char)}
  {attributes : List Attribute}

/-- A name in front of the first `=` and a value are an attribute. -/
theorem attribute?_append (hname : '=' ∉ name) (hne : name ≠ []) (value : List Char) :
    attribute? (name ++ '=' :: value) = some (lower (trim name), trim value) := by
  have hall : ∀ c ∈ name, (c != '=') = true := by
    intro c hc
    rw [bne_iff_ne]
    rintro rfl
    exact hname hc
  have hfront : (name ++ '=' :: value).takeWhile (· != '=') = name := by
    rw [List.takeWhile_append_of_pos hall]
    simp
  have hbehind : (name ++ '=' :: value).dropWhile (· != '=') = '=' :: value := by
    rw [List.dropWhile_append_of_pos hall]
    rfl
  unfold attribute?
  rw [hbehind, hfront]
  simp [hne]

/-- A part is read as the attribute that it writes. -/
theorem attribute?_of_writesAttribute (h : WritesAttribute part entry)
    (hname : IsName entry.1) : attribute? (trim part) = some (readEntry entry) := by
  obtain ⟨before, spelled, behind, front, back, rfl, hspelled, ⟨hbefore, hbehind⟩, hfront,
    hback⟩ := h
  obtain ⟨hne, hplain⟩ := hname.of_map_toLower_eq hspelled
  -- The blanks in front of the name go, and at the end the trimming stops at the `=` at the latest.
  have htrim : trim (before ++ spelled ++ behind ++ '=' :: (front ++ entry.2 ++ back)) =
      spelled ++ behind ++ '=' :: trimEnd (front ++ entry.2 ++ back) := by
    have hstart : trimStart (before ++ (spelled ++ behind ++ '=' :: (front ++ entry.2 ++ back))) =
        spelled ++ behind ++ '=' :: (front ++ entry.2 ++ back) := by
      obtain ⟨first, more, rfl⟩ := List.exists_cons_of_ne_nil hne
      have hfirst : ¬isBlank first = true := by
        rw [(hplain first List.mem_cons_self).2.2]
        decide
      unfold trimStart
      rw [List.dropWhile_append_of_pos hbefore]
      exact List.dropWhile_cons_of_neg hfirst
    rw [List.append_assoc, List.append_assoc, ← List.append_assoc spelled, trim, hstart,
      Text.trimEnd_append (by decide)]
  have hequals : '=' ∉ spelled ++ behind := by
    rw [List.mem_append, not_or]
    exact ⟨fun hc => (hplain _ hc).2.1 rfl, fun hc => absurd (hbehind _ hc) (by decide)⟩
  have hlower : lower (trim (spelled ++ behind)) = lower entry.1 := by
    have hblanks := Text.trim_append_blanks (List.forall_mem_nil _) hbehind spelled
    rw [List.nil_append, Text.trim_eq_self fun c hc => (hplain c hc).2.2] at hblanks
    rw [hblanks, Text.lower_eq_of_map_toLower_eq hspelled]
  rw [htrim, attribute?_append hequals (by simp [hne]), hlower, Text.trim_trimEnd,
    Text.trim_append_blanks hfront hback]
  rfl

/-- A part with a new attribute adds it. -/
theorem attributesOf_cons {done : List Attribute} {value : List Char}
    (hpart : attribute? (trim part) = some (name, value)) (hnew : lookup done name = none)
    (rest : List (List Char)) :
    attributesOf done (part :: rest) = attributesOf (done ++ [(name, value)]) rest := by
  have hne : (trim part).isEmpty = false := by
    rw [List.isEmpty_eq_false_iff]
    intro hnone
    rw [hnone] at hpart
    cases hpart
  rw [attributesOf, hne, if_neg (by decide), hpart]
  dsimp only
  rw [hnew, if_neg (by decide)]

/-- A blank part adds nothing. -/
theorem attributesOf_cons_blank (hpart : AllBlank part) (done : List Attribute)
    (rest : List (List Char)) : attributesOf done (part :: rest) = attributesOf done rest := by
  have htrim := Text.trim_append_blanks hpart (List.forall_mem_nil _) []
  rw [List.append_nil, List.append_nil] at htrim
  rw [attributesOf, htrim]
  exact if_pos rfl

/-! ## Values of names -/

/-- A name that does not occur has no value. -/
theorem lookup_eq_none_iff : lookup attributes name = none ↔ name ∉ attributes.map (·.1) := by
  rw [lookup, Option.map_eq_none_iff, List.find?_eq_none, List.mem_map]
  simp only [beq_iff_eq, not_exists, not_and]

/-- A name that occurs once has the value that it occurs with. -/
theorem lookup_eq_some_iff {value : List Char} (h : (attributes.map (·.1)).Nodup) :
    lookup attributes name = some value ↔ (name, value) ∈ attributes := by
  rw [lookup, Option.map_eq_some_iff]
  constructor
  · rintro ⟨entry, hfound, rfl⟩
    have hname := List.find?_some hfound
    rw [beq_iff_eq] at hname
    rw [← hname]
    exact List.mem_of_find?_eq_some hfound
  · intro hmem
    cases hfound : attributes.find? fun entry => entry.1 == name with
    | none =>
      rw [List.find?_eq_none] at hfound
      exact absurd (beq_self_eq_true name) (hfound _ hmem)
    | some entry =>
      -- The entry that is found has the name, and no two entries have one name.
      have hname := List.find?_some hfound
      rw [beq_iff_eq] at hname
      have hsame := List.inj_on_of_nodup_map h (List.mem_of_find?_eq_some hfound) hmem hname
      exact ⟨entry, rfl, by rw [hsame]⟩

/-- The value of a name does not depend on the order of attributes with different names. -/
theorem lookup_eq_of_perm {attributes' : List Attribute} (hperm : attributes.Perm attributes')
    (h : (attributes.map (·.1)).Nodup) (name : List Char) :
    lookup attributes name = lookup attributes' name := by
  have h' : (attributes'.map (·.1)).Nodup := (hperm.map _).nodup_iff.mp h
  refine Option.ext fun value => ?_
  rw [lookup_eq_some_iff h, lookup_eq_some_iff h', hperm.mem_iff]

/-! ## Runs -/

/-- Parts that write attributes with names that are different in lower case add them in order. -/
theorem attributesOf_of_lays (h : Lays parts attributes)
    (hnames : ∀ entry ∈ attributes, IsName entry.1) (done : List Attribute)
    (hnodup : ((done ++ attributes.map readEntry).map (·.1)).Nodup) :
    attributesOf done parts = .ok (done ++ attributes.map readEntry) := by
  -- The names that are there already and those that are still to come stay different as a whole.
  induction h generalizing done with
  | nil => rw [List.map_nil, List.append_nil, attributesOf]
  | blank hpart _ ih => rw [attributesOf_cons_blank hpart, ih hnames done hnodup]
  | @entry part entry parts attributes hpart _ ih =>
    obtain ⟨hname, hrest⟩ := List.forall_mem_cons.mp hnames
    have hnew : lookup done (readEntry entry).1 = none := by
      rw [lookup_eq_none_iff]
      intro hmem
      rw [List.map_append, List.nodup_append] at hnodup
      exact hnodup.2.2 _ hmem _ (List.mem_map_of_mem (List.mem_map_of_mem List.mem_cons_self)) rfl
    rw [List.map_cons, List.append_cons] at hnodup ⊢
    rw [attributesOf_cons (attribute?_of_writesAttribute hpart hname) hnew]
    exact ih hrest _ hnodup

/-- No part ends inside of an attribute whose value has no separator. -/
theorem not_mem_of_lays (h : Lays parts attributes)
    (hplain : ∀ entry ∈ attributes, IsName entry.1 ∧ ';' ∉ entry.2) :
    ∀ part ∈ parts, ';' ∉ part := by
  have hblank {text : List Char} (h : AllBlank text) : ';' ∉ text := fun hc =>
    absurd (h _ hc) (by decide)
  induction h with
  | nil => exact nofun
  | blank hpart _ ih => exact List.forall_mem_cons.mpr ⟨hblank hpart, ih hplain⟩
  | entry hpart _ ih =>
    obtain ⟨⟨hname, hvalue⟩, hrest⟩ := List.forall_mem_cons.mp hplain
    refine List.forall_mem_cons.mpr ⟨?_, ih hrest⟩
    obtain ⟨before, spelled, behind, front, back, rfl, hspelled, ⟨hbefore, hbehind⟩, hfront,
      hback⟩ := hpart
    have hspelling : ';' ∉ spelled := fun hc =>
      ((hname.of_map_toLower_eq hspelled).plain _ hc).1 rfl
    simp [hblank hbefore, hspelling, hblank hbehind, hblank hfront, hvalue, hblank hback]

/-- A header of parts that write attributes with different names is what these attributes make. -/
theorem parse_join_of_lays (h : Lays parts attributes) (hne : parts ≠ [])
    (hplain : ∀ entry ∈ attributes, IsName entry.1 ∧ ';' ∉ entry.2)
    (hnodup : (attributes.map fun entry => lower entry.1).Nodup) :
    parse (Text.join ';' parts) = ofAttributes (attributes.map readEntry) := by
  have hnames : ((attributes.map readEntry).map (·.1)).Nodup := by
    rwa [List.map_map]
  rw [parse, Text.split_join hne (not_mem_of_lays h hplain),
    attributesOf_of_lays h (fun entry hentry => (hplain entry hentry).1) [] hnames]
  rfl

/-! ## Headers of attributes -/

/-- Base64 for Autocrypt headers is letters, at least one, and up to two pads. -/
theorem isBase64_iff {text : List Char} :
    isBase64 text = true ↔ Text.Base64.IsLettered text ∧ Text.Base64.letters text ≠ [] := by
  unfold isBase64
  dsimp only
  constructor
  · intro h
    simp only [Bool.and_eq_true, decide_eq_true_eq, List.all_eq_true, beq_iff_eq] at h
    obtain ⟨⟨hhead, hlength⟩, hpads⟩ := h
    have hfront : ∀ c ∈ text.takeWhile Text.Base64.isAlphabet, Text.Base64.isAlphabet c = true :=
      fun _ => List.mem_takeWhile_imp
    have htext : text = text.takeWhile Text.Base64.isAlphabet ++
        List.replicate (text.dropWhile Text.Base64.isAlphabet).length '=' := by
      rw [← List.eq_replicate_iff.mpr ⟨rfl, hpads⟩, List.takeWhile_append_dropWhile]
    refine ⟨htext ▸ Text.Base64.isLettered_append hfront hlength, fun hnone => ?_⟩
    rw [htext, Text.Base64.letters_append_replicate hfront] at hnone
    cases text with
    | nil => cases hhead
    | cons c rest =>
      have hletter : Text.Base64.isAlphabet c = true := hhead
      rw [List.takeWhile_cons_of_pos hletter] at hnone
      cases hnone
  · rintro ⟨⟨pads, hle, htext⟩, hne⟩
    have hpads : text.dropWhile Text.Base64.isAlphabet = List.replicate pads '=' := by
      rw [htext, List.dropWhile_append_of_pos fun _ => Text.Base64.isAlphabet_of_mem_letters]
      cases pads <;> rfl
    have hhead : (text.head?.map Text.Base64.isAlphabet).getD false = true := by
      obtain ⟨c, rest, hletters⟩ := List.exists_cons_of_ne_nil hne
      have hletter : Text.Base64.isAlphabet c = true :=
        Text.Base64.isAlphabet_of_mem_letters (hletters ▸ List.mem_cons_self)
      rw [htext, hletters]
      exact hletter
    rw [hpads, hhead]
    simpa using hle

/-- Attributes that may occur, with an address and a key in base64 among them, make a header. -/
theorem ofAttributes_eq_ok {addr key : List Char}
    (hallowed : ∀ entry ∈ attributes, isAllowed entry.1 = true)
    (haddr : lookup attributes "addr".toList = some addr) (hne : addr ≠ [])
    (hkey : lookup attributes "keydata".toList = some key)
    (hbase64 : isBase64 (withoutBlanks key) = true) :
    ofAttributes attributes = .ok {
      addr := String.ofList addr
      preferEncrypt :=
        if lookup attributes "prefer-encrypt".toList = some "mutual".toList then .wanted
        else .noPreference
      keydata := Text.Base64.decode (withoutBlanks key) } := by
  have hnone : (attributes.find? fun entry => !isAllowed entry.1) = none := by
    rw [List.find?_eq_none]
    intro entry hentry
    rw [hallowed entry hentry]
    decide
  unfold ofAttributes
  rw [hnone]
  dsimp only
  rw [haddr, hkey, Option.getD_some, Option.getD_some, hbase64,
    if_neg (mt List.isEmpty_iff.mp hne), if_neg (by decide)]

end AutocryptHeader

end PgpInspect
