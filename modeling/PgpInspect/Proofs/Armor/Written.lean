import Mathlib.Data.List.Basic
import Mathlib.Data.List.Infix
import PgpInspect.Armor.Payload
import PgpInspect.Proofs.Text.Base64

/-!
# Armored blocks as they are written

An armored block (`ArmoredBlock`) is a BEGIN line, header lines, an empty line, the payload in
base64 in lines of any lengths, a checksum line that may be missing, and the mark of the END line.
Each line ends in its own way, with or without a carriage return.

In a text without further BEGIN marks such blocks are found as they are written
(`Armor.findBlocks_written`). A block ends where it should because no line inside of it has five
dashes, and what stands around the blocks is passed over because a BEGIN mark that is not in it
cannot begin in it: no end of the mark is a beginning of the mark.
-/

namespace PgpInspect.Armor

/-! ## Lines -/

/-- The ends of a line. -/
inductive LineEnd where
  /-- A line feed. -/
  | lf
  /-- A carriage return and a line feed. -/
  | crlf

/-- What stands in front of the line feed. -/
def LineEnd.return : LineEnd → List Char
  | lf => []
  | crlf => ['\r']

/-- A line with its end. -/
structure Line where
  /-- The text of the line. -/
  text : List Char
  /-- The end of the line. -/
  ending : LineEnd

namespace Line

/-- A line up to its line feed. -/
def body (line : Line) : List Char := line.text ++ line.ending.return

/-- A line as it is written. -/
def written (line : Line) : List Char := line.body ++ ['\n']

end Line

/-! ## Blocks -/

/-- The types of armored blocks. -/
inductive BlockType where
  /-- Public keys. -/
  | publicKey
  /-- Secret keys. -/
  | privateKey
  /-- A message. -/
  | message
  /-- A signature. -/
  | signature

/-- The label of a type. -/
def BlockType.label : BlockType → List Char
  | publicKey => "PUBLIC KEY BLOCK".toList
  | privateKey => "PRIVATE KEY BLOCK".toList
  | message => "MESSAGE".toList
  | signature => "SIGNATURE".toList

/-- The opening mark of armor, up to the label. -/
def beginMark : List Char := "-----BEGIN PGP".toList

/-- The text of the BEGIN line. -/
def BlockType.beginText (type : BlockType) : List Char :=
  beginMark ++ ' ' :: (type.label ++ dashes)

/-- A line of armor headers: it is not blank and has no five dashes. -/
structure IsHeader (text : List Char) : Prop where
  /-- It is one line. -/
  oneLine : '\n' ∉ text
  /-- It is not blank. -/
  notBlank : text.all isHeaderSpace = false
  /-- It has no five dashes. -/
  noDashes : ¬ dashes <:+: text

/-- A checksum line: an equals sign and four characters of base64. -/
def IsChecksum (text : List Char) : Prop :=
  ∃ digits : List Char, digits.length = 4 ∧ (∀ c ∈ digits, Text.Base64.isAlphabet c = true) ∧
    text = '=' :: digits

/-- A payload in armor. -/
structure ArmoredBlock where
  /-- The type that the BEGIN and END lines name. -/
  type : BlockType
  /-- The end of the BEGIN line. -/
  beginEnd : LineEnd
  /-- The header lines. -/
  headers : List Line
  /-- The end of the empty line. -/
  emptyEnd : LineEnd
  /-- The lines in base64. -/
  body : List Line
  /-- The checksum line. -/
  checksum : Option Line
  /-- The octets. -/
  payload : Octets
  /-- The header lines are such. -/
  isHeader : ∀ line ∈ headers, IsHeader line.text
  /-- A line in base64 is not empty. -/
  text_ne_nil : ∀ line ∈ body, line.text ≠ []
  /-- The lines in base64 write the payload. -/
  flatMap_text : body.flatMap Line.text = Text.Base64.encode payload
  /-- The checksum line is one. -/
  isChecksum : ∀ line ∈ checksum, IsChecksum line.text

namespace ArmoredBlock

variable (block : ArmoredBlock)

/-- The BEGIN line. -/
def beginLine : Line := ⟨block.type.beginText, block.beginEnd⟩

/-- The lines between the empty line and the END line. -/
def payloadLines : List Line := block.body ++ block.checksum.toList

/-- The lines between the BEGIN line and the END line. -/
def insideLines : List Line := block.headers ++ ⟨[], block.emptyEnd⟩ :: block.payloadLines

/-- The block as it is written, up to the mark of the END line. Whatever ends that line belongs to
the text behind the block. -/
def written : List Char :=
  block.beginLine.written ++ (block.insideLines.flatMap Line.written ++ endMark block.type.label)

end ArmoredBlock

/-- Blocks with a text behind each. -/
def writtenBlocks (parts : List (ArmoredBlock × List Char)) : List Char :=
  parts.flatMap fun (block, after) => block.written ++ after

/-! ## Five dashes -/

/-- A character that is no dash makes no five dashes. -/
theorem not_dashes_infix_concat {text : List Char} {c : Char} (hc : c ≠ '-')
    (h : ¬ dashes <:+: text) : ¬ dashes <:+: text ++ [c] := by
  intro hoccurs
  rcases List.infix_concat_iff.mp hoccurs with hsuffix | hoccurs
  · rcases List.suffix_concat_iff.mp hsuffix with hnil | ⟨front, hdashes, -⟩
    · cases hnil
    · have hmem : c ∈ dashes := by
        rw [hdashes]
        exact List.mem_append_right front List.mem_cons_self
      exact hc (List.eq_of_mem_replicate (n := 5) hmem)
  · exact h hoccurs

/-- A text without dashes has no five dashes. -/
theorem not_dashes_infix_of_not_mem {text : List Char} (h : '-' ∉ text) : ¬ dashes <:+: text :=
  fun hoccurs => h (hoccurs.subset (List.mem_cons_self))

/-- A line is written without five dashes if its text has none. -/
theorem not_dashes_infix_written {line : Line} (h : ¬ dashes <:+: line.text) :
    ¬ dashes <:+: line.written := by
  have hbody : ¬ dashes <:+: line.body := by
    unfold Line.body
    cases line.ending with
    | lf =>
      rw [LineEnd.return, List.append_nil]
      exact h
    | crlf => exact not_dashes_infix_concat (by decide) h
  exact not_dashes_infix_concat (by decide) hbody

/-- The lines inside of a block have no five dashes. -/
theorem not_dashes_infix_inside (block : ArmoredBlock) {line : Line}
    (h : line ∈ block.insideLines) : ¬ dashes <:+: line.text := by
  unfold ArmoredBlock.insideLines ArmoredBlock.payloadLines at h
  simp only [List.mem_append, List.mem_cons, Option.mem_toList] at h
  rcases h with hheader | rfl | hbody | hchecksum
  · exact (block.isHeader line hheader).noDashes
  · exact not_dashes_infix_of_not_mem List.not_mem_nil
  · apply not_dashes_infix_of_not_mem
    intro hdash
    have hmem : '-' ∈ Text.Base64.encode block.payload := by
      rw [← block.flatMap_text]
      exact List.mem_flatMap.mpr ⟨line, hbody, hdash⟩
    rcases Text.Base64.isAlphabet_or_eq_of_mem_encode hmem with halphabet | hpad
    · cases halphabet
    · cases hpad
  · apply not_dashes_infix_of_not_mem
    obtain ⟨digits, -, halphabet, htext⟩ := block.isChecksum line hchecksum
    rw [htext, List.mem_cons, not_or]
    exact ⟨by decide, fun hdash => absurd (halphabet '-' hdash) (by decide)⟩

/-! ## Finding a block -/

/-- What a part does not begin in comes in front of what stands before the part. -/
theorem before?_append {part text tail : List Char}
    (h : ∀ rest, rest ≠ [] → rest <:+ text → ¬ part <+: rest ++ tail) :
    Text.before? part (text ++ tail) = (Text.before? part tail).map (text ++ ·) := by
  induction text with
  | nil => simp
  | cons c text ih =>
    have hhere : part.isPrefixOf (c :: (text ++ tail)) = false := by
      rw [Bool.eq_false_iff, ne_eq, List.isPrefixOf_iff_prefix]
      exact h (c :: text) (List.cons_ne_nil c text) (List.suffix_refl _)
    have hrest : Text.before? part (text ++ tail) = (Text.before? part tail).map (text ++ ·) :=
      ih fun rest hne hsuffix => h rest hne (hsuffix.trans (List.suffix_cons c text))
    rw [List.cons_append, Text.before?, hhere, hrest, Option.map_map]
    rfl

/-- A part is found where it stands. -/
theorem before?_self {part : List Char} (hpart : part ≠ []) (rest : List Char) :
    Text.before? part (part ++ rest) = some [] := by
  cases part with
  | nil => exact absurd rfl hpart
  | cons c part =>
    rw [List.cons_append, Text.before?, if_pos]
    exact List.isPrefixOf_iff_prefix.mpr (List.prefix_append (c :: part) rest)

/-- A mark that begins with five dashes does not begin in a line without them. -/
theorem not_prefix_of_suffix_written {line : Line} (h : ¬ dashes <:+: line.text) {mark : List Char}
    (hmark : dashes <+: mark) {rest tail : List Char} (hne : rest ≠ [])
    (hsuffix : rest <:+ line.written) : ¬ mark <+: rest ++ tail := by
  intro hstarts
  rcases List.prefix_or_prefix_of_prefix (hmark.trans hstarts) (List.prefix_append rest tail) with
    hdashes | hdashes
  · exact not_dashes_infix_written h (hdashes.isInfix.trans hsuffix.isInfix)
  · -- The rest of a line ends in a line feed.
    have hfeed : '\n' ∈ rest := by
      obtain ⟨front, hfront⟩ := hsuffix
      have hlast : (front ++ rest).getLast? = some '\n' := by
        rw [hfront, Line.written, List.getLast?_concat]
      rw [List.getLast?_append_of_ne_nil front hne] at hlast
      exact List.mem_of_getLast? hlast
    exact absurd (hdashes.subset hfeed) (by decide)

/-- The closing mark of a block is found behind its lines. -/
theorem before?_lines {lines : List Line} (h : ∀ line ∈ lines, ¬ dashes <:+: line.text)
    {mark : List Char} (hmark : dashes <+: mark) (rest : List Char) :
    Text.before? mark (lines.flatMap Line.written ++ (mark ++ rest)) =
      some (lines.flatMap Line.written) := by
  induction lines with
  | nil =>
    apply before?_self
    rintro rfl
    exact absurd hmark (by decide)
  | cons line lines ih =>
    have hline := h line List.mem_cons_self
    have hlines := ih fun other hother => h other (List.mem_cons_of_mem line hother)
    rw [List.flatMap_cons, List.append_assoc, before?_append, hlines]
    · rfl
    · exact fun rest hne hsuffix => not_prefix_of_suffix_written hline hmark hne hsuffix

/-- The BEGIN line of a block is one. -/
theorem beginLine?_written (block : ArmoredBlock) (rest : List Char) :
    beginLine? (block.beginLine.written ++ rest) = some (block.type.label, rest) := by
  obtain ⟨type, ending, headers, emptyEnd, body, checksum, payload, _, _, _, _⟩ := block
  cases type <;> cases ending <;> rfl

/-- A block has the length to which it is written. -/
theorem blockLength?_written (block : ArmoredBlock) (rest : List Char) :
    blockLength? (block.written ++ rest) = some block.written.length := by
  have hmark : dashes <+: endMark block.type.label := by
    have hopening : dashes <+: "-----END PGP ".toList := by decide
    unfold endMark
    rw [List.append_assoc]
    exact hopening.trans (List.prefix_append _ _)
  unfold blockLength? ArmoredBlock.written
  rw [List.append_assoc, List.append_assoc, beginLine?_written]
  simp only [Option.bind_eq_bind, Option.bind_some]
  rw [before?_lines (fun line hline => not_dashes_infix_inside block hline) hmark]
  simp
  omega

/-! ## Finding all blocks -/

/-- What belongs to a block already found is passed over. -/
theorem blocksFrom_length (text rest : List Char) :
    blocksFrom text.length (text ++ rest) = blocksFrom 0 rest := by
  induction text with
  | nil => rfl
  | cons c text ih => exact ih

/-- A block in front is found as it is written. -/
theorem blocksFrom_written (block : ArmoredBlock) (rest : List Char) :
    blocksFrom 0 (block.written ++ rest) = block.written :: blocksFrom 0 rest := by
  have hlength := blockLength?_written block rest
  cases hwritten : block.written with
  | nil =>
    have hne : block.written ≠ [] := by
      unfold ArmoredBlock.written Line.written
      simp
    exact absurd hwritten hne
  | cons c text =>
    rw [hwritten, List.cons_append] at hlength
    rw [List.cons_append, blocksFrom, hlength]
    dsimp only
    rw [← List.cons_append, List.take_left, List.length_cons, Nat.add_sub_cancel,
      blocksFrom_length]

/-- A block begins with a BEGIN mark. -/
theorem beginMark_prefix_of_blockLength? {text : List Char} {length : Nat}
    (h : blockLength? text = some length) : beginMark <+: text := by
  unfold blockLength? beginLine? at h
  cases hmark : "-----BEGIN PGP ".toList.isPrefixOf? text with
  | none =>
    rw [hmark] at h
    cases h
  | some rest =>
    have htext := List.append_eq_of_isPrefixOf?_eq_some hmark
    have hstarts : beginMark <+: "-----BEGIN PGP ".toList := by decide
    rw [← htext]
    exact hstarts.trans (List.prefix_append _ rest)

/-- No end of the BEGIN mark is a beginning of it. -/
theorem not_drop_prefix_beginMark : ∀ count < beginMark.length, 0 < count →
    ¬ beginMark.drop count <+: beginMark := by
  decide

/-- A BEGIN mark that is not in a text does not begin in it, with another such mark or nothing
behind. -/
theorem not_beginMark_prefix_append {text rest tail : List Char} (h : ¬ beginMark <:+: text)
    (hne : rest ≠ []) (hsuffix : rest <:+ text) (htail : tail = [] ∨ beginMark <+: tail) :
    ¬ beginMark <+: rest ++ tail := by
  intro hstarts
  rcases List.prefix_or_prefix_of_prefix hstarts (List.prefix_append rest tail) with hinside | hpart
  · exact h (hinside.isInfix.trans hsuffix.isInfix)
  · obtain ⟨more, hmore⟩ := hpart
    have hdrop : beginMark.drop rest.length = more := by
      rw [← hmore, List.drop_left]
    have hmoreTail : more <+: tail := by
      rw [← hmore] at hstarts
      exact (List.prefix_append_right_inj rest).mp hstarts
    have hlength : rest.length < beginMark.length := by
      rw [← hmore, List.length_append]
      have hpos : 0 < more.length := by
        apply List.length_pos_iff.mpr
        rintro rfl
        rw [List.append_nil] at hmore
        rw [hmore] at hsuffix
        exact h hsuffix.isInfix
      omega
    have hstart := List.length_pos_iff.mpr hne
    rcases htail with rfl | htail
    · obtain rfl := List.prefix_nil.mp hmoreTail
      have hempty := List.drop_eq_nil_iff.mp hdrop
      omega
    · have hle : more.length ≤ beginMark.length := by
        rw [← hdrop, List.length_drop]
        exact Nat.sub_le _ _
      have hborder : beginMark.drop rest.length <+: beginMark := by
        rw [hdrop]
        exact List.prefix_of_prefix_length_le hmoreTail htail hle
      exact not_drop_prefix_beginMark rest.length hlength hstart hborder

/-- A text without a BEGIN mark is passed over. -/
theorem blocksFrom_append {text tail : List Char} (h : ¬ beginMark <:+: text)
    (htail : tail = [] ∨ beginMark <+: tail) :
    blocksFrom 0 (text ++ tail) = blocksFrom 0 tail := by
  induction text with
  | nil => rfl
  | cons c text ih =>
    have hnone : blockLength? (c :: (text ++ tail)) = none := by
      rw [Option.eq_none_iff_forall_ne_some]
      intro length hlength
      exact not_beginMark_prefix_append h (List.cons_ne_nil c text) (List.suffix_refl _) htail
        (beginMark_prefix_of_blockLength? hlength)
    rw [List.cons_append, blocksFrom, hnone]
    exact ih fun hoccurs => h (hoccurs.trans (List.suffix_cons c text).isInfix)

/-- Written blocks begin with a BEGIN mark, if there are any. -/
theorem writtenBlocks_eq_nil_or (parts : List (ArmoredBlock × List Char)) :
    writtenBlocks parts = [] ∨ beginMark <+: writtenBlocks parts := by
  cases parts with
  | nil => exact .inl rfl
  | cons part parts =>
    right
    unfold writtenBlocks ArmoredBlock.written Line.written Line.body ArmoredBlock.beginLine
      BlockType.beginText
    simp only [List.flatMap_cons, List.append_assoc]
    exact List.prefix_append _ _

/-- The blocks of a text are found as they are written, if there is no BEGIN mark in front of,
between and behind them. -/
theorem findBlocks_written {before : List Char} {parts : List (ArmoredBlock × List Char)}
    (hbefore : ¬ beginMark <:+: before) (hafter : ∀ part ∈ parts, ¬ beginMark <:+: part.2) :
    findBlocks (before ++ writtenBlocks parts) = parts.map fun part => part.1.written := by
  unfold findBlocks
  induction parts generalizing before with
  | nil =>
    rw [blocksFrom_append hbefore (writtenBlocks_eq_nil_or [])]
    rfl
  | cons part parts ih =>
    have hrest := ih (hafter part List.mem_cons_self)
      fun other hother => hafter other (List.mem_cons_of_mem part hother)
    have hcons : writtenBlocks (part :: parts) =
        part.1.written ++ (part.2 ++ writtenBlocks parts) := by
      unfold writtenBlocks
      rw [List.flatMap_cons, List.append_assoc]
    rw [blocksFrom_append hbefore (writtenBlocks_eq_nil_or _), hcons, blocksFrom_written, hrest,
      List.map_cons]

end PgpInspect.Armor
