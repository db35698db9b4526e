import PgpInspect.Proofs.Armor.Written

/-!
# Armor is read as it is written

The payloads of armored blocks are read from the text that has them, in order, whatever stands around
the blocks and however their lines are broken and ended (`Armor.dearmor_written_eq_ok_iff`).

The proof follows the reader through one block. Its lines are those that were written
(`split_written`). The headers end at the empty line (`skipToPayload_written`), and the payload at
the END line, which is the first dashed line since base64 has no dashes
(`beforeDashedLine?_append`). The last `=` begins the checksum line or, without one, is a pad at the
end or missing altogether, so that what is left is the payload in base64
(`withoutChecksum_payloadText`), which is a whole number of groups.

Only a header line that turns into a dashed line when its carriage returns are left out makes a block
unreadable (`decodeBlock_written_of_not_headersApart`). That does not happen to header lines without
carriage returns in them (`ArmoredBlock.headersApart_of_not_mem`).
-/

namespace PgpInspect

/-! ## Splitting lines -/

namespace Text

/-- A text without a character loses nothing when that character is left out. -/
theorem filter_bne_of_not_mem {c : Char} {text : List Char} (h : c ∉ text) :
    text.filter (· != c) = text := by
  apply List.filter_eq_self.mpr
  intro other hother
  rw [bne_iff_ne]
  rintro rfl
  exact h hother

/-- A text without separators is one part. -/
theorem split_of_not_mem {separator : Char} {part : List Char} (h : separator ∉ part) :
    split separator part = [part] := by
  induction part with
  | nil => rfl
  | cons c part ih =>
    rw [List.mem_cons, not_or] at h
    rw [split, if_neg (Ne.symm h.1), ih h.2]

/-- A separator ends a part. -/
theorem split_append {separator : Char} {part : List Char} (h : separator ∉ part)
    (rest : List Char) :
    split separator (part ++ separator :: rest) = part :: split separator rest := by
  induction part with
  | nil => rw [List.nil_append, split, if_pos rfl]
  | cons c part ih =>
    rw [List.mem_cons, not_or] at h
    rw [List.cons_append, split, if_neg (Ne.symm h.1), ih h.2]

/-- Parts in front of a last one are joined by the separators that end them. -/
theorem join_concat (separator : Char) (parts : List (List Char)) (last : List Char) :
    join separator (parts ++ [last]) =
      (parts.flatMap fun part => part ++ [separator]) ++ last := by
  induction parts with
  | nil => rfl
  | cons part parts ih =>
    have hjoin : join separator (part :: (parts ++ [last])) =
        part ++ separator :: join separator (parts ++ [last]) := by
      cases parts <;> rfl
    rw [List.cons_append, hjoin, ih]
    simp

end Text

namespace Armor

/-- A line has no line feed but at its end if its text has none. -/
theorem not_mem_body {line : Line} (h : '\n' ∉ line.text) : '\n' ∉ line.body := by
  unfold Line.body
  rw [List.mem_append, not_or]
  refine ⟨h, ?_⟩
  cases line.ending <;> decide

/-- Written lines are split where they end. -/
theorem split_lines {lines : List Line} (h : ∀ line ∈ lines, '\n' ∉ line.text)
    {last : List Char} (hlast : '\n' ∉ last) :
    Text.split '\n' (lines.flatMap Line.written ++ last) = lines.map Line.body ++ [last] := by
  induction lines with
  | nil => exact Text.split_of_not_mem hlast
  | cons line lines ih =>
    have hline := not_mem_body (h line List.mem_cons_self)
    have hlines := ih fun other hother => h other (List.mem_cons_of_mem line hother)
    rw [List.flatMap_cons, Line.written, List.append_assoc, List.append_assoc,
      List.singleton_append, Text.split_append hline, hlines]
    rfl

/-! ## Clean lines -/

/-- The characters that a line loses at its end. -/
def isTrailing (c : Char) : Bool := c == ' ' || c == '\t'

/-- A clean line is made in two steps. -/
theorem cleanLine_eq (line : List Char) :
    cleanLine line = ((line.filter (· != '\r')).reverse.dropWhile isTrailing).reverse := rfl

/-- What a line loses at its end is blank and not printed. -/
theorem of_isTrailing {c : Char} (h : isTrailing c = true) :
    isHeaderSpace c = true ∧ c.toNat ≤ 32 := by
  simp only [isTrailing, Bool.or_eq_true, beq_iff_eq] at h
  rcases h with rfl | rfl
  · decide
  · decide

/-- The end of a line does not show in the clean line. -/
theorem cleanLine_body (line : Line) : cleanLine line.body = cleanLine line.text := by
  have hreturn : line.ending.return.filter (· != '\r') = [] := by
    cases line.ending <;> rfl
  rw [cleanLine_eq, cleanLine_eq, Line.body, List.filter_append, hreturn, List.append_nil]

/-- A line of printed characters is clean. -/
theorem cleanLine_of_printed {text : List Char} (h : ∀ c ∈ text, 32 < c.toNat) :
    cleanLine text = text := by
  have hreturn : '\r' ∉ text := fun hmem => absurd (h '\r' hmem) (by decide)
  rw [cleanLine_eq, Text.filter_bne_of_not_mem hreturn]
  cases hreverse : text.reverse with
  | nil => simpa using hreverse.symm
  | cons c rest =>
    have hprinted := h c (List.mem_reverse.mp (hreverse ▸ List.mem_cons_self))
    have hkept : ¬ isTrailing c = true := by
      intro htrailing
      have hle := (of_isTrailing htrailing).2
      omega
    rw [List.dropWhile_cons_of_neg hkept, ← hreverse, List.reverse_reverse]

/-- A line that is not blank is not blank when it is clean. -/
theorem all_isHeaderSpace_cleanLine {text : List Char} (h : text.all isHeaderSpace = false) :
    (cleanLine text).all isHeaderSpace = false := by
  rw [List.all_eq_false] at h ⊢
  obtain ⟨c, hc, hspace⟩ := h
  have hreturn : c ≠ '\r' := by
    rintro rfl
    exact hspace rfl
  have hfilter : c ∈ (text.filter (· != '\r')).reverse :=
    List.mem_reverse.mpr (List.mem_filter.mpr ⟨hc, bne_iff_ne.mpr hreturn⟩)
  refine ⟨c, ?_, hspace⟩
  rw [cleanLine_eq, List.mem_reverse]
  generalize (text.filter (· != '\r')).reverse = reversed at hfilter ⊢
  rw [← List.takeWhile_append_dropWhile (p := isTrailing) (l := reversed), List.mem_append] at hfilter
  rcases hfilter with htrailing | hrest
  · exact absurd (of_isTrailing (List.mem_takeWhile_imp htrailing)).1 hspace
  · exact hrest

/-- A text with a dashed line has five dashes. -/
theorem dashes_infix_of_isDashed {text : List Char} (h : isDashed text = true) :
    dashes <:+: text := by
  have hbefore : ∀ atStart, (beforeDashedLine? atStart text).isSome = true →
      dashes <:+: text := by
    clear h
    induction text with
    | nil =>
      intro atStart hsome
      cases hsome
    | cons c rest ih =>
      intro atStart hsome
      rw [beforeDashedLine?] at hsome
      split at hsome
      · next hdashed =>
        unfold afterDashedLine? at hdashed
        cases hstarts : dashes.isPrefixOf? (c :: rest) with
        | none =>
          rw [hstarts] at hdashed
          exact absurd hdashed.2 (by simp)
        | some title =>
          rw [← List.append_eq_of_isPrefixOf?_eq_some hstarts]
          exact (List.prefix_append dashes title).isInfix
      · rw [Option.isSome_map] at hsome
        exact (ih _ hsome).trans (List.suffix_cons c rest).isInfix
  exact hbefore true h

/-- A header line without carriage returns does not turn into a dashed line. -/
theorem isDashed_cleanLine_of_not_mem {text : List Char} (h : IsHeader text) (hreturn : '\r' ∉ text) :
    isDashed (cleanLine text) = false := by
  rw [Bool.eq_false_iff]
  intro hdashed
  have hclean : cleanLine text <+: text := by
    have hsuffix := List.dropWhile_suffix isTrailing (l := text.reverse)
    rw [← List.reverse_prefix, List.reverse_reverse] at hsuffix
    rw [cleanLine_eq, Text.filter_bne_of_not_mem hreturn]
    exact hsuffix
  exact h.noDashes ((dashes_infix_of_isDashed hdashed).trans hclean.isInfix)

/-! ## The headers -/

/-- No header line turns into a dashed line when its carriage returns are left out. -/
def ArmoredBlock.HeadersApart (block : ArmoredBlock) : Prop :=
  ∀ line ∈ block.headers, isDashed (cleanLine line.text) = false

/-- Header lines without carriage returns do not turn into dashed lines. -/
theorem ArmoredBlock.headersApart_of_not_mem {block : ArmoredBlock}
    (h : ∀ line ∈ block.headers, '\r' ∉ line.text) : block.HeadersApart :=
  fun line hline => isDashed_cleanLine_of_not_mem (block.isHeader line hline) (h line hline)

/-- The headers are passed over up to the empty line. -/
theorem skipToPayload_headers {headers : List Line} (hheader : ∀ line ∈ headers, IsHeader line.text)
    (hapart : ∀ line ∈ headers, isDashed (cleanLine line.text) = false) (emptyEnd : LineEnd)
    {rest : List (List Char)} (hrest : rest ≠ []) :
    skipToPayload .headers (headers.map Line.body ++ Line.body ⟨[], emptyEnd⟩ :: rest) =
      .ok rest := by
  induction headers with
  | nil =>
    have hclean : cleanLine (Line.body ⟨[], emptyEnd⟩) = [] := cleanLine_body ⟨[], emptyEnd⟩
    rw [List.map_nil, List.nil_append, skipToPayload, if_neg (by simp [hrest])]
    dsimp only
    rw [hclean]
    rfl
  | cons line headers ih =>
    have hblank := all_isHeaderSpace_cleanLine (hheader line List.mem_cons_self).notBlank
    have hdashed := hapart line List.mem_cons_self
    have hheaders := ih (fun other hother => hheader other (List.mem_cons_of_mem line hother))
      (fun other hother => hapart other (List.mem_cons_of_mem line hother))
    rw [List.map_cons, List.cons_append, skipToPayload, if_neg (by simp)]
    dsimp only
    rw [cleanLine_body, if_neg (by simp [hdashed]), if_neg (by simp [hblank])]
    exact hheaders

/-- A dashed line among the headers ends the reading. -/
theorem skipToPayload_dashed {headers : List Line} (hheader : ∀ line ∈ headers, IsHeader line.text)
    (hdashed : ∃ line ∈ headers, isDashed (cleanLine line.text) = true) (last : List Char)
    (rest : List (List Char)) :
    skipToPayload .headers (headers.map Line.body ++ last :: rest) = .error .blankLineMissing := by
  induction headers with
  | nil =>
    obtain ⟨line, hline, -⟩ := hdashed
    cases hline
  | cons line headers ih =>
    rw [List.map_cons, List.cons_append, skipToPayload, if_neg (by simp)]
    dsimp only
    rw [cleanLine_body]
    cases hhere : isDashed (cleanLine line.text) with
    | true => rfl
    | false =>
      have hblank := all_isHeaderSpace_cleanLine (hheader line List.mem_cons_self).notBlank
      have hrest : ∃ other ∈ headers, isDashed (cleanLine other.text) = true := by
        obtain ⟨other, hother, hdashed⟩ := hdashed
        rcases List.mem_cons.mp hother with rfl | hother
        · rw [hhere] at hdashed
          cases hdashed
        · exact ⟨other, hother, hdashed⟩
      rw [if_neg (by simp), if_neg (by simp [hblank])]
      exact ih (fun other hother => hheader other (List.mem_cons_of_mem line hother)) hrest

/-- The BEGIN line is a dashed line that names a kind of plain armor. -/
theorem kindOfLine?_beginText (type : BlockType) : isDashed (cleanLine type.beginText) = true ∧
    (unicodeLines (cleanLine type.beginText)).findSome? kindOfLine? = some .plain := by
  cases type <;> decide

/-- The BEGIN line opens the headers. -/
theorem skipToPayload_beginLine (block : ArmoredBlock) {rest : List (List Char)}
    (hrest : rest ≠ []) :
    skipToPayload .opening (block.beginLine.body :: rest) = skipToPayload .headers rest := by
  obtain ⟨hdashed, hkind⟩ := kindOfLine?_beginText block.type
  rw [skipToPayload, if_neg (by simp [hrest])]
  dsimp only
  rw [cleanLine_body, ArmoredBlock.beginLine, if_pos hdashed, hkind]

/-! ## The lines of a block -/

/-- A line of the payload is printed, and has neither dashes nor line feeds. -/
theorem printed_of_mem_payloadLines (block : ArmoredBlock) {line : Line}
    (h : line ∈ block.payloadLines) : ∀ c ∈ line.text, 32 < c.toNat ∧ c ≠ '-' := by
  intro c hc
  have hprinted : Text.Base64.isAlphabet c = true ∨ c = '=' := by
    unfold ArmoredBlock.payloadLines at h
    rcases List.mem_append.mp h with hbody | hchecksum
    · have hmem : c ∈ Text.Base64.encode block.payload := by
        rw [← block.flatMap_text]
        exact List.mem_flatMap.mpr ⟨line, hbody, hc⟩
      exact Text.Base64.isAlphabet_or_eq_of_mem_encode hmem
    · obtain ⟨digits, -, halphabet, htext⟩ :=
        block.isChecksum line (Option.mem_toList.mp hchecksum)
      rw [htext] at hc
      rcases List.mem_cons.mp hc with hpad | hdigit
      · exact .inr hpad
      · exact .inl (halphabet c hdigit)
  rcases hprinted with halphabet | rfl
  · have hbounds := Text.Base64.bounds_of_isAlphabet halphabet
    exact ⟨hbounds.1, hbounds.2.2.1⟩
  · decide

/-- The lines inside of a block are single lines. -/
theorem not_mem_text_insideLines (block : ArmoredBlock) {line : Line}
    (h : line ∈ block.insideLines) : '\n' ∉ line.text := by
  unfold ArmoredBlock.insideLines at h
  rcases List.mem_append.mp h with hheader | hinside
  · exact (block.isHeader line hheader).oneLine
  · rcases List.mem_cons.mp hinside with rfl | hpayload
    · exact List.not_mem_nil
    · intro hfeed
      exact absurd (printed_of_mem_payloadLines block hpayload '\n' hfeed).1 (by decide)

/-- A block is split into the lines that were written. -/
theorem split_written (block : ArmoredBlock) : Text.split '\n' block.written =
    block.beginLine.body :: (block.headers.map Line.body ++ Line.body ⟨[], block.emptyEnd⟩ ::
      (block.payloadLines.map Line.body ++ [endMark block.type.label])) := by
  have hbegin : '\n' ∉ block.type.beginText := by
    cases block.type <;> decide
  have hend : '\n' ∉ endMark block.type.label := by
    cases block.type <;> decide
  have hlines : ∀ line ∈ block.beginLine :: block.insideLines, '\n' ∉ line.text := by
    intro line hline
    rcases List.mem_cons.mp hline with rfl | hinside
    · exact hbegin
    · exact not_mem_text_insideLines block hinside
  have hsplit := split_lines hlines hend
  unfold ArmoredBlock.written
  rw [← List.append_assoc, ← List.flatMap_cons, hsplit]
  simp [ArmoredBlock.insideLines]

/-- The headers of a block are passed over. -/
theorem skipToPayload_written {block : ArmoredBlock} (h : block.HeadersApart) :
    skipToPayload .opening (Text.split '\n' block.written) =
      .ok (block.payloadLines.map Line.body ++ [endMark block.type.label]) := by
  rw [split_written, skipToPayload_beginLine block (by simp),
    skipToPayload_headers block.isHeader h block.emptyEnd (by simp)]

/-! ## The text of the payload -/

/-- Lines of the payload with their line feeds only. -/
def textOf (lines : List Line) : List Char := lines.flatMap fun line => line.text ++ ['\n']

/-- A last line ends the text. -/
theorem textOf_concat (lines : List Line) (line : Line) :
    textOf (lines ++ [line]) = textOf lines ++ line.text ++ ['\n'] := by
  unfold textOf
  rw [List.flatMap_append, List.flatMap_singleton, List.append_assoc]

/-- The clean lines of the payload are those that were written. -/
theorem join_cleanLine (block : ArmoredBlock) :
    Text.join '\n' ((block.payloadLines.map Line.body ++ [endMark block.type.label]).map cleanLine) =
      textOf block.payloadLines ++ endMark block.type.label := by
  have hend : cleanLine (endMark block.type.label) = endMark block.type.label := by
    cases block.type <;> decide
  have hlines : (block.payloadLines.map Line.body).map cleanLine =
      block.payloadLines.map Line.text := by
    rw [List.map_map]
    apply List.map_congr_left
    intro line hline
    rw [Function.comp_apply, cleanLine_body]
    exact cleanLine_of_printed fun c hc => (printed_of_mem_payloadLines block hline c hc).1
  unfold textOf
  rw [List.map_append, hlines, List.map_singleton, hend, Text.join_concat, List.flatMap_map]

/-- A text without dashes that ends a line is what stands in front of a dashed line behind it. -/
theorem beforeDashedLine?_append {mark text : List Char} (hmark : (afterDashedLine? mark).isSome = true)
    (hdash : '-' ∉ text) {atStart : Bool}
    (hstart : text = [] ∧ atStart = true ∨ text.getLast? = some '\n') :
    beforeDashedLine? atStart (text ++ mark) = some text := by
  induction text generalizing atStart with
  | nil =>
    rcases hstart with ⟨-, rfl⟩ | hlast
    · cases mark with
      | nil => cases hmark
      | cons c rest =>
        rw [List.nil_append, beforeDashedLine?, if_pos ⟨rfl, hmark⟩]
    · cases hlast
  | cons c text ih =>
    rw [List.mem_cons, not_or] at hdash
    have hnone : afterDashedLine? (c :: (text ++ mark)) = none := by
      have hstarts : dashes.isPrefixOf? (c :: (text ++ mark)) = none := by
        rw [Option.eq_none_iff_forall_ne_some]
        intro rest hrest
        have hcons := List.append_eq_of_isPrefixOf?_eq_some hrest
        exact hdash.1 (List.cons.inj hcons).1
      unfold afterDashedLine?
      rw [hstarts]
      rfl
    have hrest : text = [] ∧ Text.isLineEnd c = true ∨ text.getLast? = some '\n' := by
      rcases hstart with ⟨hnil, -⟩ | hlast
      · cases hnil
      · cases text with
        | nil =>
          rw [List.getLast?_singleton, Option.some.injEq] at hlast
          rw [hlast]
          exact .inl ⟨rfl, rfl⟩
        | cons next rest =>
          rw [List.getLast?_cons_cons] at hlast
          exact .inr hlast
    rw [List.cons_append, beforeDashedLine?, hnone, if_neg (by simp), ih hdash.2 hrest]
    rfl

/-- The payload of a block stands in front of the END line. -/
theorem beforeDashedLine?_payload (block : ArmoredBlock) :
    beforeDashedLine? true (textOf block.payloadLines ++ endMark block.type.label) =
      some (textOf block.payloadLines) := by
  have hmark : (afterDashedLine? (endMark block.type.label)).isSome = true := by
    cases block.type <;> decide
  have hdash : '-' ∉ textOf block.payloadLines := by
    intro hmem
    obtain ⟨line, hline, hc⟩ := List.mem_flatMap.mp hmem
    rcases List.mem_append.mp hc with htext | hfeed
    · exact (printed_of_mem_payloadLines block hline '-' htext).2 rfl
    · exact absurd hfeed (by decide)
  apply beforeDashedLine?_append hmark hdash
  rcases List.eq_nil_or_concat block.payloadLines with hnil | ⟨lines, line, hlines⟩
  · rw [hnil]
    exact .inl ⟨rfl, rfl⟩
  · right
    rw [hlines, List.concat_eq_append, textOf_concat, List.getLast?_concat]

/-! ## The checksum -/

/-- What follows the last `=` is cut off with it. -/
theorem withoutChecksum_append (text : List Char) {digits : List Char} (hne : digits ≠ [])
    (hpad : '=' ∉ digits) : withoutChecksum (text ++ '=' :: digits) = text := by
  have hdrop : (digits.reverse ++ '=' :: text.reverse).dropWhile (· != '=') =
      '=' :: text.reverse := by
    rw [List.dropWhile_append_of_pos]
    · rfl
    · intro c hc
      rw [bne_iff_ne]
      rintro rfl
      exact hpad (List.mem_reverse.mp hc)
  have hreverse : (text ++ '=' :: digits).reverse = digits.reverse ++ '=' :: text.reverse := by
    simp
  unfold withoutChecksum
  rw [hreverse]
  split
  · next hnil => simp at hnil
  · next rest hcons =>
    cases hdigits : digits.reverse with
    | nil => exact absurd (List.reverse_eq_nil_iff.mp hdigits) hne
    | cons digit more =>
      rw [hdigits] at hcons
      have hmem : '=' ∈ digits := by
        rw [← List.mem_reverse, hdigits, (List.cons.inj hcons).1]
        exact List.mem_cons_self
      exact absurd hmem hpad
  · rw [hdrop]
    simp

/-- A text without `=`, or with `=` at its end, has no checksum. -/
theorem withoutChecksum_eq_self {text : List Char} (h : '=' ∈ text → text.getLast? = some '=') :
    withoutChecksum text = text := by
  unfold withoutChecksum
  split
  · next hnil => simpa using hnil.symm
  · rfl
  · next hother =>
    have hpad : '=' ∉ text := by
      intro hmem
      have hlast := h hmem
      rw [← List.head?_reverse, List.head?_eq_some_iff] at hlast
      obtain ⟨rest, hrest⟩ := hlast
      exact hother rest hrest
    have hnone : text.reverse.dropWhile (· != '=') = [] := by
      rw [List.dropWhile_eq_nil_iff]
      intro c hc
      rw [bne_iff_ne]
      rintro rfl
      exact hpad (List.mem_reverse.mp hc)
    rw [hnone]

/-- The text of lines without its line feeds is the text that was broken into them. -/
theorem filter_textOf {lines : List Line} (h : ∀ line ∈ lines, '\n' ∉ line.text) :
    (textOf lines).filter (· != '\n') = lines.flatMap Line.text := by
  unfold textOf
  induction lines with
  | nil => rfl
  | cons line lines ih =>
    have hline := Text.filter_bne_of_not_mem (h line List.mem_cons_self)
    have hlines := ih fun other hother => h other (List.mem_cons_of_mem line hother)
    rw [List.flatMap_cons, List.filter_append, List.filter_append, hline, hlines,
      List.flatMap_cons]
    simp

/-- Lines in base64 without a checksum lose nothing but their last line feed. -/
theorem filter_withoutChecksum_textOf {lines : List Line} {payload : Octets}
    (hne : ∀ line ∈ lines, line.text ≠ []) (hfeed : ∀ line ∈ lines, '\n' ∉ line.text)
    (h : (textOf lines).filter (· != '\n') = Text.Base64.encode payload) :
    (withoutChecksum (textOf lines).dropLast).filter (· != '\n') =
      Text.Base64.encode payload := by
  rcases List.eq_nil_or_concat lines with rfl | ⟨front, line, rfl⟩
  · exact h
  · rw [List.concat_eq_append] at h hne hfeed ⊢
    have hline : line ∈ front ++ [line] := List.mem_append_right front List.mem_cons_self
    rw [textOf_concat, List.filter_append] at h
    have hencode : (textOf front ++ line.text).filter (· != '\n') =
        Text.Base64.encode payload := by
      simpa using h
    -- The last line is not empty, so that it ends in a pad if there is any.
    have hlast : (textOf front ++ line.text).getLast? =
        (Text.Base64.encode payload).getLast? := by
      rw [← hencode, List.filter_append, Text.filter_bne_of_not_mem (hfeed line hline),
        List.getLast?_append_of_ne_nil _ (hne line hline),
        List.getLast?_append_of_ne_nil _ (hne line hline)]
    rw [textOf_concat, List.dropLast_concat, withoutChecksum_eq_self, hencode]
    intro hpad
    rw [hlast]
    apply Text.Base64.getLast?_encode
    rw [← hencode]
    exact List.mem_filter.mpr ⟨hpad, by decide⟩

/-- What is left without a checksum is the payload in base64, in lines. -/
theorem withoutChecksum_payloadText (block : ArmoredBlock) :
    (withoutChecksum (textOf block.payloadLines).dropLast).filter (· != '\n') =
      Text.Base64.encode block.payload := by
  have hfeed : ∀ line ∈ block.body, '\n' ∉ line.text := by
    intro line hline hmem
    have hpayload : line ∈ block.payloadLines := List.mem_append_left _ hline
    exact absurd (printed_of_mem_payloadLines block hpayload '\n' hmem).1 (by decide)
  have hbody : (textOf block.body).filter (· != '\n') = Text.Base64.encode block.payload := by
    rw [filter_textOf hfeed, block.flatMap_text]
  cases hchecksum : block.checksum with
  | some line =>
    obtain ⟨digits, hlength, halphabet, htext⟩ := block.isChecksum line hchecksum
    have hne : digits ≠ [] := by
      rintro rfl
      cases hlength
    have hpad : '=' ∉ digits := fun hmem => absurd (halphabet '=' hmem) (by decide)
    have hlines : textOf block.payloadLines = textOf block.body ++ '=' :: digits ++ ['\n'] := by
      unfold ArmoredBlock.payloadLines
      rw [hchecksum, Option.toList_some, textOf_concat, htext]
    rw [hlines, List.dropLast_concat, withoutChecksum_append _ hne hpad]
    exact hbody
  | none =>
    have hlines : block.payloadLines = block.body := by
      unfold ArmoredBlock.payloadLines
      rw [hchecksum, Option.toList_none, List.append_nil]
    rw [hlines]
    exact filter_withoutChecksum_textOf block.text_ne_nil hfeed hbody

/-! ## The payload -/

/-- Printed characters of one unit count in a group of four, and line feeds do not. -/
theorem length_filter_isGap {text : List Char}
    (h : ∀ c ∈ text, c ≠ '\n' → 32 < c.toNat ∧ c.toNat < 128) :
    ((text.flatMap Text.units).filter fun unit => !isGap unit).length =
      (text.filter (· != '\n')).length := by
  induction text with
  | nil => rfl
  | cons c text ih =>
    have htext := ih fun other hother => h other (List.mem_cons_of_mem c hother)
    rw [List.flatMap_cons, List.filter_append, List.length_append, htext]
    by_cases hfeed : c = '\n'
    · have hgap : (Text.units c).filter (fun unit => !isGap unit) = [] := by
        rw [hfeed]
        decide
      rw [hgap, List.filter_cons_of_neg (by simp [hfeed]), List.length_nil, Nat.zero_add]
    · obtain ⟨hprinted, hlt⟩ := h c List.mem_cons_self hfeed
      have hunits : Text.units c = [c.toNat] := if_pos (by omega)
      have hcounts : isGap c.toNat = false := by
        rw [isGap, List.contains_eq_mem, decide_eq_false_iff_not]
        simp only [List.mem_cons, List.not_mem_nil, or_false]
        omega
      rw [hunits, List.filter_cons_of_pos (by simpa using hcounts),
        List.filter_cons_of_pos (by simpa using hfeed), List.filter_nil, List.length_singleton,
        List.length_cons, Nat.add_comm]

/-- Base64 in lines is a whole number of groups, and read as such. -/
theorem decodePayload_of_filter {text : List Char} {payload : Octets}
    (h : text.filter (· != '\n') = Text.Base64.encode payload) : decodePayload text = payload := by
  have hgroups : ((text.flatMap Text.units).filter fun unit => !isGap unit).length % 4 = 0 := by
    rw [length_filter_isGap (Text.Base64.printed_of_filter h), h, Text.Base64.length_encode_mod]
  unfold decodePayload
  dsimp only
  rw [if_pos hgroups]
  exact Text.Base64.decodeUnits_of_filter h

/-- The payload of a block is read from what is written. -/
theorem decodeBlock_written {block : ArmoredBlock} (h : block.HeadersApart) :
    decodeBlock block.written = .ok block.payload := by
  have hpayload := decodePayload_of_filter (withoutChecksum_payloadText block)
  unfold decodeBlock
  rw [skipToPayload_written h]
  dsimp only [bind, Except.bind]
  rw [join_cleanLine, beforeDashedLine?_payload]
  dsimp only [pure, Except.pure]
  rw [hpayload]

/-- A block with a header line that turns into a dashed line is refused. -/
theorem decodeBlock_written_of_not_headersApart {block : ArmoredBlock} (h : ¬ block.HeadersApart) :
    decodeBlock block.written = .error .blankLineMissing := by
  have hdashed : ∃ line ∈ block.headers, isDashed (cleanLine line.text) = true := by
    unfold ArmoredBlock.HeadersApart at h
    simpa using h
  unfold decodeBlock
  rw [split_written, skipToPayload_beginLine block (by simp),
    skipToPayload_dashed block.isHeader hdashed]
  rfl

/-- The payloads of blocks are read one after the other, unless a block among them is refused. -/
theorem decodeBlocks_written_eq_ok_iff (index : Nat) (blocks : List ArmoredBlock) :
    decodeBlocks index (blocks.map ArmoredBlock.written) =
        .ok (blocks.flatMap ArmoredBlock.payload) ↔
      ∀ block ∈ blocks, block.HeadersApart := by
  induction blocks generalizing index with
  | nil => simp [decodeBlocks]
  | cons block blocks ih =>
    rw [List.map_cons, decodeBlocks, List.forall_mem_cons, List.flatMap_cons]
    by_cases hblock : block.HeadersApart
    · have hprepend (outcome : Except DecodeFault Octets) :
          outcome.map (block.payload ++ ·) =
              .ok (block.payload ++ blocks.flatMap ArmoredBlock.payload) ↔
            outcome = .ok (blocks.flatMap ArmoredBlock.payload) := by
        cases outcome <;> simp [Except.map]
      rw [decodeBlock_written hblock]
      dsimp only
      rw [hprepend, ih (index + 1)]
      exact (and_iff_right hblock).symm
    · rw [decodeBlock_written_of_not_headersApart hblock]
      constructor
      · intro hok
        cases hok
      · exact fun hall => absurd hall.1 hblock

/-- A text with armored blocks, and no BEGIN mark in front of, between and behind them, is read as
their payloads in order, unless a header line of theirs turns into a dashed line. -/
theorem dearmor_written_eq_ok_iff {before : List Char} {parts : List (ArmoredBlock × List Char)}
    (hne : parts ≠ []) (hbefore : ¬ beginMark <:+: before)
    (hafter : ∀ part ∈ parts, ¬ beginMark <:+: part.2) :
    dearmor (before ++ writtenBlocks parts) = .ok (parts.flatMap fun part => part.1.payload) ↔
      ∀ part ∈ parts, part.1.HeadersApart := by
  have hfound : findBlocks (before ++ writtenBlocks parts) =
      (parts.map Prod.fst).map ArmoredBlock.written := by
    rw [findBlocks_written hbefore hafter, List.map_map]
    rfl
  have hpayloads : (parts.flatMap fun part => part.1.payload) =
      (parts.map Prod.fst).flatMap ArmoredBlock.payload := by
    rw [List.flatMap_map]
  unfold dearmor
  rw [hfound, hpayloads]
  split
  · next hnil => simp [hne] at hnil
  · rw [decodeBlocks_written_eq_ok_iff, List.forall_mem_map]

/-- A message of two octets, with a header line, in two lines that end in CRLF. -/
def letterBlock : ArmoredBlock where
  type := .message
  beginEnd := .crlf
  headers := [⟨"Comment: two lines".toList, .crlf⟩]
  emptyEnd := .crlf
  body := [⟨"Q".toList, .crlf⟩, ⟨"UI=".toList, .crlf⟩]
  checksum := none
  payload := [0x41, 0x42]
  isHeader := by
    intro line hline
    rw [List.mem_singleton.mp hline]
    exact ⟨by decide, by decide, by decide⟩
  text_ne_nil := by simp
  flatMap_text := by decide
  isChecksum := by simp

/-- A signature of three octets, with a checksum. -/
def checkedBlock : ArmoredBlock where
  type := .signature
  beginEnd := .lf
  headers := []
  emptyEnd := .lf
  body := [⟨"AQID".toList, .lf⟩]
  checksum := some ⟨"=twTO".toList, .lf⟩
  payload := [1, 2, 3]
  isHeader := by simp
  text_ne_nil := by simp
  flatMap_text := by decide
  isChecksum := by
    intro line hline
    rw [← Option.some.inj hline]
    exact ⟨"twTO".toList, rfl, List.all_eq_true.mp (by decide), rfl⟩

/-- A message and a signature in one text are read in order. -/
theorem dearmor_letterBlock_checkedBlock :
    ¬ beginMark <:+: "see -----BEGIN\n".toList ∧
      (∀ part ∈ [(letterBlock, " and\n".toList), (checkedBlock, [])],
        ¬ beginMark <:+: part.2 ∧ part.1.HeadersApart) ∧
      dearmor ("see -----BEGIN\n".toList ++
          writtenBlocks [(letterBlock, " and\n".toList), (checkedBlock, [])]) =
        .ok [0x41, 0x42, 1, 2, 3] := by
  have hbefore : ¬ beginMark <:+: "see -----BEGIN\n".toList := by decide
  have hletter : ¬ beginMark <:+: " and\n".toList ∧ letterBlock.HeadersApart :=
    ⟨by decide, ArmoredBlock.headersApart_of_not_mem (by decide)⟩
  have hchecked : ¬ beginMark <:+: [] ∧ checkedBlock.HeadersApart :=
    ⟨by decide, ArmoredBlock.headersApart_of_not_mem (by decide)⟩
  have hparts : ∀ part ∈ [(letterBlock, " and\n".toList), (checkedBlock, [])],
      ¬ beginMark <:+: part.2 ∧ part.1.HeadersApart := by
    simp only [List.forall_mem_cons, List.not_mem_nil, false_implies, implies_true, and_true]
    exact ⟨hletter, hchecked⟩
  refine ⟨hbefore, hparts, ?_⟩
  exact (dearmor_written_eq_ok_iff (List.cons_ne_nil _ _) hbefore
    fun part hpart => (hparts part hpart).1).mpr fun part hpart => (hparts part hpart).2

/-- A message with a header line whose five dashes are broken by carriage returns. -/
def brokenDashesBlock : ArmoredBlock where
  type := .message
  beginEnd := .lf
  headers := [⟨"--\r---X--\r---".toList, .lf⟩]
  emptyEnd := .lf
  body := [⟨"QQ==".toList, .lf⟩]
  checksum := none
  payload := [0x41]
  isHeader := by
    intro line hline
    rw [List.mem_singleton.mp hline]
    exact ⟨by decide, by decide, by decide⟩
  text_ne_nil := by simp
  flatMap_text := by decide
  isChecksum := by simp

/-- The message is refused and not read as its payload, since the header line, which has no five
dashes, is taken for a dashed line. -/
theorem dearmor_brokenDashesBlock :
    ¬ beginMark <:+: [] ∧ brokenDashesBlock.payload = [0x41] ∧
      brokenDashesBlock.headers.map Line.text = ["--\r---X--\r---".toList] ∧
      dearmor ([] ++ writtenBlocks [(brokenDashesBlock, [])]) =
        .error (.armorBlock 0 .blankLineMissing) := by
  have hnone : ¬ beginMark <:+: [] := by decide
  have hdashed : ¬ brokenDashesBlock.HeadersApart := by
    unfold ArmoredBlock.HeadersApart
    decide
  have hfound : findBlocks ([] ++ writtenBlocks [(brokenDashesBlock, [])]) =
      [brokenDashesBlock.written] :=
    findBlocks_written hnone (by simp [hnone])
  refine ⟨hnone, rfl, rfl, ?_⟩
  unfold dearmor
  rw [hfound]
  dsimp only
  rw [decodeBlocks, decodeBlock_written_of_not_headersApart hdashed]

end Armor

end PgpInspect
