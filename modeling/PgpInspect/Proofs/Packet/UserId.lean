import PgpInspect.Packet.UserId
import PgpInspect.Proofs.Text.Blank

/-!
# User IDs taken apart

A final group is cut off a text if the text reads as one line, blanks, and the group
(`Identity.cutGroup?_eq_some_iff`). It is determined by the text, since a group holds none of its
brackets, and so are the parts of a user ID, for which two groups are cut off one after the other.

Two statements follow. The conventional form of an identity is taken apart into its parts, whatever
brackets its name has (`Identity.ofText_conventional`). And of any text at all nothing is lost: the
parts are spread over it in their order, and what is not in one of them is blank or a bracket
(`Identity.takesApart_ofText`).
-/

namespace PgpInspect

namespace Identity

open Text (isBlank isLineEnd trim trimEnd IsTrimmed)

variable {opening closing : Char} {text front inside : List Char}

/-- A text that ends in a group, taken apart: the text in front of the group, without blanks at its
end, and what the group holds. -/
structure EndsInGroup (opening closing : Char) (text front inside : List Char) : Prop where
  /-- There is nothing but blanks between the two. -/
  exists_eq : ∃ blanks, text = front ++ blanks ++ opening :: inside ++ [closing] ∧
    ∀ c ∈ blanks, isBlank c = true
  /-- The group holds none of its brackets. -/
  inside_ne : ∀ c ∈ inside, c ≠ opening ∧ c ≠ closing
  /-- The text in front does not end in a blank. -/
  last : ∀ c ∈ front.getLast?, isBlank c = false
  /-- The text in front has no line end. -/
  oneLine : ∀ c ∈ front, isLineEnd c = false

/-- Cutting off a final group takes such a text apart. -/
theorem EndsInGroup.cutGroup?_eq (h : EndsInGroup opening closing text front inside) :
    cutGroup? opening closing text = some (front, inside) := by
  obtain ⟨blanks, htext, hblanks⟩ := h.exists_eq
  -- Read from the end, what the group holds is passed over up to `opening`.
  have hreverse : text.reverse =
      closing :: (inside.reverse ++ opening :: (front ++ blanks).reverse) := by
    rw [htext]
    simp
  have hpassed : ∀ c ∈ inside.reverse, (!(c == opening || c == closing)) = true := by
    intro c hc
    have hne := h.inside_ne c (List.mem_reverse.mp hc)
    simp [hne.1, hne.2]
  have hinside : (inside.reverse ++ opening :: (front ++ blanks).reverse).takeWhile
      (fun c => !(c == opening || c == closing)) = inside.reverse := by
    rw [List.takeWhile_append_of_pos hpassed, List.takeWhile_cons_of_neg (by simp),
      List.append_nil]
  have hrest : (inside.reverse ++ opening :: (front ++ blanks).reverse).dropWhile
      (fun c => !(c == opening || c == closing)) = opening :: (front ++ blanks).reverse := by
    rw [List.dropWhile_append_of_pos hpassed, List.dropWhile_cons_of_neg (by simp)]
  have hfront : trimEnd (front ++ blanks).reverse.reverse = front := by
    rw [List.reverse_reverse, Text.trimEnd_append_blanks hblanks]
    exact Text.trimEnd_eq_self_iff.mpr h.last
  unfold cutGroup?
  rw [hreverse]
  dsimp only
  rw [if_neg (not_not_intro rfl), hinside, hrest]
  dsimp only
  rw [hfront, if_pos ⟨rfl, by simpa using h.oneLine⟩, List.reverse_reverse]

/-- Only such a text is taken apart. -/
theorem endsInGroup_of_cutGroup? (h : cutGroup? opening closing text = some (front, inside)) :
    EndsInGroup opening closing text front inside := by
  unfold cutGroup? at h
  split at h
  · cases h
  rename_i last before hreverse
  dsimp only at h
  split at h
  · cases h
  rename_i hlast
  split at h
  · cases h
  rename_i bracket rest hrest
  split at h
  · rename_i hcut
    have hbefore := List.takeWhile_append_dropWhile
      (p := fun c => !(c == opening || c == closing)) (l := before)
    rw [hrest, hcut.1] at hbefore
    have htext : text.reverse = closing ::
        (before.takeWhile (fun c => !(c == opening || c == closing)) ++ opening :: rest) := by
      rw [hreverse, Classical.not_not.mp hlast, hbefore]
    obtain ⟨blanks, hfront, hblanks⟩ := Text.exists_trimEnd_eq rest.reverse
    cases h
    refine ⟨⟨blanks, ?_, hblanks⟩, fun c hc => ?_, fun c => ?_, by simpa using hcut.2⟩
    · rw [← hfront, ← List.reverse_inj, htext]
      simp
    · have hplain := List.mem_takeWhile_imp (List.mem_reverse.mp hc)
      simpa using hplain
    · exact Text.isBlank_eq_false_of_mem_getLast?_trimEnd
  · cases h

/-- A final group is cut off exactly if the text ends in it. -/
theorem cutGroup?_eq_some_iff : cutGroup? opening closing text = some (front, inside) ↔
    EndsInGroup opening closing text front inside :=
  ⟨endsInGroup_of_cutGroup?, EndsInGroup.cutGroup?_eq⟩

/-! ## The conventional form -/

/-- A text that ends in a group, whatever is in front of it. -/
def HasFinalGroup (opening closing : Char) (text : List Char) : Prop :=
  ∃ front inside, text = front ++ opening :: inside ++ [closing] ∧
    ∀ c ∈ inside, c ≠ opening ∧ c ≠ closing

/-- From a text in one line a group is cut off if it ends in one. -/
theorem exists_endsInGroup_iff (h : ∀ c ∈ text, isLineEnd c = false) :
    (∃ front inside, EndsInGroup opening closing text front inside) ↔
      HasFinalGroup opening closing text := by
  constructor
  · rintro ⟨front, inside, hends⟩
    obtain ⟨blanks, htext, -⟩ := hends.exists_eq
    exact ⟨front ++ blanks, inside, htext, hends.inside_ne⟩
  · rintro ⟨front, inside, htext, hinside⟩
    obtain ⟨blanks, hfront, hblanks⟩ := Text.exists_trimEnd_eq front
    refine ⟨trimEnd front, inside, ⟨blanks, ?_, hblanks⟩, hinside, fun c => ?_, fun c hc => ?_⟩
    · rw [← hfront, htext]
    · exact Text.isBlank_eq_false_of_mem_getLast?_trimEnd
    · apply h c
      rw [htext, hfront]
      simp [hc]

/-- A name with a space behind it, if there is a name. -/
def leadingName (name : List Char) : List Char := if name = [] then [] else name ++ [' ']

/-- The conventional form of an identity: `Name (Comment) <email>`. -/
def conventional (identity : Identity) : List Char :=
  leadingName identity.name.toList ++ '(' :: identity.comment.toList ++ [')'] ++ [' '] ++
    '<' :: identity.email.toList ++ ['>']

/-- The conventional form of an identity without a comment: `Name <email>`. -/
def conventionalWithoutComment (identity : Identity) : List Char :=
  leadingName identity.name.toList ++ '<' :: identity.email.toList ++ ['>']

/-- An identity whose parts can be told apart in the conventional form. The name may have brackets
and more. -/
structure IsConventional (identity : Identity) : Prop where
  /-- The name has no blanks around it. -/
  name_trimmed : IsTrimmed identity.name.toList
  /-- The name is one line. -/
  name_oneLine : ∀ c ∈ identity.name.toList, isLineEnd c = false
  /-- The comment has no parentheses. -/
  comment_ne : ∀ c ∈ identity.comment.toList, c ≠ '(' ∧ c ≠ ')'
  /-- The comment is one line. -/
  comment_oneLine : ∀ c ∈ identity.comment.toList, isLineEnd c = false
  /-- The email address has no blanks around it. -/
  email_trimmed : IsTrimmed identity.email.toList
  /-- The email address has no angle brackets. -/
  email_ne : ∀ c ∈ identity.email.toList, c ≠ '<' ∧ c ≠ '>'

variable {identity : Identity} {name : List Char}

/-- There is at most one space behind a name. -/
theorem exists_leadingName_eq (name : List Char) :
    ∃ blanks, leadingName name = name ++ blanks ∧ ∀ c ∈ blanks, c = ' ' := by
  unfold leadingName
  split
  · next hnil => exact ⟨[], by rw [hnil, List.append_nil], nofun⟩
  · exact ⟨[' '], rfl, fun c hc => List.mem_singleton.mp hc⟩

/-- A text from a trimmed name to an angle bracket is trimmed, and so is one that begins with a
bracket if there is no name. -/
theorem isTrimmed_leadingName_append (h : IsTrimmed name) (bracket : Char)
    (hbracket : isBlank bracket = false) (middle : List Char) :
    IsTrimmed (leadingName name ++ bracket :: middle ++ ['>']) := by
  constructor
  · intro c hc
    unfold leadingName at hc
    split at hc
    · have hfirst : bracket = c := by simpa using hc
      rw [← hfirst]
      exact hbracket
    · next hne =>
      apply h.head c
      rw [List.append_assoc, List.append_assoc, List.head?_append_of_ne_nil _ hne] at hc
      exact hc
  · exact fun c => Text.isBlank_eq_false_of_mem_getLast?_concat (by decide)

/-- An email address is cut off behind a text in one line. -/
theorem ofText_append_email {email blanks : List Char}
    (htrimmed : IsTrimmed (front ++ blanks ++ '<' :: email ++ ['>']))
    (hblanks : ∀ c ∈ blanks, isBlank c = true) (hlast : ∀ c ∈ front.getLast?, isBlank c = false)
    (honeLine : ∀ c ∈ front, isLineEnd c = false) (hemail : IsTrimmed email)
    (hne : ∀ c ∈ email, c ≠ '<' ∧ c ≠ '>') :
    ofText (front ++ blanks ++ '<' :: email ++ ['>']) = withEmail email front := by
  have hends : EndsInGroup '<' '>' (front ++ blanks ++ '<' :: email ++ ['>']) front email :=
    ⟨⟨blanks, rfl, hblanks⟩, hne, hlast, honeLine⟩
  unfold ofText
  dsimp only
  rw [Text.trim_eq_self_iff.mpr htrimmed, hends.cutGroup?_eq]
  dsimp only
  rw [Text.trim_eq_self_iff.mpr hemail]

/-- A comment is cut off behind a name in one line. -/
theorem withEmail_of_endsInGroup (h : EndsInGroup '(' ')' text front inside) (email : List Char) :
    withEmail email text =
      ⟨String.ofList (trim front), String.ofList email, String.ofList inside⟩ := by
  unfold withEmail
  rw [h.cutGroup?_eq]

/-- A text without a comment at its end is a name. -/
theorem withEmail_of_forall_not (h : ∀ front inside, ¬ EndsInGroup '(' ')' text front inside)
    (email : List Char) :
    withEmail email text = ⟨String.ofList (trim text), String.ofList email, ""⟩ := by
  have hnone : cutGroup? '(' ')' text = none :=
    Option.eq_none_iff_forall_ne_some.mpr fun ⟨front, inside⟩ hcut =>
      h front inside (cutGroup?_eq_some_iff.mp hcut)
  unfold withEmail
  rw [hnone]

/-- The conventional form in front of the email address ends in the comment. -/
theorem IsConventional.endsInGroup (h : identity.IsConventional) :
    EndsInGroup '(' ')'
      (leadingName identity.name.toList ++ '(' :: identity.comment.toList ++ [')'])
      identity.name.toList identity.comment.toList := by
  obtain ⟨blanks, hleading, hblanks⟩ := exists_leadingName_eq identity.name.toList
  refine ⟨⟨blanks, by rw [hleading], fun c hc => ?_⟩, h.comment_ne, h.name_trimmed.last,
    h.name_oneLine⟩
  rw [hblanks c hc]
  decide

/-- The conventional form in front of the email address is one line. -/
theorem IsConventional.oneLine (h : identity.IsConventional) :
    ∀ c ∈ leadingName identity.name.toList ++ '(' :: identity.comment.toList ++ [')'],
      isLineEnd c = false := by
  obtain ⟨blanks, hleading, hblanks⟩ := exists_leadingName_eq identity.name.toList
  intro c hc
  rw [hleading] at hc
  simp only [List.mem_append, List.mem_cons, List.not_mem_nil, or_false] at hc
  rcases hc with ((hname | hblank) | rfl | hcomment) | rfl
  · exact h.name_oneLine c hname
  · rw [hblanks c hblank]
    decide
  · decide
  · exact h.comment_oneLine c hcomment
  · decide

/-- With a comment, the conventional form is taken apart into its parts. -/
theorem ofText_conventional_eq (h : identity.IsConventional) :
    ofText identity.conventional = identity := by
  have htrimmed := isTrimmed_leadingName_append h.name_trimmed '(' (by decide)
    (identity.comment.toList ++ [')'] ++ [' '] ++ '<' :: identity.email.toList)
  unfold conventional
  rw [ofText_append_email (by simpa using htrimmed) (List.forall_mem_singleton.mpr (by decide))
    (fun c => Text.isBlank_eq_false_of_mem_getLast?_concat (by decide)) h.oneLine h.email_trimmed
    h.email_ne, withEmail_of_endsInGroup h.endsInGroup, Text.trim_eq_self_iff.mpr h.name_trimmed]
  simp only [String.ofList_toList]

/-- Without a comment, the conventional form is taken apart by what its name ends in. -/
theorem ofText_conventionalWithoutComment (h : identity.IsConventional) :
    ofText identity.conventionalWithoutComment =
      withEmail identity.email.toList identity.name.toList := by
  obtain ⟨blanks, hleading, hblanks⟩ := exists_leadingName_eq identity.name.toList
  have htrimmed := isTrimmed_leadingName_append h.name_trimmed '<' (by decide)
    identity.email.toList
  unfold conventionalWithoutComment
  rw [hleading] at htrimmed ⊢
  refine ofText_append_email htrimmed (fun c hc => ?_) h.name_trimmed.last h.name_oneLine
    h.email_trimmed h.email_ne
  rw [hblanks c hc]
  decide

/-- A text that ends in a group is longer than what is in front of it. -/
theorem EndsInGroup.length_trim_lt (h : EndsInGroup opening closing text front inside) :
    (trim front).length < text.length := by
  obtain ⟨blanks, htext, -⟩ := h.exists_eq
  obtain ⟨before, after, hfront, -⟩ := Text.exists_trim_eq front
  have hle : (trim front).length ≤ front.length := by
    rw [congrArg List.length hfront]
    simp only [List.length_append]
    omega
  rw [htext]
  simp only [List.length_append, List.length_cons]
  omega

/-- The conventional form of an identity is taken apart into its parts. Without a comment it is
exactly if the name does not end in a group of its own, which would be taken for a comment. -/
theorem ofText_conventional (h : identity.IsConventional) :
    ofText identity.conventional = identity ∧
      (ofText identity.conventionalWithoutComment = { identity with comment := "" } ↔
        ¬ HasFinalGroup '(' ')' identity.name.toList) := by
  refine ⟨ofText_conventional_eq h, ?_⟩
  rw [ofText_conventionalWithoutComment h, ← exists_endsInGroup_iff h.name_oneLine]
  constructor
  · rintro hparts ⟨front, inside, hends⟩
    rw [withEmail_of_endsInGroup hends] at hparts
    have hname : trim front = identity.name.toList := by
      rw [← congrArg Identity.name hparts, String.toList_ofList]
    have hlt := hends.length_trim_lt
    rw [hname] at hlt
    exact Nat.lt_irrefl _ hlt
  · intro hnone
    rw [withEmail_of_forall_not fun front inside hends => hnone ⟨front, inside, hends⟩,
      Text.trim_eq_self_iff.mpr h.name_trimmed]
    simp only [String.ofList_toList]

/-- A name with brackets of both kinds and an address in it. -/
def bracketedIdentity : Identity := ⟨"A (b) <c@d> e)", "f@g", " h @ <i "⟩

/-- The conventional form of an identity with brackets in its name is taken apart. -/
theorem ofText_bracketedIdentity : bracketedIdentity.IsConventional ∧
    bracketedIdentity.conventional = "A (b) <c@d> e) ( h @ <i ) <f@g>".toList ∧
    ofText bracketedIdentity.conventional = bracketedIdentity ∧
    ofText bracketedIdentity.conventionalWithoutComment =
      { bracketedIdentity with comment := "" } := by
  have hname : bracketedIdentity.name.toList.all (!isLineEnd ·) = true := by decide +kernel
  have hcomment : bracketedIdentity.comment.toList.all
      (fun c => c != '(' && c != ')' && !isLineEnd c) = true := by decide +kernel
  have hemail : bracketedIdentity.email.toList.all (fun c => c != '<' && c != '>') = true := by
    decide +kernel
  simp only [List.all_eq_true, Bool.and_eq_true, bne_iff_ne, Bool.not_eq_true']
    at hname hcomment hemail
  have hconventional : bracketedIdentity.IsConventional :=
    ⟨Text.trim_eq_self_iff.mp (by decide +kernel), hname, fun c hc => (hcomment c hc).1,
      fun c hc => (hcomment c hc).2, Text.trim_eq_self_iff.mp (by decide +kernel), hemail⟩
  obtain ⟨hparts, hwithout⟩ := ofText_conventional hconventional
  refine ⟨hconventional, by decide +kernel, hparts, hwithout.mpr ?_⟩
  -- The last parenthesis closes a group with a parenthesis in it.
  rw [← exists_endsInGroup_iff hconventional.name_oneLine]
  rintro ⟨front, inside, hends⟩
  have hnone : cutGroup? '(' ')' bracketedIdentity.name.toList = none := by decide +kernel
  rw [hends.cutGroup?_eq] at hnone
  cases hnone

/-! ## Any text -/

/-- The characters that no part needs to have: blanks and brackets. -/
def isFiller (c : Char) : Bool := isBlank c || c == '(' || c == ')' || c == '<' || c == '>'

/-- Parts that a text has in their order, with nothing but fillers in front of them, between them
and behind them. -/
inductive Spread : (parts : List (List Char)) → (text : List Char) → Prop
  /-- There are no parts. -/
  | gap {gap : List Char} : (∀ c ∈ gap, isFiller c = true) → Spread [] gap
  /-- There is a part behind fillers. -/
  | part {gap part rest : List Char} {parts : List (List Char)} : (∀ c ∈ gap, isFiller c = true) →
      Spread parts rest → Spread (part :: parts) (gap ++ part ++ rest)

/-- A blank is a filler. -/
theorem isFiller_of_isBlank {c : Char} (h : isBlank c = true) : isFiller c = true := by
  simp [isFiller, h]

/-- Blanks have no parts. -/
theorem Spread.blanks {blanks : List Char} (h : ∀ c ∈ blanks, isBlank c = true) :
    Spread [] blanks :=
  .gap fun c hc => isFiller_of_isBlank (h c hc)

/-- A text is a part of itself. -/
theorem Spread.self (text : List Char) : Spread [text] text := by
  have hparts : Spread [text] ([] ++ text ++ []) := .part nofun (.gap nofun)
  rwa [List.nil_append, List.append_nil] at hparts

/-- Fillers in front do not count. -/
theorem Spread.prepend {gap : List Char} {parts : List (List Char)} (h : Spread parts text)
    (hgap : ∀ c ∈ gap, isFiller c = true) : Spread parts (gap ++ text) := by
  cases h with
  | gap hrest =>
    refine .gap fun c hc => ?_
    rcases List.mem_append.mp hc with hc | hc
    · exact hgap c hc
    · exact hrest c hc
  | @part gap' part rest parts hgap' hrest =>
    rw [← List.append_assoc, ← List.append_assoc]
    refine .part (fun c hc => ?_) hrest
    rcases List.mem_append.mp hc with hc | hc
    · exact hgap c hc
    · exact hgap' c hc

/-- The parts of a text come before those of a text behind it. -/
theorem Spread.append {parts parts' : List (List Char)} {text' : List Char}
    (h : Spread parts text) (h' : Spread parts' text') :
    Spread (parts ++ parts') (text ++ text') := by
  induction h with
  | gap hgap => exact h'.prepend hgap
  | part hgap _ ih =>
    rw [List.append_assoc]
    exact .part hgap ih

/-- A text without the blanks around it is a part of it. -/
theorem Spread.trimmed (text : List Char) : Spread [trim text] text := by
  obtain ⟨before, after, htext, hbefore, hafter⟩ := Text.exists_trim_eq text
  have hparts := ((Spread.blanks hbefore).append (.self (trim text))).append (.blanks hafter)
  rwa [← htext] at hparts

/-- A text that ends in a group is the text in front and one with the parts of what the group
holds. -/
theorem EndsInGroup.exists_back {parts : List (List Char)}
    (h : EndsInGroup opening closing text front inside) (hopening : isFiller opening = true)
    (hclosing : isFiller closing = true) (hinside : Spread parts inside) :
    ∃ back, text = front ++ back ∧ Spread parts back := by
  obtain ⟨blanks, htext, hblanks⟩ := h.exists_eq
  have hbefore : Spread [] [opening] := .gap (by simpa using hopening)
  have hbehind : Spread [] [closing] := .gap (by simpa using hclosing)
  have hback := (((Spread.blanks hblanks).append hbefore).append hinside).append hbehind
  refine ⟨_, ?_, by simpa using hback⟩
  rw [htext]
  simp

/-- A text that is taken apart into an identity: the parts are clean, and nothing of the text is
lost. -/
structure TakesApart (text : List Char) (identity : Identity) : Prop where
  /-- The name has no blanks around it. -/
  name_trimmed : IsTrimmed identity.name.toList
  /-- The comment has no parentheses. -/
  comment_ne : ∀ c ∈ identity.comment.toList, c ≠ '(' ∧ c ≠ ')'
  /-- The email address has no blanks around it. -/
  email_trimmed : IsTrimmed identity.email.toList
  /-- The email address has no angle brackets. -/
  email_ne : ∀ c ∈ identity.email.toList, c ≠ '<' ∧ c ≠ '>'
  /-- The text has the name, the comment and the email address in this order, and between them only
  blanks and brackets. -/
  spread : Spread [identity.name.toList, identity.comment.toList, identity.email.toList] text

/-- A text in front of an email address is taken apart into a name and a comment. -/
theorem takesApart_withEmail {email back : List Char} (hemail : IsTrimmed email)
    (hne : ∀ c ∈ email, c ≠ '<' ∧ c ≠ '>') (hback : Spread [email] back) (front : List Char) :
    TakesApart (front ++ back) (withEmail email front) := by
  by_cases hcomment : ∃ name comment, EndsInGroup '(' ')' front name comment
  · obtain ⟨name, comment, hends⟩ := hcomment
    rw [withEmail_of_endsInGroup hends]
    constructor <;> simp only [String.toList_ofList]
    · exact Text.isTrimmed_trim name
    · exact hends.inside_ne
    · exact hemail
    · exact hne
    · obtain ⟨group, hfront, hgroup⟩ :=
        hends.exists_back (by decide) (by decide) (.self comment)
      rw [hfront]
      exact ((Spread.trimmed name).append hgroup).append hback
  · have hnone (name comment : List Char) : ¬ EndsInGroup '(' ')' front name comment :=
      fun hends => hcomment ⟨name, comment, hends⟩
    rw [withEmail_of_forall_not hnone]
    constructor <;> simp only [String.toList_ofList]
    · exact Text.isTrimmed_trim front
    · nofun
    · exact hemail
    · exact hne
    · exact (Spread.trimmed front).append ((Spread.self []).append hback)

/-- An address alone has no angle brackets. -/
theorem ne_of_isBareAddress (h : isBareAddress text = true) : ∀ c ∈ text, c ≠ '<' ∧ c ≠ '>' := by
  unfold isBareAddress at h
  dsimp only at h
  split at h
  · next domain hrest =>
    have htext := List.takeWhile_append_dropWhile
      (p := fun c => !isBlank c && c != '<' && c != '>' && c != '@') (l := text)
    simp only [Bool.and_eq_true, List.all_eq_true] at h
    intro c hc
    rw [← htext, hrest, List.mem_append, List.mem_cons] at hc
    rcases hc with hlocal | rfl | hdomain
    · have hplain := List.mem_takeWhile_imp hlocal
      simp only [Bool.and_eq_true, bne_iff_ne] at hplain
      exact ⟨hplain.1.1.2, hplain.1.2⟩
    · decide
    · have hplain := h.2 c hdomain
      simp only [bne_iff_ne] at hplain
      exact ⟨hplain.1.1.2, hplain.1.2⟩
  · cases h

/-- Blanks around a text do not matter. -/
theorem TakesApart.of_trim (h : TakesApart (trim text) identity) : TakesApart text identity := by
  obtain ⟨before, after, htext, hbefore, hafter⟩ := Text.exists_trim_eq text
  have hspread := ((Spread.blanks hbefore).append h.spread).append (.blanks hafter)
  refine ⟨h.name_trimmed, h.comment_ne, h.email_trimmed, h.email_ne, ?_⟩
  rw [htext]
  exact hspread

/-- Any text is taken apart into clean parts, and nothing of it is lost. -/
theorem takesApart_ofText (text : List Char) : TakesApart text (ofText text) := by
  apply TakesApart.of_trim
  unfold ofText
  dsimp only
  split
  · next front inside hcut =>
    have hends := endsInGroup_of_cutGroup? hcut
    obtain ⟨back, htext, hback⟩ := hends.exists_back (by decide) (by decide) (.trimmed inside)
    rw [htext]
    refine takesApart_withEmail (Text.isTrimmed_trim inside) (fun c hc => ?_) hback front
    exact hends.inside_ne c (Text.mem_of_mem_trim hc)
  · split
    · next hbare =>
      constructor <;> simp only [String.toList_ofList]
      · exact Text.isTrimmed_nil
      · nofun
      · exact Text.isTrimmed_trim text
      · exact ne_of_isBareAddress hbare
      · exact ((Spread.self []).append (.self [])).append (.self (trim text))
    · have hnone : ∀ c ∈ ([] : List Char), c ≠ '<' ∧ c ≠ '>' := nofun
      have hparts := takesApart_withEmail Text.isTrimmed_nil hnone (.self []) (trim text)
      rwa [List.append_nil] at hparts

end Identity

end PgpInspect
