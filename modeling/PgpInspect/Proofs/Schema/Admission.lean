import Mathlib.Data.List.Forall2
import PgpInspect.Schema.Catalog

/-!
# Values that schemas admit

A schema admits a value if its check gives the value back as it stands (`Schema.Admits`). There is
one lemma for each kind of schema, so that a value is admitted along the text of its schema. For
objects this needs the members to have the names of the fields, in the same order
(`Schema.admits_object`); what a check makes of an object that has others is said one field at a
time (`Schema.validateFields_cons`, `Schema.validateFields_cons_optional`).
-/

namespace PgpInspect

/-- The member with a name is found if no other has the name. -/
theorem Members.get?_of_mem {members : Members} {member : String × Json}
    (hnames : (members.map Prod.fst).Nodup) (h : member ∈ members) :
    members.get? member.1 = some member.2 := by
  induction members with
  | nil => cases h
  | cons first rest ih =>
    rw [List.map_cons, List.nodup_cons] at hnames
    rcases List.mem_cons.mp h with rfl | hrest
    · simp [get?]
    · have hne : ¬ first.1 = member.1 := by
        intro hname
        exact hnames.1 (hname ▸ List.mem_map_of_mem hrest)
      have hskip : get? (first :: rest) member.1 = get? rest member.1 := by
        simp [get?, hne]
      rw [hskip, ih hnames.2 hrest]

/-- All verdicts hold if each does. -/
theorem Verdict.all_ok {α : Type} (values : List α) :
    Verdict.all (values.map fun value => .ok value) = .ok values := by
  induction values with
  | nil => rfl
  | cons value rest ih => rw [List.map_cons, Verdict.all, ih, Verdict.both]

namespace Schema

/-- A schema admits a value as it stands, wherever that is. -/
def Admits (schema : Schema) (value : Json) : Prop :=
  ∀ path, schema.validate path (some value) = .ok value

/-! ## Single values -/

/-- A text is admitted if no check has issues with it. -/
theorem admits_text {checks : List TextCheck} {value : String}
    (h : ∀ check ∈ checks, ∀ path, check.issues path value = []) :
    (text checks).Admits (.string value) := by
  intro path
  have hissues : checks.flatMap (TextCheck.issues path value) = [] :=
    List.flatMap_eq_nil_iff.mpr fun check hcheck => h check hcheck path
  rw [validate_text, hissues]
  rfl

/-- Every text is a text. -/
theorem admits_anyText (value : String) : anyText.Admits (.string value) :=
  admits_text (List.forall_mem_nil _)

/-- A text with the pattern is admitted. -/
theorem admits_matching {pattern : Pattern} {value : String} (message : String)
    (h : pattern.accepts value.toList = true) :
    (text [.matching pattern message]).Admits (.string value) :=
  admits_text (List.forall_mem_singleton.mpr fun _ => if_pos h)

/-- A text of enough characters is admitted. -/
theorem admits_atLeast {minimum : Nat} {value : String} (message : Option String)
    (h : minimum ≤ value.length) : (text [.atLeast minimum message]).Admits (.string value) :=
  admits_text (List.forall_mem_singleton.mpr fun _ => if_pos h)

/-- A text of not too many characters is admitted. -/
theorem admits_atMost {maximum : Nat} {value : String} (h : value.length ≤ maximum) :
    (text [.atMost maximum]).Admits (.string value) :=
  admits_text (List.forall_mem_singleton.mpr fun _ => if_pos h)

/-- A formatted text is admitted if it has the pattern. -/
theorem admits_formatted {pattern : Pattern} {value : String} (message : String)
    (h : pattern.accepts value.toList = true) :
    (formatted pattern message).Admits (.string value) := by
  intro path
  have hissues : TextCheck.issues path value (.matching pattern message) = [] := if_pos h
  rw [validate, hissues]
  rfl

/-- A natural number of at most 53 bits is an integer, whether that may be negative or not. -/
theorem validateInteger_natCast {n : Nat} (h : n ≤ Binary64.greatestSafe) (path : Path)
    (mayBeNegative : Bool) : validateInteger path mayBeNegative (some (.number (n : Binary64))) =
      .ok (.number (n : Binary64)) := by
  have hnumber : (n : Binary64) = .finite (n : Rat) := rfl
  have hsafe : ((n : Rat)).num.natAbs ≤ Binary64.greatestSafe := h
  have hsign : 0 ≤ ((n : Rat)).num := Int.natCast_nonneg n
  rw [hnumber, validateInteger, if_pos (Rat.den_natCast n), if_pos hsafe, if_pos (.inr hsign)]
  rfl

/-- An integer of at most 53 bits is admitted if it is not negative. -/
theorem admits_integer {n : Nat} (h : n ≤ Binary64.greatestSafe) :
    integer.Admits (.number (n : Binary64)) := by
  intro path
  rw [validate, validateInteger_natCast h]

/-- A natural number of at most 53 bits is admitted. -/
theorem admits_natural {n : Nat} (h : n ≤ Binary64.greatestSafe) :
    natural.Admits (.number (n : Binary64)) := by
  intro path
  rw [validate, validateInteger_natCast h]

/-- Both truth values are admitted. -/
theorem admits_boolean (truth : Bool) : boolean.Admits (.bool truth) :=
  fun _ => by rw [validate]

/-- Every option is admitted. -/
theorem admits_choice {options : List String} {value : String} (h : value ∈ options) :
    (choice options).Admits (.string value) := by
  intro path
  rw [validate, if_pos (List.contains_iff_mem.mpr h)]

/-! ## Lists and objects -/

/-- A sequence is admitted if each item is. -/
theorem admits_list {item : Schema} {items : List Json} (h : ∀ value ∈ items, item.Admits value) :
    (list item).Admits (.array items) := by
  intro path
  -- Items are checked at paths of their own, and a value is admitted at every path.
  have hverdicts : (items.zipIdx.map fun entry =>
      item.validate (path ++ [PathStep.item entry.2]) (some entry.1)) =
        items.map fun value => .ok value := by
    calc (items.zipIdx.map fun entry =>
          item.validate (path ++ [PathStep.item entry.2]) (some entry.1))
        = items.zipIdx.map fun entry => .ok entry.1 := by
          apply List.map_congr_left
          intro entry hentry
          exact h entry.1 (List.fst_mem_of_mem_zipIdx hentry) _
      _ = (items.zipIdx.map Prod.fst).map fun value => .ok value := List.map_map.symm
      _ = items.map fun value => .ok value := by rw [List.zipIdx_map_fst]
  rw [validate]
  show (Verdict.all (items.zipIdx.map fun entry =>
    item.validate (path ++ [PathStep.item entry.2]) (some entry.1))).map Json.array = _
  rw [hverdicts, Verdict.all_ok]
  rfl

variable {name : String} {value : Json} {presence : Presence} {schema : Schema} {sent : Members}

/-- A field whose member is admitted has it in front of what the other fields give. -/
theorem validateFields_cons (h : sent.get? name = some value) (hvalue : schema.Admits value)
    (rest : Fields) (path : Path) :
    validateFields (.cons name presence schema rest) path sent =
      (validateFields rest path sent).map ((name, value) :: ·) := by
  have hhere : schema.validate (path ++ [.member name]) (some value) = .ok value := hvalue _
  rw [validateFields, h, hhere]
  · cases validateFields rest path sent <;> rfl
  · simp [h]
  · simp [h]

/-- A field that may be missing gives nothing if it is. -/
theorem validateFields_cons_optional (h : sent.get? name = none) (rest : Fields) (path : Path) :
    validateFields (.cons name .optional schema rest) path sent = validateFields rest path sent := by
  rw [validateFields]
  · cases validateFields rest path sent <;> rfl
  · exact h

/-- Fields find their members by name, wherever these are. -/
theorem validateFields_congr {sent sent' : Members} (h : ∀ name, sent.get? name = sent'.get? name)
    (path : Path) : ∀ fields, validateFields fields path sent = validateFields fields path sent'
  | .nil => by rw [validateFields_nil, validateFields_nil]
  | .cons name presence schema rest => by
    unfold validateFields
    rw [h name, validateFields_congr h path rest]

/-- The members of the fields are found among those sent. -/
theorem validateFields_ofList {fields : List (String × Presence × Schema)} {members : Members}
    (h : List.Forall₂ (fun field member => field.1 = member.1 ∧ field.2.2.Admits member.2)
      fields members)
    (hsent : ∀ member ∈ members, sent.get? member.1 = some member.2) (path : Path) :
    validateFields (Fields.ofList fields) path sent = .ok members := by
  induction h with
  | nil => rw [Fields.ofList, validateFields_nil]
  | @cons field member fields members hfield _ ih =>
    obtain ⟨name, presence, schema⟩ := field
    obtain ⟨rfl, hadmits⟩ : name = member.1 ∧ schema.Admits member.2 := hfield
    rw [List.forall_mem_cons] at hsent
    rw [Fields.ofList, validateFields_cons hsent.1 hadmits, ih hsent.2]
    rfl

/-- An object is admitted if its members are those of the fields, each under its name. -/
theorem admits_object {fields : List (String × Presence × Schema)} {members : Members}
    (hnames : (fields.map Prod.fst).Nodup)
    (h : List.Forall₂ (fun field member => field.1 = member.1 ∧ field.2.2.Admits member.2)
      fields members) :
    (object fields).Admits (.object members) := by
  -- Names that occur once let every member be found under its own.
  have hsame : fields.map Prod.fst = members.map Prod.fst := by
    clear hnames
    induction h with
    | nil => rfl
    | cons hfield _ ih => rw [List.map_cons, List.map_cons, hfield.1, ih]
  rw [hsame] at hnames
  intro path
  have hfields := validateFields_ofList h (fun _ => Members.get?_of_mem hnames) path
  rw [object, validate_record, hfields]
  rfl

/-- An object is admitted for another one with the same members in another order. -/
theorem validate_object_of_admits {fields : List (String × Presence × Schema)}
    {sent members : Members} (h : (object fields).Admits (.object members))
    (hsent : ∀ name, sent.get? name = members.get? name) (path : Path) :
    (object fields).validate path (some (.object sent)) = .ok (.object members) := by
  rw [← h path, object, validate_record, validate_record, validateFields_congr hsent]

end Schema

end PgpInspect
