import PgpInspect.Schema.Issue

/-!
# Schemas

A `Schema` describes the JSON values that a place admits. `Schema.validate` gives the value with
defaults filled in and unknown members dropped, or all issues, in the order of the members and depth
first.
-/

namespace PgpInspect

/-- What a text has to satisfy. -/
inductive TextCheck where
  /-- At least so many characters; the wording is the general one unless another is given. -/
  | atLeast (minimum : Nat) (message : Option String)
  /-- At most so many characters. -/
  | atMost (maximum : Nat)
  /-- A pattern, and the wording for texts without it. -/
  | matching (pattern : Pattern) (message : String)

/-- What happens if a member is missing. -/
inductive Presence where
  /-- That is an issue. -/
  | required
  /-- It stays missing. -/
  | optional
  /-- It gets a value. -/
  | byDefault (value : Json)

mutual

/-- A description of JSON values. -/
inductive Schema where
  /-- A text that satisfies checks. -/
  | text (checks : List TextCheck)
  /-- A text with a pattern; the wording is for every value that is not one. -/
  | formatted (pattern : Pattern) (message : String)
  /-- An integer of at most 53 bits. -/
  | integer
  /-- An integer of at most 53 bits that is not negative. -/
  | natural
  /-- A truth value. -/
  | boolean
  /-- One of several texts. -/
  | choice (options : List String)
  /-- One text. -/
  | constant (value : String)
  /-- A sequence of values. -/
  | list (item : Schema)
  /-- An object with these members and any others, which are dropped. -/
  | record (fields : Fields)

/-- The members of an object. -/
inductive Fields where
  /-- None. -/
  | nil
  /-- A member and those after it. -/
  | cons (name : String) (presence : Presence) (schema : Schema) (rest : Fields)

end

/-- A result, or all issues that stand against it. -/
abbrev Verdict (α : Type) := Except (List Issue) α

namespace Verdict

/-- Two verdicts in one: both results, or the issues of both. -/
def both {α β γ : Type} (combine : α → β → γ) : Verdict α → Verdict β → Verdict γ
  | .ok a, .ok b => .ok (combine a b)
  | .ok _, .error issues => .error issues
  | .error issues, .ok _ => .error issues
  | .error issues, .error more => .error (issues ++ more)

/-- All results, or the issues of all verdicts. -/
def all {α : Type} : List (Verdict α) → Verdict (List α)
  | [] => .ok []
  | verdict :: rest => both List.cons verdict (all rest)

/-- `value`, if there are no issues. -/
def ofIssues {α : Type} (issues : List Issue) (value : α) : Verdict α :=
  if issues.isEmpty then .ok value else .error issues

end Verdict

namespace TextCheck

/-- The issues that a check has with a text. Characters are counted as code points. -/
def issues (path : Path) (value : String) : TextCheck → List Issue
  | .atLeast minimum message =>
    if minimum ≤ value.length then []
    else
      let complaint := Complaint.tooShort minimum
      [⟨path, complaint, message.getD complaint.message⟩]
  | .atMost maximum =>
    if value.length ≤ maximum then [] else [Issue.general path (.tooLong maximum)]
  | .matching pattern message =>
    if pattern.accepts value.toList then [] else [⟨path, .mismatch pattern, message⟩]

end TextCheck

namespace Schema

/-- Refuses a value of another type. -/
def wrongType {α : Type} (path : Path) (expected : String) (value : Option Json) : Verdict α :=
  .error [Issue.general path (.wrongType expected (Json.typeName value))]

/-- Checks that a value is an integer of at most 53 bits, which may have to be at least 0. -/
def validateInteger (path : Path) (mayBeNegative : Bool) : (value : Option Json) → Verdict Json
  | some (.number (.infinite _)) => .error [Issue.general path .infinite]
  | some (.number (.finite value)) =>
    if value.den = 1 then
      let tooMany :=
        if value.num.natAbs ≤ Binary64.greatestSafe then []
        else [Issue.general path (.unsafeInteger (value.num < 0))]
      let tooSmall :=
        if mayBeNegative ∨ 0 ≤ value.num then [] else [Issue.general path .belowZero]
      Verdict.ofIssues (tooMany ++ tooSmall) (.number (.finite value))
    else .error [Issue.general path .notInteger]
  | value => wrongType path "number" value

mutual

/-- Checks a value that may be missing. -/
def validate : Schema → (path : Path) → (value : Option Json) → Verdict Json
  | .text checks, path, value =>
    match value with
    | some (.string written) =>
      Verdict.ofIssues (checks.flatMap (TextCheck.issues path written)) (.string written)
    | value => wrongType path "string" value
  | .formatted pattern message, path, value =>
    match value with
    | some (.string written) =>
      Verdict.ofIssues (TextCheck.issues path written (.matching pattern message)) (.string written)
    | value => .error [⟨path, .wrongType "string" (Json.typeName value), message⟩]
  | .integer, path, value => validateInteger path true value
  | .natural, path, value => validateInteger path false value
  | .boolean, path, value =>
    match value with
    | some (.bool truth) => .ok (.bool truth)
    | value => wrongType path "boolean" value
  | .choice options, path, value =>
    match value with
    | some (.string written) =>
      if options.contains written then .ok (.string written)
      else .error [Issue.general path (.noOption options)]
    | _ => .error [Issue.general path (.noOption options)]
  | .constant expected, path, value =>
    match value with
    | some (.string written) =>
      if written = expected then .ok (.string written)
      else .error [Issue.general path (.notConstant expected)]
    | _ => .error [Issue.general path (.notConstant expected)]
  | .list item, path, value =>
    match value with
    | some (.array items) =>
      (Verdict.all (items.zipIdx.map fun (value, index) =>
        item.validate (path ++ [.item index]) (some value))).map .array
    | value => wrongType path "array" value
  | .record fields, path, value =>
    match value with
    | some (.object members) => (validateFields fields path members).map .object
    | value => wrongType path "object" value

/-- Checks the members of an object. -/
def validateFields : Fields → (path : Path) → (members : Members) → Verdict Members
  | .nil, _, _ => .ok []
  | .cons name presence schema rest, path, members =>
    let here : Verdict Members :=
      match members.get? name, presence with
      | none, .optional => .ok []
      | none, .byDefault value => .ok [(name, value)]
      | value, _ =>
        (schema.validate (path ++ [.member name]) value).map fun value => [(name, value)]
    Verdict.both (· ++ ·) here (validateFields rest path members)

end

/-- A text is admitted if no check has issues with it. -/
theorem validate_text (checks : List TextCheck) (path : Path) (value : String) :
    (text checks).validate path (some (.string value)) =
      Verdict.ofIssues (checks.flatMap (TextCheck.issues path value)) (.string value) := by
  rw [validate]

/-- An object is admitted if its members are. -/
theorem validate_record (fields : Fields) (path : Path) (members : Members) :
    (record fields).validate path (some (.object members)) =
      (validateFields fields path members).map .object := by
  rw [validate]

/-- Members without a field are dropped. -/
theorem validateFields_nil (path : Path) (members : Members) :
    validateFields .nil path members = .ok [] := by
  rw [validateFields]

end Schema

end PgpInspect
