import PgpInspect.Http.Headers

/-!
# Looking up header fields

What a look-up finds after fields were set: the value of the last field with the name, in either
case of its letters, and otherwise what was there before.
-/

namespace PgpInspect.Http.Headers

variable {name key value : String}

/-- The field that was set is found under its name, and the others under theirs. -/
theorem get?_set (headers : Headers) :
    (headers.set name value).get? key =
      if nameKey name = nameKey key then some value else headers.get? key := by
  have hkept : (headers.filter fun field => field.1 != nameKey name).find?
      (fun field => field.1 == nameKey key) =
        if nameKey name = nameKey key then none
        else headers.find? fun field => field.1 == nameKey key := by
    rw [List.find?_filter]
    split
    · next hsame =>
      refine List.find?_eq_none.mpr fun field _ => ?_
      simp [hsame]
    · next hother =>
      -- A field with the name that is looked for is not the one that was taken out.
      congr 1
      funext field
      by_cases hfield : field.1 = nameKey key
      · simp [hfield, Ne.symm hother]
      · simp [hfield]
  unfold set get?
  rw [List.find?_append, hkept]
  by_cases hsame : nameKey name = nameKey key
  · simp [hsame]
  · simp [hsame]

/-- Fields are set one after the other. -/
theorem setAll_append (headers : Headers) (before behind : List (String × String)) :
    headers.setAll (before ++ behind) = (headers.setAll before).setAll behind :=
  List.foldl_append

/-- Fields with other names do not change what is found. -/
theorem get?_setAll_of_ne {fields : List (String × String)}
    (h : ∀ field ∈ fields, nameKey field.1 ≠ nameKey key) (headers : Headers) :
    (headers.setAll fields).get? key = headers.get? key := by
  induction fields generalizing headers with
  | nil => rfl
  | cons field rest ih =>
    rw [List.forall_mem_cons] at h
    have hrest : (headers.setAll (field :: rest)).get? key =
        (headers.set field.1 field.2).get? key := ih h.2 _
    rw [hrest, get?_set, if_neg h.1]

/-- The last field with a name is found under it. -/
theorem get?_setAll_append_cons {behind : List (String × String)}
    (h : ∀ field ∈ behind, nameKey field.1 ≠ nameKey name) (before : List (String × String))
    (headers : Headers) :
    (headers.setAll (before ++ (name, value) :: behind)).get? name = some value := by
  have hlast : headers.setAll (before ++ (name, value) :: behind) =
      ((headers.setAll before).set name value).setAll behind := setAll_append headers before _
  rw [hlast, get?_setAll_of_ne h, get?_set, if_pos rfl]

end PgpInspect.Http.Headers
