import PgpInspect.Text.Units

/-!
# Capability letters

What a key may be used for is a text of letters in order, without repetition. Letters that come
from subkeys follow after a `+`.
-/

namespace PgpInspect.Capability

/-- The letters that key flags grant, in the order of the flags. -/
def granted (flags : Nat) : List Char :=
  [(0x01, 'c'), (0x02, 's'), (0x0C, 'e'), (0x20, 'a')].filterMap fun (mask, letter) =>
    if flags &&& mask = 0 then none else some letter

/-- Texts in order and without repetition, one after the other. -/
def arrange (letters : List String) : String :=
  String.join (letters.eraseDups.mergeSort Text.unitLe)

/-- The letters of a text. -/
def lettersOf (capabilities : String) : List String := capabilities.toList.map String.singleton

/-- The letters of `existing` with those of `added`, arranged. -/
def merge (existing : String) (added : List String) : String :=
  arrange (lettersOf existing ++ added)

/-- The letters in front of the first `+`, which are the key's own. -/
def own (capabilities : String) : String :=
  String.ofList (capabilities.toList.takeWhile (· != '+'))

end PgpInspect.Capability
