import PgpInspect.Text.LowerCase.Table

/-!
# Lower case

The full lower-case mapping of Unicode. It maps each character by itself, with two exceptions:
U+0130 becomes two characters, and a capital sigma at the end of a word becomes a final sigma. A
sigma ends a word if, looking through characters that case rules ignore, a cased character comes
before it and none after it.
-/

namespace PgpInspect.Text.LowerCase

/-- The lower-case form of the character with number `n`. -/
def lowerNumber (n : Nat) : Nat :=
  match runs.find? fun run => run.first ≤ n && n ≤ run.last with
  | some run => if (n - run.first) % run.step = 0 then (n + run.offset).toNat else n
  | none => n

/-- Whether `n` lies in one of `ranges`. -/
def inRanges (ranges : List (Nat × Nat)) (n : Nat) : Bool :=
  ranges.any fun range => range.1 ≤ n && n ≤ range.2

/-- The cased characters. -/
def isCased (c : Char) : Bool := inRanges casedRanges c.toNat

/-- The characters that case rules look through. -/
def isIgnorable (c : Char) : Bool := inRanges ignorableRanges c.toNat

/-- Whether the first character of `text` that case rules do not look through is cased. -/
def meetsCased (text : List Char) : Bool :=
  match text.dropWhile isIgnorable with
  | c :: _ => isCased c
  | [] => false

/-- The lower-case form of one character between the text `before` it, nearest character first,
and the text `after` it. -/
def lowerChar (before : List Char) (c : Char) (after : List Char) : List Char :=
  if c = '\u0130' then ['i', '\u0307']
  else if c = '\u03A3' then [if meetsCased before && !meetsCased after then '\u03C2' else '\u03C3']
  else if c.toNat < 128 then [c.toLower]
  else [Char.ofNat (lowerNumber c.toNat)]

/-- The lower-case form of `text` after the text `before`, nearest character first. -/
def lowerAfter (before : List Char) : List Char → List Char
  | [] => []
  | c :: rest => lowerChar before c rest ++ lowerAfter (c :: before) rest

end LowerCase

/-- The lower-case form of a text. -/
def lower (text : List Char) : List Char := LowerCase.lowerAfter [] text

end PgpInspect.Text
