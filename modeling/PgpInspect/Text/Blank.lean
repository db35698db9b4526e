/-!
# Blank characters and line ends

`isBlank` holds of the characters that trimming removes and that may stand around a separator:
the ASCII blanks, the space separators of Unicode, the two Unicode line ends and the byte order
mark. The characters that end a line are four of them.
-/

namespace PgpInspect.Text

/-- The blank characters. U+0085, U+180E and U+200B are not among them. -/
def isBlank (c : Char) : Bool :=
  let n := c.toNat
  (9 ≤ n && n ≤ 13) || n == 0x20 || n == 0xA0 || n == 0x1680 || (0x2000 ≤ n && n ≤ 0x200A) ||
    n == 0x2028 || n == 0x2029 || n == 0x202F || n == 0x205F || n == 0x3000 || n == 0xFEFF

/-- The characters that end a line. -/
def isLineEnd (c : Char) : Bool :=
  let n := c.toNat
  n == 10 || n == 13 || n == 0x2028 || n == 0x2029

/-- `text` without the blanks in front. -/
def trimStart (text : List Char) : List Char := text.dropWhile isBlank

/-- `text` without the blanks at its end. -/
def trimEnd (text : List Char) : List Char := (text.reverse.dropWhile isBlank).reverse

/-- `text` without the blanks around it. -/
def trim (text : List Char) : List Char := trimEnd (trimStart text)

/-- `text` without any blanks. -/
def withoutBlanks (text : List Char) : List Char := text.filter fun c => !isBlank c

end PgpInspect.Text
