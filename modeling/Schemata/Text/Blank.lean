/-!
# `Schemata.Text.Blank` — blank characters

Blank are the white space of the standard and the four separator controls in front of the space.

## Contents
- `isBlank`, and `strip`, which takes blank characters off both ends.
-/

namespace Schemata.Text

/-- Whether a character is blank. -/
def isBlank (c : Char) : Bool :=
  let n := c.toNat
  (9 ≤ n && n ≤ 13) || (28 ≤ n && n ≤ 32) || n == 0x85 || n == 0xa0 || n == 0x1680 ||
    (0x2000 ≤ n && n ≤ 0x200a) || n == 0x2028 || n == 0x2029 || n == 0x202f || n == 0x205f ||
    n == 0x3000

/-- Takes blank characters off both ends of a list of characters. -/
def stripChars (cs : List Char) : List Char :=
  ((cs.dropWhile isBlank).reverse.dropWhile isBlank).reverse

/-- Takes blank characters off both ends of a text. -/
def strip (s : String) : String := String.ofList (stripChars s.toList)

end Schemata.Text
