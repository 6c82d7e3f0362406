/-!
# `Schemata.Unicode.Runs` — sets of characters as runs

A set of code points is written as the lengths of the runs outside and inside it, taking turns and
beginning outside. A map of characters is written as steps: how far the next mapped character is, and
how far its image is from it.

## Contents
- `Runs`, `Runs.contains` and the reading of hexadecimal texts, `Runs.ofText`.
- `stepFrom` and `stepsOfText` for character maps.
-/

namespace Schemata.Unicode

/-! ## Hexadecimal texts -/

/-- The value of a hexadecimal digit; other characters count as zero. -/
def hexDigit (c : Char) : Nat :=
  if c.isDigit then c.toNat - '0'.toNat
  else if 'a' ≤ c ∧ c ≤ 'f' then c.toNat - 'a'.toNat + 10
  else if 'A' ≤ c ∧ c ≤ 'F' then c.toNat - 'A'.toNat + 10
  else 0

/-- The value of a hexadecimal numeral. -/
def hexValue (cs : List Char) : Nat := cs.foldl (fun n c => n * 16 + hexDigit c) 0

/-- The value of a hexadecimal numeral with an optional minus sign. -/
def signedHexValue : List Char → Int
  | '-' :: cs => -(hexValue cs : Int)
  | cs => hexValue cs

/-- The words of a text that are set apart by blanks and line breaks. -/
def wordsOf (text : String) : List (List Char) :=
  (text.toList.splitOnP fun c => c = ' ' || c = '\n').filter fun word => !word.isEmpty

/-! ## Sets -/

/-- Lengths of runs of code points, outside and inside a set by turns. -/
abbrev Runs := List Nat

namespace Runs

/-- Whether a code point, counted from the start of the first run, lies inside. -/
def containsFrom : Bool → Runs → Nat → Bool
  | _, [], _ => false
  | inside, n :: rest, c => if c < n then inside else containsFrom (!inside) rest (c - n)

/-- Whether a code point belongs to the set. -/
def contains (runs : Runs) (c : Nat) : Bool := containsFrom false runs c

/-- Reads the lengths of the runs from a text of hexadecimal numerals. -/
def ofText (text : String) : Runs := (wordsOf text).map hexValue

end Runs

/-! ## Maps -/

/-- Follows the steps to the character at distance `distance` from the last one; a character that is
not reached is mapped by the step zero. -/
def stepAt : List (Nat × Int) → Nat → Int
  | [], _ => 0
  | (gap, step) :: rest, distance =>
    if distance < gap then 0 else if distance = gap then step else stepAt rest (distance - gap)

/-- The image of a character. -/
def stepFrom (table : List (Nat × Int)) (c : Char) : Char :=
  Char.ofNat ((c.toNat : Int) + stepAt table c.toNat).toNat

/-- Pairs up distances and steps. -/
def pairSteps : List (List Char) → List (Nat × Int)
  | gap :: step :: rest => (hexValue gap, signedHexValue step) :: pairSteps rest
  | _ => []

/-- Reads the steps of a map from a text of hexadecimal numerals. -/
def stepsOfText (text : String) : List (Nat × Int) := pairSteps (wordsOf text)

end Schemata.Unicode
