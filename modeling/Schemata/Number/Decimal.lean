/-!
# `Schemata.Number.Decimal` — exact decimal numbers

A decimal is a sign, a coefficient and a power of ten. It is the form in which numbers are written,
so it stands between texts, binary floating point numbers and divisibility.

## Contents
- **Digits.** `digitCount`, `stripZeros` and the reading of digit strings.
- **Decimals.** `Decimal`, its value `toRat`, its leading power of ten `adjusted`.
- **Notation.** `Decimal.read?` reads `-12.5e+3`.
- **Remainder.** `Decimal.remainder?` is the remainder of a truncated division whose quotient has to
  fit into a given number of digits.
-/

namespace Schemata

-- the core powers, also beside the powers of other libraries
attribute [local instance (high)] instPowNat

/-! ## Digits -/

/-- Number of decimal digits of `n`; zero has one digit. -/
def digitCount (n : Nat) : Nat := (Nat.toDigits 10 n).length

/-- The value of a list of decimal digits, most significant first, put behind `start`. -/
def digitsValue (start : Nat) (digits : List Char) : Nat :=
  digits.foldl (fun n c => n * 10 + (c.toNat - '0'.toNat)) start

/-- Divides out factors of ten, at most `fuel` of them, counting them into the exponent. -/
def stripZeros : Nat → Nat → Int → Nat × Int
  | 0, n, e => (n, e)
  | fuel + 1, n, e => if n ≠ 0 ∧ n % 10 = 0 then stripZeros fuel (n / 10) (e + 1) else (n, e)

/-- A number written with `digits` digits in front of an exponent is divided out completely. -/
def stripAllZeros (n : Nat) (e : Int) : Nat × Int := stripZeros (digitCount n) n e

/-! ## Decimals -/

/-- The number `± coefficient · 10 ^ exponent`; zero keeps its sign and exponent. -/
structure Decimal where
  negative : Bool
  coefficient : Nat
  exponent : Int
deriving DecidableEq, Repr, Inhabited

namespace Decimal

/-- The decimal of an integer. -/
def ofInt (n : Int) : Decimal := ⟨n < 0, n.natAbs, 0⟩

/-- The signed coefficient. -/
def signed (d : Decimal) : Int := if d.negative then -(d.coefficient : Int) else d.coefficient

/-- The rational number that a decimal stands for. -/
def toRat (d : Decimal) : Rat :=
  if 0 ≤ d.exponent then ((d.signed * 10 ^ d.exponent.toNat : Int) : Rat)
  else mkRat d.signed (10 ^ (-d.exponent).toNat)

/-- The power of ten of the leading digit. -/
def adjusted (d : Decimal) : Int := d.exponent + digitCount d.coefficient - 1

/-- Whether the decimal is a zero of any sign and exponent. -/
def isZero (d : Decimal) : Bool := d.coefficient == 0

/-! ## Notation -/

/-- Splits leading decimal digits off. -/
def takeDigits (cs : List Char) : List Char × List Char :=
  (cs.takeWhile Char.isDigit, cs.dropWhile Char.isDigit)

/-- Splits a leading sign off; the flag says whether it is a minus. -/
def takeSign : List Char → Bool × List Char
  | '-' :: cs => (true, cs)
  | '+' :: cs => (false, cs)
  | cs => (false, cs)

/-- Reads an exponent part that ends the text; nothing at all is the exponent zero. -/
def readExponent? : List Char → Option Int
  | [] => some 0
  | c :: cs =>
    if c = 'e' ∨ c = 'E' then
      let (negative, rest) := takeSign cs
      let (digits, rest) := takeDigits rest
      if digits.isEmpty ∨ ¬ rest.isEmpty then none
      else some (if negative then -(digitsValue 0 digits : Int) else digitsValue 0 digits)
    else none

/-- Reads an optional sign, digits with at most one point among or around them, and an optional
exponent. There must be a digit before the exponent. -/
def read? (cs : List Char) : Option Decimal :=
  let (negative, cs) := takeSign cs
  let (whole, cs) := takeDigits cs
  let (fraction, cs) :=
    match cs with
    | '.' :: rest => takeDigits rest
    | rest => ([], rest)
  if whole.isEmpty ∧ fraction.isEmpty then none
  else (readExponent? cs).map fun e =>
    ⟨negative, digitsValue (digitsValue 0 whole) fraction, e - fraction.length⟩

/-! ## Remainder -/

/-- The coefficients of two decimals written with their smaller exponent. -/
def align (a b : Decimal) : Nat × Nat :=
  let low := min a.exponent b.exponent
  (a.coefficient * 10 ^ (a.exponent - low).toNat, b.coefficient * 10 ^ (b.exponent - low).toNat)

/-- Rounds to at most `precision` significant digits, a half to the even neighbour. -/
def round (precision : Nat) (d : Decimal) : Decimal :=
  let excess := digitCount d.coefficient - precision
  if excess = 0 then d
  else
    let unit := 10 ^ excess
    let quotient := d.coefficient / unit
    let twice := 2 * (d.coefficient % unit)
    let up := twice > unit ∨ (twice = unit ∧ quotient % 2 = 1)
    ⟨d.negative, if up then quotient + 1 else quotient, d.exponent + excess⟩

/-- The remainder of `a` divided by `b` with the quotient cut towards zero, rounded to `precision`
digits. There is none when `b` is zero or when the whole quotient has more than `precision` digits. -/
def remainder? (precision : Nat) (a b : Decimal) : Option Decimal :=
  let low := min a.exponent b.exponent
  if b.isZero then none
  else if a.isZero ∨ a.adjusted - b.adjusted ≤ -2 then
    some (round precision ⟨a.negative, (align a b).1, low⟩)
  else if a.adjusted - b.adjusted ≤ precision ∧
      (align a b).1 / (align a b).2 < 10 ^ precision then
    some (round precision ⟨a.negative, (align a b).1 % (align a b).2, low⟩)
  else none

end Decimal

end Schemata
