import Schemata.Number.Decimal

/-!
# `Schemata.Number.Double` — binary floating point numbers, exactly

Numbers with 53 significant bits as data: a sign, a mantissa and a power of two. Nothing is computed
in hardware, so equality, order and conversions are plain facts about integers and rationals.

## Contents
- **Doubles.** `Double`, its exact value `toRat?`, `isFinite`, `isIntegral`.
- **Rounding.** `Double.round` takes a quotient of naturals to the nearest double, a half to the even
  mantissa; `Double.ofDecimal` does so for a decimal.
- **Shortest digits.** `Double.shortest` finds the fewest digits that read back.
- **Notation.** `Double.text` writes them, positionally from `0.0001` to below `10^16`, and
  `Double.read?` reads any decimal notation.
-/

namespace Schemata

-- the core powers, also beside the powers of other libraries
attribute [local instance (high)] instPowNat

/-! ## Doubles -/

/-- A binary floating point number; a finite one is `± mantissa · 2 ^ exponent`. -/
inductive Double
  | nan
  | infinity (negative : Bool)
  | finite (negative : Bool) (mantissa : Nat) (exponent : Int)
deriving DecidableEq, Repr, Inhabited

namespace Double

/-- The least power of two of a mantissa. -/
def minExponent : Int := -1074

/-- The greatest power of two of a mantissa. -/
def maxExponent : Int := 971

/-- The exact value of a finite double. -/
def toRat? : Double → Option Rat
  | .nan => none
  | .infinity _ => none
  | .finite negative m e =>
    let n : Int := if negative then -(m : Int) else m
    some (if 0 ≤ e then ((n * 2 ^ e.toNat : Int) : Rat) else mkRat n (2 ^ (-e).toNat))

/-- Whether the double is neither infinite nor no number. -/
def isFinite : Double → Bool
  | .finite _ _ _ => true
  | _ => false

/-- Whether the double is a whole number. -/
def isIntegral : Double → Bool
  | .finite _ m e => 0 ≤ e || m % 2 ^ (-e).toNat == 0
  | _ => false

/-- Whether the double is a zero of either sign. -/
def isZero : Double → Bool
  | .finite _ m _ => m == 0
  | _ => false

/-! ## Rounding -/

/-- The quotient `num / den` rounded to a natural, a half to the even neighbour. -/
def roundQuotient (num den : Nat) : Nat :=
  let q := num / den
  let twice := 2 * (num % den)
  if twice > den ∨ (twice = den ∧ q % 2 = 1) then q + 1 else q

/-- The quotient `num / den` divided by a power of two, again as a quotient. -/
def scaleDown (num den : Nat) (e : Int) : Nat × Nat :=
  if 0 ≤ e then (num, den * 2 ^ e.toNat) else (num * 2 ^ (-e).toNat, den)

/-- The power of two at which the quotient has a mantissa of 53 bits, or the least one. -/
def roundingExponent (num den : Nat) : Int :=
  let e := max minExponent ((Nat.log2 num : Int) - Nat.log2 den - 53)
  let (n, d) := scaleDown num den e
  if n / d ≥ 2 ^ (53 : Nat) then e + 1 else e

/-- The double nearest to `± num / den`. -/
def round (negative : Bool) (num den : Nat) : Double :=
  if num = 0 then .finite negative 0 minExponent
  else
    let e := roundingExponent num den
    let (n, d) := scaleDown num den e
    let m := roundQuotient n d
    let (m, e) := if m = 2 ^ (53 : Nat) then (2 ^ (52 : Nat), e + 1) else (m, e)
    if e > maxExponent then .infinity negative else .finite negative m e

/-- The double nearest to a decimal. Exponents beyond the range of doubles are decided without
forming the power. -/
def ofDecimal (d : Decimal) : Double :=
  if d.coefficient = 0 then .finite d.negative 0 minExponent
  else if d.adjusted > 310 then .infinity d.negative
  else if d.adjusted < -330 then .finite d.negative 0 minExponent
  else if 0 ≤ d.exponent then round d.negative (d.coefficient * 10 ^ d.exponent.toNat) 1
  else round d.negative d.coefficient (10 ^ (-d.exponent).toNat)

/-- The double nearest to an integer. -/
def ofInt (n : Int) : Double := round (n < 0) n.natAbs 1

/-! ## Shortest digits -/

/-- A quotient of naturals. -/
structure Fraction where
  num : Nat
  den : Nat

/-- The fraction `m · 2 ^ e`. -/
def Fraction.ofDyadic (m : Nat) (e : Int) : Fraction :=
  if 0 ≤ e then ⟨m * 2 ^ e.toNat, 1⟩ else ⟨m, 2 ^ (-e).toNat⟩

/-- The numbers that round to `m · 2 ^ e`: the two ends, halfway to the neighbouring doubles. Below a
power of two the neighbours stand twice as close. -/
def roundingInterval (m : Nat) (e : Int) : Fraction × Fraction :=
  let low :=
    if m = 2 ^ (52 : Nat) ∧ e > minExponent then Fraction.ofDyadic (4 * m - 1) (e - 2)
    else Fraction.ofDyadic (2 * m - 1) (e - 1)
  (low, Fraction.ofDyadic (2 * m + 1) (e - 1))

/-- The point `n · 10 ^ p` as a fraction. -/
def gridPoint (n : Nat) (p : Int) : Fraction :=
  if 0 ≤ p then ⟨n * 10 ^ p.toNat, 1⟩ else ⟨n, 10 ^ (-p).toNat⟩

/-- Whether a fraction lies in an interval, the ends being included when `closed`. -/
def Fraction.within (x : Fraction) (interval : Fraction × Fraction) (closed : Bool) : Bool :=
  let (low, high) := interval
  if closed then
    low.num * x.den ≤ x.num * low.den && x.num * high.den ≤ high.num * x.den
  else
    low.num * x.den < x.num * low.den && x.num * high.den < high.num * x.den

/-- How many places behind the point are looked at for the leading digit of a fraction; doubles have one there. -/
def placeLimit : Nat := 400

/-- The power of ten of the leading digit of a positive fraction that has one within the places looked at. -/
def Fraction.magnitude (x : Fraction) : Int :=
  (digitCount (x.num * 10 ^ placeLimit / x.den) : Int) - (placeLimit + 1)

/-- The naturals next to the quotient `num / den`, the nearer one first; a tie goes to the even one. -/
def neighbours (num den : Nat) : List Nat :=
  let below := num / den
  let twice := 2 * (num % den)
  if twice > den ∨ (twice = den ∧ below % 2 = 1) then [below + 1, below] else [below, below + 1]

/-- The grid point with `count` digits that is nearest to `m · 2 ^ e`, or else the one on its other side, if it reads
back. -/
def candidate? (m : Nat) (e : Int) (count : Nat) : Option (Nat × Int) :=
  let x := Fraction.ofDyadic m e
  let p := x.magnitude - count + 1
  let unit := gridPoint 1 p
  let fits n := (gridPoint n p).within (roundingInterval m e) (m % 2 == 0)
  ((neighbours (x.num * unit.den) (x.den * unit.num)).find? fits).map fun n => (n, p)

/-- The fewest digits, with their power of ten, that round to `m · 2 ^ e`. Seventeen always do. -/
def shortest (m : Nat) (e : Int) : Nat × Int :=
  if m = 0 then (0, 0)
  else
    match (List.range 17).findSome? fun count => candidate? m e (count + 1) with
    | some (n, p) => stripAllZeros n p
    | none => (m, e)

/-- The decimal with the fewest digits that reads back as the given finite double. -/
def toDecimal? : Double → Option Decimal
  | .finite negative m e =>
    let (n, p) := shortest m e
    some ⟨negative, n, p⟩
  | _ => none

/-! ## Notation -/

/-- Writes digits with a point behind the first `whole` of them, filled up with zeros on both sides;
at least one digit stands on either side of the point. -/
def positional (digits : List Char) (whole : Int) : List Char :=
  if whole ≤ 0 then '0' :: '.' :: (List.replicate (-whole).toNat '0' ++ digits)
  else
    let k := whole.toNat
    let front := digits.take k ++ List.replicate (k - digits.length) '0'
    let back := digits.drop k
    front ++ '.' :: (if back.isEmpty then ['0'] else back)

/-- Writes digits with one digit in front of the point and an exponent of at least two digits. -/
def scientific (digits : List Char) (exponent : Int) : List Char :=
  let mantissa :=
    match digits with
    | d :: e :: rest => d :: '.' :: e :: rest
    | ds => ds
  let size := Nat.toDigits 10 exponent.natAbs
  let padded := if size.length < 2 then '0' :: size else size
  mantissa ++ 'e' :: (if exponent < 0 then '-' else '+') :: padded

/-- The text of a double: shortest digits, written positionally from `0.0001` to below `10^16`. -/
def text : Double → String
  | .nan => "nan"
  | .infinity negative => if negative then "-inf" else "inf"
  | .finite negative m e =>
    let (n, p) := shortest m e
    let digits := Nat.toDigits 10 n
    let whole := p + digits.length
    let body :=
      if n = 0 then ['0', '.', '0']
      else if -4 < whole ∧ whole ≤ 16 then positional digits whole
      else scientific digits (whole - 1)
    String.ofList (if negative then '-' :: body else body)

/-- Reads a decimal notation, or one of the words for infinities and for no number. -/
def read? (s : String) : Option Double :=
  if s = "nan" then some .nan
  else if s = "inf" then some (.infinity false)
  else if s = "-inf" then some (.infinity true)
  else (Decimal.read? s.toList).map ofDecimal

end Double

end Schemata
