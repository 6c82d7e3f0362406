import Schemata.Fault
import Schemata.Value.Text

/-!
# `Schemata.Number.Divisibility` — exact multiples

Whether one number is a multiple of another is decided on decimals: an integer is its own decimal, and a
binary floating point number counts as the shortest decimal that reads back, so `0.0075` is a multiple of
`0.0001`. The remainder is taken with as many digits as the quotient needs.

## Contents
- `Operand`, what takes part in a division, and `isMultiple`.
- `Value.isMultipleOf`, with two integers divided directly.
-/

namespace Schemata

/-- A number that takes part in a decimal division. -/
inductive Operand
  | undefined
  | infinite
  | decimal (d : Decimal)
deriving DecidableEq, Repr

namespace Operand

/-- The operand of a double: its shortest decimal. -/
def ofDouble : Double → Operand
  | .nan => .undefined
  | .infinity _ => .infinite
  | .finite negative m e =>
    match (Double.finite negative m e).toDecimal? with
    | some d => .decimal d
    | none => .undefined

/-- The power of ten of the leading digit; zero for what has no digits. -/
def adjusted : Operand → Int
  | .decimal d => d.adjusted
  | _ => 0

end Operand

/-- The number of digits that a division works with: enough for the quotient and never below 28. -/
def workingPrecision (step dividend : Operand) : Nat :=
  (max 28 (dividend.adjusted - step.adjusted + 28)).toNat

/-- Whether the dividend is a multiple of the step. Only zero is a multiple of an infinite step. -/
def isMultiple (step dividend : Operand) : Bool :=
  match dividend, step with
  | .decimal a, .decimal b =>
    match Decimal.remainder? (workingPrecision step dividend) a b with
    | some r => r.isZero
    | none => false
  | .decimal a, .infinite => a.isZero
  | _, _ => false

namespace Value

/-- The operand that a value stands for, if it can be written as a number. -/
def operand? : Value → Except Fault (Option Operand)
  | .int n => if isWritableInt n then .ok (some (.decimal (.ofInt n))) else .error .noValue
  | .float x => .ok (some (.ofDouble x))
  | .string s => .ok ((Decimal.read? s.toList).map .decimal)
  | _ => .ok none

/-- Whether a value is the number zero. -/
def isZeroNumber (v : Value) : Bool :=
  match v.quantity? with
  | some q => q.same (.ofInt 0)
  | none => false

/-- A truth value or an integer as an integer. -/
def integer? : Value → Option Int
  | .bool b => some (if b then 1 else 0)
  | .int n => some n
  | _ => none

/-- Whether a value is a multiple of a divisor. Nothing is a multiple of zero. -/
def isMultipleOf (v divisor : Value) : Except Fault Bool :=
  if divisor.isZeroNumber then .ok false
  else
    match v.integer?, divisor.integer? with
    | some n, some d => .ok (Int.emod n d == 0)
    | _, _ => do
      let dividend ← v.operand?
      let step ← divisor.operand?
      match dividend, step with
      | some a, some b => return isMultiple b a
      | _, _ => return false

end Value

end Schemata
