import Schemata.Number.Double

/-!
# `Schemata.Number.Quantity` — integers and doubles on one line

Integers and doubles are compared by their exact values. A quantity is a rational number, one of the
two infinities, or no number at all; what is no number neither equals nor precedes anything.

## Contents
- `Quantity`, `Quantity.ofInt`, `Quantity.ofDouble`.
- `Quantity.same`, `Quantity.less`, `Quantity.atMost`, the comparisons.
-/

namespace Schemata

/-- A point of the extended rational line, or no number. -/
inductive Quantity
  | undefined
  | bottom
  | exactly (q : Rat)
  | top
deriving DecidableEq, Inhabited

namespace Quantity

/-- The quantity of an integer. -/
def ofInt (n : Int) : Quantity := .exactly (n : Rat)

/-- The quantity of a double. -/
def ofDouble : Double → Quantity
  | .nan => .undefined
  | .infinity negative => if negative then .bottom else .top
  | .finite negative m e =>
    match (Double.finite negative m e).toRat? with
    | some q => .exactly q
    | none => .undefined

/-- Equality of values. -/
def same : Quantity → Quantity → Bool
  | .bottom, .bottom => true
  | .top, .top => true
  | .exactly a, .exactly b => a == b
  | _, _ => false

/-- Strict order. -/
def less : Quantity → Quantity → Bool
  | .bottom, .exactly _ => true
  | .bottom, .top => true
  | .exactly _, .top => true
  | .exactly a, .exactly b => decide (a < b)
  | _, _ => false

/-- Order: less or the same. -/
def atMost (a b : Quantity) : Bool := a.less b || a.same b

end Quantity

end Schemata
