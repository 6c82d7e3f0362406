import Schemata.Fault
import Schemata.Value.Equality

/-!
# `Schemata.Value.Order` — comparing values by size

Numbers are ordered by value, texts and bytes by their characters from the left, lists and tuples by their
first items that differ. Other pairs of values have no order.

## Contents
- `Relation` and `Value.related`.
-/

namespace Schemata

/-- The four comparisons by size. -/
inductive Relation
  | less
  | atMost
  | greater
  | atLeast
deriving DecidableEq, Repr

namespace Relation

/-- The comparison applied to the outcome of a three-way comparison. -/
def ofOrdering : Relation → Ordering → Bool
  | .less, o => o == .lt
  | .atMost, o => o != .gt
  | .greater, o => o == .gt
  | .atLeast, o => o != .lt

/-- The comparison of quantities; what is no number stands in no relation. -/
def ofQuantities : Relation → Quantity → Quantity → Bool
  | .less, p, q => p.less q
  | .atMost, p, q => p.atMost q
  | .greater, p, q => q.less p
  | .atLeast, p, q => q.atMost p

end Relation

namespace Value

/-- The three-way comparison of lists whose items have one. -/
def compareLists {α : Type} (cmp : α → α → Ordering) : List α → List α → Ordering
  | [], [] => .eq
  | [], _ :: _ => .lt
  | _ :: _, [] => .gt
  | x :: xs, y :: ys =>
    match cmp x y with
    | .eq => compareLists cmp xs ys
    | o => o

/-- Whether a sequence of bytes takes part in comparisons. -/
def orderedBytes? : Value → Option (List UInt8)
  | .file (.bytes .fixed content) => some content
  | .file (.bytes .growable content) => some content
  | _ => none

/-- The comparison of values without items. -/
def relatedScalars (r : Relation) (a b : Value) : Except Fault Bool :=
  match a, b with
  | .string s, .string t =>
    .ok (r.ofOrdering (compareLists (fun c d => compare c.toNat d.toNat) s.toList t.toList))
  | .date d, .date e => .ok (r.ofOrdering (compare d.ordinal e.ordinal))
  | a, b =>
    match a.quantity?, b.quantity? with
    | some p, some q => .ok (r.ofQuantities p q)
    | _, _ =>
      match orderedBytes? a, orderedBytes? b with
      | some x, some y => .ok (r.ofOrdering (compareLists (fun m n => compare m n) x y))
      | _, _ => .error .unsupported

mutual

/-- Whether a value stands in a relation to another; a fault if the two have no order. -/
def related (r : Relation) : Value → Value → Except Fault Bool
  | .list xs, .list ys => relatedItems r xs ys
  | .tuple xs, .tuple ys => relatedItems r xs ys
  | a, b => relatedScalars r a b

/-- The first items that are not alike decide, else the lengths. -/
def relatedItems (r : Relation) : List Value → List Value → Except Fault Bool
  | [], [] => .ok (r.ofOrdering .eq)
  | [], _ :: _ => .ok (r.ofOrdering .lt)
  | _ :: _, [] => .ok (r.ofOrdering .gt)
  | x :: xs, y :: ys => if x.alike y then relatedItems r xs ys else related r x y

end

end Value

end Schemata
