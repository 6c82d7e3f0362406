import Mathlib.Data.List.Basic
import Schemata.Value.Order

/-!
# `Schemata.Proofs.Value.Order` — comparisons of numbers

Any two numbers can be compared, and integers compare as integers.

## Contents
- `Relation.ofInts` and `related_int`.
- `related_of_quantities`, on numbers of either sort, and `IsOrdered` values.
-/

namespace Schemata

/-- A comparison of integers. -/
def Relation.ofInts : Relation → Int → Int → Bool
  | .less, m, n => decide (m < n)
  | .atMost, m, n => decide (m ≤ n)
  | .greater, m, n => decide (n < m)
  | .atLeast, m, n => decide (n ≤ m)

namespace Relation

theorem not_less (m n : Int) : (!Relation.less.ofInts m n) = decide (n ≤ m) := by
  rw [ofInts, ← decide_not]
  exact decide_eq_decide.mpr Int.not_lt

theorem not_greater (m n : Int) : (!Relation.greater.ofInts m n) = decide (m ≤ n) := by
  rw [ofInts, ← decide_not]
  exact decide_eq_decide.mpr Int.not_lt

end Relation

namespace Quantity

theorem less_ofInt (m n : Int) : (ofInt m).less (ofInt n) = decide (m < n) := by
  simp only [less, ofInt, Rat.intCast_lt_intCast]

theorem atMost_ofInt (m n : Int) : (ofInt m).atMost (ofInt n) = decide (m ≤ n) := by
  have hsame : (ofInt m).same (ofInt n) = decide (m = n) := by
    rw [Bool.eq_iff_iff]
    simp [same, ofInt]
  rw [atMost, less_ofInt, hsame, Bool.eq_iff_iff]
  simp
  omega

end Quantity

namespace Value

/-- Numbers are compared by their quantities. -/
theorem related_of_quantities (relation : Relation) {v w : Value} {p q : Quantity} (hp : v.quantity? = some p)
    (hq : w.quantity? = some q) : related relation v w = .ok (relation.ofQuantities p q) := by
  cases v with
  | bool b | int n | float x =>
    cases w with
    | bool c | int m | float y =>
      obtain rfl := Option.some.inj hp
      obtain rfl := Option.some.inj hq
      simp [related, relatedScalars, quantity?]
    | _ => cases hq
  | _ => cases hp

/-- A value that can be compared with numbers. -/
def IsOrdered (v : Value) : Prop := ∃ q, v.quantity? = some q

theorem isOrdered_int (n : Int) : (int n).IsOrdered := ⟨.ofInt n, rfl⟩

theorem IsOrdered.related {v w : Value} (hv : v.IsOrdered) (hw : w.IsOrdered) (relation : Relation) :
    ∃ b, related relation v w = .ok b := by
  obtain ⟨p, hp⟩ := hv
  obtain ⟨q, hq⟩ := hw
  exact ⟨_, related_of_quantities relation hp hq⟩

/-- **Integers are compared as integers.** -/
theorem related_int (relation : Relation) (m n : Int) :
    related relation (.int m) (.int n) = .ok (relation.ofInts m n) := by
  rw [related_of_quantities relation rfl rfl]
  cases relation with
  | less => rw [Relation.ofQuantities, Quantity.less_ofInt, Relation.ofInts]
  | atMost => rw [Relation.ofQuantities, Quantity.atMost_ofInt, Relation.ofInts]
  | greater => rw [Relation.ofQuantities, Quantity.less_ofInt, Relation.ofInts]
  | atLeast => rw [Relation.ofQuantities, Quantity.atMost_ofInt, Relation.ofInts]

end Value

end Schemata
