import Schemata.Proofs.Answer
import Schemata.Proofs.Number.Whole
import Schemata.Proofs.Value.Kind

/-!
# `Schemata.Proofs.Value.Exact` — numbers with two spellings

A whole number may be spelled as an integer and as a double. Up to a magnitude of `2 ^ 53` every integer is a double,
and nothing that is asked of numbers tells the spellings apart, not even whether they are multiples of some divisor,
which is decided on integers for the one and on shortest digits for the other.

## Contents
- **Numbers.** `Value.IsExact`, and `Value.Spells`: numbers of one value are the same or spell the same integer.
- **Questions.** `Spells.isIntegral` and `Spells.isMultipleOf`.
-/

namespace Schemata

theorem Decimal.toRat_ofInt (n : Int) : (ofInt n).toRat = n := by
  have hsigned : (ofInt n).signed = n := by
    unfold ofInt signed
    split
    next hneg =>
      have := of_decide_eq_true hneg
      dsimp only
      omega
    next hnonneg =>
      have := of_decide_eq_false (Bool.eq_false_iff.mpr hnonneg)
      dsimp only
      omega
  rw [toRat_eq, hsigned, ofInt, zpow_zero, mul_one]

/-- Divided as decimals, integers are divided as integers. -/
theorem isMultiple_ofInt {n k : Int} (hk : k ≠ 0) : isMultiple (.decimal (.ofInt k)) (.decimal (.ofInt n)) = (n % k == 0) := by
  have hzero : (Decimal.ofInt k).isZero = false := by
    rw [Bool.eq_false_iff, ne_eq, Decimal.isZero_iff, Decimal.toRat_ofInt]
    exact_mod_cast hk
  rw [Bool.eq_iff_iff, isMultiple_iff, Decimal.toRat_ofInt, Decimal.toRat_ofInt, beq_iff_eq, ← Int.dvd_iff_emod_eq_zero]
  refine ⟨fun ⟨_, j, hj⟩ => ⟨j, ?_⟩, fun ⟨j, hj⟩ => ⟨hzero, j, ?_⟩⟩
  · rw [Int.mul_comm]
    exact_mod_cast hj
  · rw [hj]
    push_cast
    ring

namespace Value

/-! ## Numbers -/

/-- A number of a magnitude of at most `2 ^ 53`: an integer, or a double in its one form. -/
inductive IsExact : Value → Prop
  | int {n : Int} (limit : n.natAbs ≤ 2 ^ 53) : IsExact (.int n)
  | float {x : Double} {q : ℚ} (form : x.IsCanonical) (value : x.toRat? = some q) (limit : |q| ≤ 2 ^ 53) :
      IsExact (.float x)

/-- The spellings of an integer of a magnitude of at most `2 ^ 53`. -/
inductive Spells (n : Int) : Value → Prop
  | int (limit : n.natAbs ≤ 2 ^ 53) : Spells n (.int n)
  | float {x : Double} (form : x.IsCanonical) (value : x.toRat? = some (n : ℚ)) (limit : n.natAbs ≤ 2 ^ 53) :
      Spells n (.float x)

theorem quantity?_float {x : Double} {q : ℚ} (h : x.toRat? = some q) : (float x).quantity? = some (.exactly q) := by
  cases x with
  | nan | infinity => cases h
  | finite negative m e => rw [quantity?, Quantity.ofDouble, h]

variable {v w : Value} {n : Int}

theorem isWritableInt_of_le (limit : n.natAbs ≤ 2 ^ 53) : isWritableInt n = true := by
  refine decide_eq_true (limit.trans_lt ?_)
  calc 2 ^ 53 < 10 ^ 16 := by decide
    _ ≤ 10 ^ digitLimit := Nat.pow_le_pow_right (by decide) (by decide)

theorem IsExact.quantity (h : v.IsExact) : ∃ q, v.quantity? = some (.exactly q) := by
  cases h with
  | int => exact ⟨_, rfl⟩
  | float _ value _ => exact ⟨_, quantity?_float value⟩

/-- **Numbers of one value** are the same or spell the same integer. -/
theorem IsExact.eq_or_spells (hv : v.IsExact) (hw : w.IsExact) (h : v.quantity? = w.quantity?) :
    v = w ∨ ∃ n, Spells n v ∧ Spells n w := by
  cases hv with
  | @int m hm =>
    cases hw with
    | int =>
      obtain rfl : m = _ := by simpa [quantity?, Quantity.ofInt] using h
      exact .inl rfl
    | float form value _ =>
      rw [quantity?_float value] at h
      obtain rfl : (m : ℚ) = _ := by simpa [quantity?, Quantity.ofInt] using h
      exact .inr ⟨m, .int hm, .float form value hm⟩
  | float form value _ =>
    rw [quantity?_float value] at h
    cases hw with
    | @int n hn =>
      obtain rfl : _ = (n : ℚ) := by simpa [quantity?, Quantity.ofInt] using h
      exact .inr ⟨n, .float form value hn, .int hn⟩
    | float form' value' _ =>
      rw [quantity?_float value', Option.some.injEq, Quantity.exactly.injEq] at h
      subst h
      rcases Double.eq_of_toRat?_eq form form' value value' with rfl | rfl
      · exact .inl rfl
      · exact .inr ⟨0, .float form (by simpa using value) (by decide), .float form' (by simpa using value') (by decide)⟩

namespace Spells

theorem kind (h : Spells n v) : v.kind = some .number := by cases h <;> rfl

theorem quantity (h : Spells n v) : v.quantity? = some (.ofInt n) := by
  cases h with
  | int => rfl
  | float _ value _ => exact quantity?_float value

/-! ## Questions -/

theorem isIntegral_of_toRat? {x : Double} (h : x.toRat? = some (n : ℚ)) : x.isIntegral = true := by
  cases x with
  | nan | infinity => cases h
  | finite negative m e =>
    rw [Double.toRat?_finite, Option.some.injEq] at h
    refine Double.isIntegral_iff.mpr ⟨n.natAbs, ?_⟩
    rw [← abs_of_nonneg (Double.dyadic_nonneg m e), Nat.cast_natAbs, Int.cast_abs, ← h]
    cases negative <;> simp

/-- Every spelling of an integer is whole. -/
theorem isIntegral (h : Spells n v) : Schemata.isIntegral v = .ok true := by
  cases h with
  | int => rfl
  | float _ value _ => rw [Schemata.isIntegral, isIntegral_of_toRat? value]

/-- Every spelling of an integer takes part in divisions with its value. -/
theorem operand (h : Spells n v) : ∃ d, v.operand? = .ok (some (.decimal d)) ∧ d.toRat = n := by
  cases h with
  | int limit =>
    exact ⟨.ofInt n, by rw [operand?, if_pos (isWritableInt_of_le limit)], Decimal.toRat_ofInt n⟩
  | @float x form value limit =>
    have hlimit : |(n : ℚ)| ≤ 2 ^ 53 := by
      rw [← Int.cast_abs, ← Int.natCast_natAbs]
      exact_mod_cast limit
    obtain ⟨d, hd, hvalue⟩ := Double.toRat_toDecimal? form (isIntegral_of_toRat? value) value hlimit
    refine ⟨d, ?_, hvalue⟩
    cases x with
    | nan | infinity => cases value
    | finite negative m e => rw [operand?, Operand.ofDouble, hd]

/-- A number other than zero divides the spellings of an integer or it does not. -/
def divides (n : Int) : Value → Bool
  | .int k => n % k == 0
  | .float y => isMultiple (.ofDouble y) (.decimal (.ofInt n))
  | _ => false

/-- **What a spelling of an integer is a multiple of** depends on the integer alone. -/
theorem isMultipleOf (h : Spells n v) {divisor : Value} (hdivisor : divisor.kind = some .number) {b : Bool}
    (hb : v.isMultipleOf divisor = .ok b) : b = (!divisor.isZeroNumber && divides n divisor) := by
  unfold Value.isMultipleOf at hb
  cases hzero : divisor.isZeroNumber with
  | true =>
    rw [hzero, if_pos rfl] at hb
    exact (Except.ok.inj hb).symm
  | false =>
    rw [hzero, if_neg Bool.false_ne_true] at hb
    obtain ⟨d, hd, hvalue⟩ := h.operand
    have hsame : ∀ step, isMultiple step (.decimal d) = isMultiple step (.decimal (.ofInt n)) :=
      isMultiple_congr (hvalue.trans (Decimal.toRat_ofInt n).symm)
    rw [hd] at hb
    rcases number_of_kind hdivisor with ⟨k, rfl⟩ | ⟨y, rfl⟩
    · cases h with
      | int => exact (Except.ok.inj hb).symm
      | float form value limit =>
        by_cases hwritable : isWritableInt k = true
        · have hoperand : (Value.int k).operand? = .ok (some (.decimal (.ofInt k))) := by rw [operand?, if_pos hwritable]
          rw [hoperand] at hb
          obtain rfl : isMultiple (.decimal (.ofInt k)) (.decimal d) = b := Except.ok.inj hb
          rw [hsame, Bool.not_false, Bool.true_and, divides, isMultiple_ofInt]
          simpa [isZeroNumber, quantity?, Quantity.same, Quantity.ofInt] using hzero
        · have hoperand : (Value.int k).operand? = .error .noValue := by rw [operand?, if_neg hwritable]
          rw [hoperand] at hb
          cases hb
    · have hdecimal : isMultiple (.ofDouble y) (.decimal d) = b := by
        cases h with
        | int => exact Except.ok.inj hb
        | float => exact Except.ok.inj hb
      rw [← hdecimal, hsame]
      rfl

end Spells

end Value

end Schemata
