import Mathlib.Algebra.Order.Field.Power
import Mathlib.Data.Nat.Digits.Lemmas
import Mathlib.Tactic.FieldSimp
import Mathlib.Tactic.Ring
import Schemata.Number.Divisibility

/-!
# `Schemata.Proofs.Number.Divisibility` — multiples are exact

A remainder is taken with so many digits that none is lost, so one decimal is a multiple of another exactly when its
value is an integer times the value of the other, in whatever way both are written.

## Contents
- **Digits.** How many digits a number has.
- **Values.** `Decimal.toRat` as a coefficient on a power of ten, and decimals with one exponent (`align`).
- **Multiples.** `isMultiple_iff`, and `isMultiple_congr`: only the value of the dividend matters.
-/

namespace Schemata

/-! ## Digits -/

theorem digitCount_pos (n : Nat) : 0 < digitCount n := Nat.length_toDigits_pos

/-- A number has as many digits as the powers of ten say. -/
theorem digitCount_le_iff {n k : Nat} (hk : 0 < k) : digitCount n ≤ k ↔ n < 10 ^ k :=
  Nat.length_toDigits_le_iff (by decide) hk

theorem lt_pow_digitCount (n : Nat) : n < 10 ^ digitCount n := (digitCount_le_iff (digitCount_pos n)).mp le_rfl

theorem pow_digitCount_le {n : Nat} (hn : n ≠ 0) : 10 ^ (digitCount n - 1) ≤ n := by
  by_cases hone : digitCount n = 1
  · rw [hone]
    exact Nat.one_le_iff_ne_zero.mpr hn
  · have hpos := digitCount_pos n
    by_contra hlt
    have hle := (digitCount_le_iff (by omega : 0 < digitCount n - 1)).mpr (Nat.lt_of_not_le hlt)
    omega

/-! ## Values -/

namespace Decimal

theorem toRat_eq (d : Decimal) : d.toRat = d.signed * (10 : ℚ) ^ d.exponent := by
  unfold toRat
  split
  next hnonneg =>
    obtain ⟨n, hn⟩ := Int.eq_ofNat_of_zero_le hnonneg
    rw [hn]
    push_cast
    simp
  next hneg =>
    obtain ⟨n, hn⟩ := Int.exists_eq_neg_ofNat (Int.le_of_lt (Int.not_le.mp hneg))
    rw [hn, Rat.mkRat_eq_div]
    simp [zpow_neg, div_eq_mul_inv]

theorem natAbs_signed (d : Decimal) : d.signed.natAbs = d.coefficient := by
  unfold signed
  split
  · exact (Int.natAbs_neg _).trans (Int.natAbs_natCast _)
  · exact Int.natAbs_natCast _

/-- The value on a smaller power of ten. -/
theorem toRat_eq_on {low : Int} (d : Decimal) (h : low ≤ d.exponent) :
    d.toRat = ((d.signed * 10 ^ (d.exponent - low).toNat : Int) : ℚ) * (10 : ℚ) ^ low := by
  obtain ⟨n, hn⟩ := Int.eq_ofNat_of_zero_le (Int.sub_nonneg.mpr h)
  have hexponent : d.exponent = low + n := by omega
  rw [toRat_eq, hexponent, zpow_add₀ (by norm_num)]
  push_cast
  rw [show (low + (n : Int) - low).toNat = n by omega, zpow_natCast]
  ring

/-- **A multiple is one on the same power of ten.** -/
theorem exists_mul_iff_dvd_align (a b : Decimal) :
    (∃ k : Int, a.toRat = k * b.toRat) ↔ (align a b).2 ∣ (align a b).1 := by
  have hpow : (10 : ℚ) ^ min a.exponent b.exponent ≠ 0 := zpow_ne_zero _ (by norm_num)
  rw [a.toRat_eq_on (Int.min_le_left _ b.exponent), b.toRat_eq_on (Int.min_le_right a.exponent _)]
  have hcoefficient : ∀ (d : Decimal) (n : Nat), (d.signed * 10 ^ n).natAbs = d.coefficient * 10 ^ n := fun d n => by
    rw [Int.natAbs_mul, natAbs_signed, Int.natAbs_pow]
    rfl
  rw [align, ← hcoefficient, ← hcoefficient, Int.natAbs_dvd_natAbs]
  constructor
  · rintro ⟨k, hk⟩
    rw [← mul_assoc, mul_left_inj' hpow] at hk
    exact ⟨k, by rw [Int.mul_comm _ k]; exact_mod_cast hk⟩
  · rintro ⟨k, hk⟩
    refine ⟨k, ?_⟩
    rw [hk]
    push_cast
    ring

/-! ## Multiples -/

/-- Rounding to some digits keeps what is not zero. -/
theorem isZero_round {precision : Nat} (hprecision : 0 < precision) (d : Decimal) :
    (round precision d).isZero = d.isZero := by
  unfold round
  dsimp only
  split
  · rfl
  · next hexcess =>
    have hcoefficient : d.coefficient ≠ 0 := by
      intro hzero
      rw [hzero, show digitCount 0 = 1 from rfl] at hexcess
      omega
    have hquotient : d.coefficient / 10 ^ (digitCount d.coefficient - precision) ≠ 0 := by
      refine Nat.ne_of_gt (Nat.div_pos ?_ (Nat.pow_pos (by decide)))
      exact (Nat.pow_le_pow_right (by decide) (by omega)).trans (pow_digitCount_le hcoefficient)
    rw [isZero, isZero, beq_eq_false_iff_ne.mpr hcoefficient, beq_eq_false_iff_ne]
    split
    · exact Nat.succ_ne_zero _
    · exact hquotient

/-- The coefficient on a smaller power of ten lies between powers of ten that its digits say. -/
theorem align_bounds {d : Decimal} (hd : d.coefficient ≠ 0) {low : Int} (h : low ≤ d.exponent) :
    10 ^ (d.adjusted - low).toNat ≤ d.coefficient * 10 ^ (d.exponent - low).toNat ∧
      d.coefficient * 10 ^ (d.exponent - low).toNat < 10 ^ (d.adjusted - low + 1).toNat := by
  have hpos := digitCount_pos d.coefficient
  obtain ⟨shift, hshift⟩ := Int.eq_ofNat_of_zero_le (Int.sub_nonneg.mpr h)
  have hlower : (d.adjusted - low).toNat = digitCount d.coefficient - 1 + shift := by
    unfold adjusted
    omega
  have hupper : (d.adjusted - low + 1).toNat = digitCount d.coefficient + shift := by
    unfold adjusted
    omega
  rw [hlower, hupper, hshift, Int.toNat_natCast, Nat.pow_add, Nat.pow_add]
  exact ⟨Nat.mul_le_mul_right _ (pow_digitCount_le hd),
    Nat.mul_lt_mul_of_pos_right (lt_pow_digitCount _) (Nat.pow_pos (by decide))⟩

/-- **A remainder is taken** if the quotient has few enough digits, and it vanishes for multiples. -/
theorem remainder?_isZero {a b : Decimal} (hb : b.isZero = false) {precision : Nat} (hpositive : 0 < precision)
    (hprecision : a.adjusted - b.adjusted < precision) :
    ∃ r, remainder? precision a b = some r ∧ (r.isZero = true ↔ (align a b).2 ∣ (align a b).1) := by
  have hcoefficient : b.coefficient ≠ 0 := beq_eq_false_iff_ne.mp hb
  obtain ⟨hblower, hbupper⟩ := align_bounds hcoefficient (Int.min_le_right a.exponent b.exponent)
  unfold remainder?
  rw [if_neg (by simp [hb])]
  by_cases hsmall : a.isZero = true ∨ a.adjusted - b.adjusted ≤ -2
  · rw [if_pos hsmall]
    refine ⟨_, rfl, ?_⟩
    rw [isZero_round hpositive, isZero, beq_iff_eq]
    show (align a b).1 = 0 ↔ _
    refine ⟨fun hzero => hzero ▸ Nat.dvd_zero _, fun hdvd => ?_⟩
    by_contra hne
    have ha : a.coefficient ≠ 0 := fun hzero => hne (by simp [align, hzero])
    have hadjusted : a.adjusted - b.adjusted ≤ -2 := hsmall.resolve_left (by simp [isZero, ha])
    -- Then the dividend is smaller than the divisor.
    have hle : (align a b).2 ≤ (align a b).1 := Nat.le_of_dvd (Nat.pos_of_ne_zero hne) hdvd
    have hlt : (align a b).1 < (align a b).2 := by
      refine (align_bounds ha (Int.min_le_left _ b.exponent)).2.trans_le (le_trans ?_ hblower)
      exact Nat.pow_le_pow_right (by decide) (by omega)
    omega
  · rw [if_neg hsmall]
    have hlow : min a.exponent b.exponent ≤ b.adjusted := by
      have := digitCount_pos b.coefficient
      unfold adjusted
      omega
    have hne : a.coefficient ≠ 0 := fun hzero => hsmall (.inl (by simp [isZero, hzero]))
    have hquotient : (align a b).1 / (align a b).2 < 10 ^ precision := by
      refine Nat.div_lt_of_lt_mul ((align_bounds hne (Int.min_le_left _ b.exponent)).2.trans_le ?_)
      refine le_trans ?_ (Nat.mul_le_mul_right _ hblower)
      rw [← Nat.pow_add]
      exact Nat.pow_le_pow_right (by decide) (by omega)
    rw [if_pos ⟨by omega, hquotient⟩]
    refine ⟨_, rfl, ?_⟩
    rw [isZero_round hpositive, isZero, beq_iff_eq]
    exact (Nat.dvd_iff_mod_eq_zero ..).symm

end Decimal

theorem workingPrecision_pos (step dividend : Operand) : 0 < workingPrecision step dividend := by
  unfold workingPrecision
  omega

/-- **The working precision is enough** for the quotient of any two decimals. -/
theorem adjusted_lt_workingPrecision (a b : Decimal) :
    a.adjusted - b.adjusted < workingPrecision (.decimal b) (.decimal a) := by
  simp only [workingPrecision, Operand.adjusted]
  omega

/-- **One number is a multiple of another** exactly when it is an integer times the other, which is not zero. -/
theorem isMultiple_iff (a b : Decimal) :
    isMultiple (.decimal b) (.decimal a) = true ↔ b.isZero = false ∧ ∃ k : Int, a.toRat = k * b.toRat := by
  cases hb : b.isZero with
  | true =>
    have hnone : Decimal.remainder? (workingPrecision (.decimal b) (.decimal a)) a b = none := by
      rw [Decimal.remainder?, if_pos hb]
    simp [isMultiple, hnone]
  | false =>
    obtain ⟨r, hr, hzero⟩ := Decimal.remainder?_isZero hb (workingPrecision_pos _ _) (adjusted_lt_workingPrecision a b)
    rw [isMultiple, hr, Decimal.exists_mul_iff_dvd_align, ← hzero]
    simp

theorem Decimal.isZero_iff (d : Decimal) : d.isZero = true ↔ d.toRat = 0 := by
  rw [toRat_eq, mul_eq_zero, or_iff_left (zpow_ne_zero _ (by norm_num)), Int.cast_eq_zero, ← Int.natAbs_eq_zero,
    natAbs_signed, isZero, beq_iff_eq]

/-- **Only the value of the dividend matters**, not the way in which it is written. -/
theorem isMultiple_congr {a b : Decimal} (h : a.toRat = b.toRat) (step : Operand) :
    isMultiple step (.decimal a) = isMultiple step (.decimal b) := by
  cases step with
  | undefined => rfl
  | infinite =>
    rw [isMultiple, isMultiple, Bool.eq_iff_iff, Decimal.isZero_iff, Decimal.isZero_iff, h]
  | decimal d => rw [Bool.eq_iff_iff, isMultiple_iff, isMultiple_iff, h]

end Schemata
