import Mathlib.Algebra.Order.Field.Power
import Mathlib.Data.Rat.Cast.Order
import Mathlib.Tactic.FieldSimp
import Mathlib.Tactic.Linarith
import Mathlib.Tactic.Ring
import Schemata.Number.Quantity

/-!
# `Schemata.Proofs.Number.Form` — the one form of a double

The mantissa of a double has a leading bit unless its exponent is the least. In this form a value is had by one double,
up to the sign of zero, and every double that rounding makes has this form.

## Contents
- **Form.** `Double.IsCanonical`.
- **Values.** `dyadic`, and `eq_of_toRat?_eq`: the value determines a canonical double.
- **Rounding.** `isCanonical_round`, and so for doubles of decimal numbers.
-/

namespace Schemata

namespace Double

/-! ## Form -/

/-- The form of a finite double: 53 bits, the first of which is set unless the exponent is the least. -/
structure Legal (m : Nat) (e : Int) : Prop where
  bits : m < 2 ^ 53
  least : minExponent ≤ e
  most : e ≤ maxExponent
  leading : minExponent < e → 2 ^ 52 ≤ m

/-- A double in its one form. -/
def IsCanonical : Double → Prop
  | .finite _ m e => Legal m e
  | _ => True

/-- The value of a mantissa and an exponent. -/
def dyadic (m : Nat) (e : Int) : ℚ := m * (2 : ℚ) ^ e

/-- The value of a mantissa on a smaller exponent. -/
theorem dyadic_eq_on {m : Nat} {e low : Int} (h : low ≤ e) : dyadic m e = dyadic (m * 2 ^ (e - low).toNat) low := by
  obtain ⟨n, hn⟩ := Int.eq_ofNat_of_zero_le (Int.sub_nonneg.mpr h)
  have hexponent : e = low + n := by omega
  unfold dyadic
  rw [hexponent, zpow_add₀ (by norm_num), show (low + (n : Int) - low).toNat = n by omega, zpow_natCast]
  push_cast
  ring

theorem dyadic_injective {m m' : Nat} {e : Int} (h : dyadic m e = dyadic m' e) : m = m' := by
  have hpow : (2 : ℚ) ^ e ≠ 0 := zpow_ne_zero _ (by norm_num)
  exact_mod_cast (mul_left_inj' hpow).mp h

/-- **The value determines the form.** -/
theorem Legal.eq_of_dyadic_eq {m m' : Nat} {e e' : Int} (h : Legal m e) (h' : Legal m' e')
    (heq : dyadic m e = dyadic m' e') : m = m' ∧ e = e' := by
  -- A smaller exponent would need a mantissa of 54 bits.
  have key : ∀ {m m' : Nat} {e e' : Int}, Legal m e → Legal m' e' → dyadic m e = dyadic m' e' → ¬ e < e' := by
    intro m m' e e' h h' heq hlt
    rw [dyadic_eq_on (Int.le_of_lt hlt)] at heq
    have hm := dyadic_injective heq
    have hleading := h'.leading (Int.lt_of_le_of_lt h.least hlt)
    have hpow : 2 ^ 1 ≤ 2 ^ (e' - e).toNat := Nat.pow_le_pow_right (by decide) (by omega)
    have hle := Nat.mul_le_mul hleading hpow
    have := h.bits
    omega
  obtain hlt | rfl | hgt := Int.lt_trichotomy e e'
  · exact (key h h' heq hlt).elim
  · exact ⟨dyadic_injective heq, rfl⟩
  · exact (key h' h heq.symm hgt).elim

theorem toRat?_finite (negative : Bool) (m : Nat) (e : Int) :
    (finite negative m e).toRat? = some (if negative then -dyadic m e else dyadic m e) := by
  have hvalue : ∀ n : Int, (if 0 ≤ e then ((n * 2 ^ e.toNat : Int) : ℚ) else mkRat n (2 ^ (-e).toNat)) =
      n * (2 : ℚ) ^ e := by
    intro n
    split
    next hnonneg =>
      obtain ⟨k, rfl⟩ := Int.eq_ofNat_of_zero_le hnonneg
      push_cast
      simp
    next hneg =>
      obtain ⟨k, rfl⟩ := Int.exists_eq_neg_ofNat (Int.le_of_lt (Int.not_le.mp hneg))
      rw [Rat.mkRat_eq_div]
      simp [zpow_neg, div_eq_mul_inv]
  rw [toRat?, hvalue]
  cases negative with
  | true => simp [dyadic]
  | false => simp [dyadic]

theorem dyadic_nonneg (m : Nat) (e : Int) : 0 ≤ dyadic m e :=
  mul_nonneg (Nat.cast_nonneg m) (zpow_nonneg (by norm_num) e)

theorem dyadic_eq_zero {m : Nat} {e : Int} : dyadic m e = 0 ↔ m = 0 := by
  rw [dyadic, mul_eq_zero, or_iff_left (zpow_ne_zero _ (by norm_num)), Nat.cast_eq_zero]

/-- **The value determines a canonical double**, up to the sign of zero. -/
theorem eq_of_toRat?_eq {x y : Double} (hx : x.IsCanonical) (hy : y.IsCanonical) {q : ℚ} (hxq : x.toRat? = some q)
    (hyq : y.toRat? = some q) : x = y ∨ q = 0 := by
  cases x with
  | nan | infinity => cases hxq
  | finite negative m e =>
    cases y with
    | nan | infinity => cases hyq
    | finite negative' m' e' =>
      rw [toRat?_finite, Option.some.injEq] at hxq hyq
      have hnonneg := dyadic_nonneg m e
      have hnonneg' := dyadic_nonneg m' e'
      by_cases hsign : negative = negative'
      · subst hsign
        have heq : dyadic m e = dyadic m' e' := by
          cases negative <;> simp at hxq hyq <;> linarith
        obtain ⟨rfl, rfl⟩ := Legal.eq_of_dyadic_eq hx hy heq
        exact .inl rfl
      · right
        cases negative <;> cases negative' <;> simp at hsign hxq hyq <;> linarith

/-! ## Rounding -/

/-- A quotient on a scale reaches a natural exactly when the numerator does. -/
theorem le_scaleDown_iff {num den k : Nat} (hden : 0 < den) (e : Int) :
    k ≤ (scaleDown num den e).1 / (scaleDown num den e).2 ↔ (k : ℚ) * den * (2 : ℚ) ^ e ≤ num := by
  unfold scaleDown
  split
  next hnonneg =>
    obtain ⟨n, rfl⟩ := Int.eq_ofNat_of_zero_le hnonneg
    rw [Nat.le_div_iff_mul_le (Nat.mul_pos hden (Nat.pow_pos (by decide))), zpow_natCast, mul_assoc]
    exact_mod_cast Iff.rfl
  next hneg =>
    obtain ⟨n, rfl⟩ := Int.exists_eq_neg_ofNat (Int.le_of_lt (Int.not_le.mp hneg))
    rw [Nat.le_div_iff_mul_le hden, zpow_neg, zpow_natCast, ← div_eq_mul_inv, div_le_iff₀ (by positivity)]
    simp only [Int.neg_neg, Int.toNat_natCast]
    exact_mod_cast Iff.rfl

/-- A rounded quotient is the quotient or the next natural. -/
theorem roundQuotient_bounds (num den : Nat) : num / den ≤ roundQuotient num den ∧ roundQuotient num den ≤ num / den + 1 := by
  unfold roundQuotient
  dsimp only
  split <;> omega

/-- **The exponent of rounding** leaves 53 bits before the point, the first of which is set unless it is the least. -/
theorem roundingExponent_spec {num den : Nat} (hnum : num ≠ 0) (hden : den ≠ 0) :
    minExponent ≤ roundingExponent num den ∧
      (scaleDown num den (roundingExponent num den)).1 / (scaleDown num den (roundingExponent num den)).2 < 2 ^ 53 ∧
      (minExponent < roundingExponent num den →
        2 ^ 52 ≤ (scaleDown num den (roundingExponent num den)).1 / (scaleDown num den (roundingExponent num den)).2) := by
  have hpos := Nat.pos_of_ne_zero hden
  obtain ⟨start, hstart⟩ : ∃ start, start = max minExponent ((Nat.log2 num : Int) - Nat.log2 den - 53) := ⟨_, rfl⟩
  obtain ⟨guess, hguess⟩ : ∃ guess, guess = (Nat.log2 num : Int) - Nat.log2 den - 53 := ⟨_, rfl⟩
  have hrange : guess ≤ start := by omega
  have hpow : ∀ j k n : Nat, (j : Int) + k + guess = n → (2 : ℚ) ^ j * (2 : ℚ) ^ k * (2 : ℚ) ^ guess = (2 : ℚ) ^ n := by
    intro j k n hn
    rw [← zpow_natCast, ← zpow_natCast, ← zpow_natCast, ← zpow_add₀ (by norm_num), ← zpow_add₀ (by norm_num), hn]
  have hnumLow : (2 : ℚ) ^ Nat.log2 num ≤ num := by exact_mod_cast Nat.log2_self_le hnum
  have hnumHigh : (num : ℚ) < (2 : ℚ) ^ (Nat.log2 num + 1) := by exact_mod_cast Nat.lt_log2_self
  have hdenLow : (2 : ℚ) ^ Nat.log2 den ≤ den := by exact_mod_cast Nat.log2_self_le hden
  have hdenHigh : (den : ℚ) < (2 : ℚ) ^ (Nat.log2 den + 1) := by exact_mod_cast Nat.lt_log2_self
  -- At the first guess the quotient has 53 or 54 bits, or fewer at the least exponent.
  have hupper : ¬ ((2 ^ 54 : Nat) : ℚ) * den * (2 : ℚ) ^ start ≤ num := by
    rw [not_le]
    calc (num : ℚ) < (2 : ℚ) ^ (Nat.log2 num + 1) := hnumHigh
      _ = (2 : ℚ) ^ 54 * (2 : ℚ) ^ Nat.log2 den * (2 : ℚ) ^ guess := (hpow _ _ _ (by omega)).symm
      _ ≤ ((2 ^ 54 : Nat) : ℚ) * den * (2 : ℚ) ^ start := by
        rw [Nat.cast_pow]
        gcongr
        · norm_num
        · exact one_le_two
  have hlower : minExponent < start → ((2 ^ 52 : Nat) : ℚ) * den * (2 : ℚ) ^ start ≤ num := by
    intro hleast
    have heq : start = guess := by omega
    rw [heq]
    calc ((2 ^ 52 : Nat) : ℚ) * den * (2 : ℚ) ^ guess
        ≤ (2 : ℚ) ^ 52 * (2 : ℚ) ^ (Nat.log2 den + 1) * (2 : ℚ) ^ guess := by
          rw [Nat.cast_pow]
          gcongr
          norm_num
      _ = (2 : ℚ) ^ Nat.log2 num := hpow _ _ _ (by omega)
      _ ≤ num := hnumLow
  -- One exponent further the quotient has one bit less.
  have hnext : ∀ k : Nat, ((2 ^ k : Nat) : ℚ) * den * (2 : ℚ) ^ (start + 1) ≤ num ↔
      ((2 ^ (k + 1) : Nat) : ℚ) * den * (2 : ℚ) ^ start ≤ num := by
    intro k
    rw [zpow_add_one₀ (by norm_num), Nat.pow_succ]
    push_cast
    ring_nf
  unfold roundingExponent
  rw [← hstart]
  dsimp only
  split
  next hbig =>
    rw [ge_iff_le, le_scaleDown_iff hpos] at hbig
    rw [← Nat.not_le, le_scaleDown_iff hpos, le_scaleDown_iff hpos, hnext 53, hnext 52]
    exact ⟨by omega, hupper, fun _ => hbig⟩
  next hsmall =>
    rw [le_scaleDown_iff hpos]
    exact ⟨by omega, Nat.lt_of_not_le hsmall, hlower⟩

/-- **Rounding makes doubles in their one form.** -/
theorem isCanonical_round (negative : Bool) (num : Nat) {den : Nat} (hden : den ≠ 0) :
    (round negative num den).IsCanonical := by
  unfold round
  split
  · exact ⟨by decide, le_rfl, by decide, fun h => absurd h (lt_irrefl _)⟩
  next hnum =>
    obtain ⟨hleast, hbits, hleading⟩ := roundingExponent_spec hnum hden
    dsimp only
    obtain ⟨hlow, hhigh⟩ := roundQuotient_bounds (scaleDown num den (roundingExponent num den)).1
      (scaleDown num den (roundingExponent num den)).2
    generalize roundQuotient _ _ = m at hlow hhigh
    generalize (scaleDown num den (roundingExponent num den)).1 / _ = q at hbits hleading hlow hhigh
    by_cases hcarry : m = 2 ^ 53
    · rw [if_pos hcarry]
      dsimp only
      split
      · trivial
      · exact ⟨by decide, by omega, by omega, fun _ => le_rfl⟩
    · rw [if_neg hcarry]
      dsimp only
      split
      · trivial
      · exact ⟨by omega, hleast, by omega, fun h => (hleading h).trans hlow⟩

theorem isCanonical_ofDecimal (d : Decimal) : (ofDecimal d).IsCanonical := by
  have hzero : (finite d.negative 0 minExponent).IsCanonical := ⟨by decide, le_rfl, by decide, fun h => absurd h (lt_irrefl _)⟩
  unfold ofDecimal
  split
  · exact hzero
  split
  · trivial
  split
  · exact hzero
  split
  · exact isCanonical_round _ _ Nat.one_ne_zero
  · exact isCanonical_round _ _ (Nat.ne_of_gt (Nat.pow_pos (by decide)))

end Double

end Schemata
