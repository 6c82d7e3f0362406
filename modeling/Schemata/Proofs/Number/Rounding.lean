import Schemata.Proofs.Number.Divisibility
import Schemata.Proofs.Number.Form

/-!
# `Schemata.Proofs.Number.Rounding` — rounding is correct

A quotient is rounded to a double that it is nearest to, a half to the even mantissa. The numbers that round to one
double fill an interval around it, the intervals of different doubles have no number in common, and so a decimal reads
as a double exactly when it lies in the interval of the double.

## Contents
- **Intervals.** `Between`, an interval with or without its ends.
- **Fractions.** The values of fractions, grid points and rounding intervals.
- **Quotients.** `roundQuotient_eq_iff`.
- **What rounds to a double.** `Normal` and `Rounds`; `Rounds.unique`, one double for every number.
- **Reading.** `IsRounded`, which `isRounded_round` and `isRounded_ofDecimal` prove of what is rounded and read.
-/

namespace Schemata

/-! ## Intervals -/

/-- A number between two ends, which belong to the interval when it is closed. -/
def Between (closed : Bool) (low high q : ℚ) : Prop :=
  if closed then low ≤ q ∧ q ≤ high else low < q ∧ q < high

namespace Between

variable {closed closed' : Bool} {low high low' high' q r : ℚ}

@[simp] theorem closed_iff : Between true low high q ↔ low ≤ q ∧ q ≤ high := Iff.rfl

@[simp] theorem open_iff : Between false low high q ↔ low < q ∧ q < high := by simp [Between]

theorem le (h : Between closed low high q) : low ≤ q ∧ q ≤ high := by
  cases closed with
  | true => exact closed_iff.mp h
  | false => exact (open_iff.mp h).imp LT.lt.le LT.lt.le

theorem of_lt (hlow : low < q) (hhigh : q < high) : Between closed low high q := by
  cases closed with
  | true => exact closed_iff.mpr ⟨hlow.le, hhigh.le⟩
  | false => exact open_iff.mpr ⟨hlow, hhigh⟩

theorem mul_iff {s : ℚ} (hs : 0 < s) : Between closed (low * s) (high * s) (q * s) ↔ Between closed low high q := by
  cases closed with
  | true => rw [closed_iff, closed_iff, mul_le_mul_iff_of_pos_right hs, mul_le_mul_iff_of_pos_right hs]
  | false => rw [open_iff, open_iff, mul_lt_mul_iff_of_pos_right hs, mul_lt_mul_iff_of_pos_right hs]

/-- A smaller lower end. -/
theorem widen (h : Between closed low high q) (hlow : low' ≤ low) : Between closed low' high q := by
  cases closed with
  | true => exact closed_iff.mpr ((closed_iff.mp h).imp_left hlow.trans)
  | false => exact open_iff.mpr ((open_iff.mp h).imp_left hlow.trans_lt)

/-- What lies on the way from a number of the interval to one that is not an end belongs to it as well. -/
theorem towards {x : ℚ} (h : Between closed low high q) (hlow : low < x) (hhigh : x < high)
    (hr : q ≤ r ∧ r ≤ x ∨ x ≤ r ∧ r ≤ q) : Between closed low high r := by
  cases closed with
  | true =>
    obtain ⟨hleast, hmost⟩ := closed_iff.mp h
    rw [closed_iff]
    rcases hr with ⟨hq, hx⟩ | ⟨hx, hq⟩
    · exact ⟨hleast.trans hq, hx.trans hhigh.le⟩
    · exact ⟨hlow.le.trans hx, hq.trans hmost⟩
  | false =>
    obtain ⟨hleast, hmost⟩ := open_iff.mp h
    rw [open_iff]
    rcases hr with ⟨hq, hx⟩ | ⟨hx, hq⟩
    · exact ⟨hleast.trans_le hq, hx.trans_lt hhigh⟩
    · exact ⟨hlow.trans_le hx, hq.trans_lt hmost⟩

theorem closed_of_end (h : Between closed low high q) (hq : q = low ∨ q = high) : closed = true := by
  by_contra hopen
  rw [Bool.not_eq_true] at hopen
  rw [hopen, open_iff] at h
  rcases hq with rfl | rfl
  · exact lt_irrefl _ h.1
  · exact lt_irrefl _ h.2

/-- **Intervals that touch** have a number in common only if both are closed. -/
theorem touch (h : Between closed low high q) (h' : Between closed' low' high' q) (hle : high ≤ low') :
    high = low' ∧ closed = true ∧ closed' = true := by
  obtain rfl : high = q := le_antisymm (hle.trans h'.le.1) h.le.2
  obtain rfl : low' = high := le_antisymm h'.le.1 hle
  exact ⟨rfl, h.closed_of_end (.inr rfl), h'.closed_of_end (.inl rfl)⟩

end Between

namespace Double

/-! ## Fractions -/

/-- The value of a fraction. -/
def Fraction.toRat (x : Fraction) : ℚ := x.num / x.den

theorem ofDyadic_den_pos (m : Nat) (e : Int) : 0 < (Fraction.ofDyadic m e).den := by
  unfold Fraction.ofDyadic
  split
  · exact Nat.one_pos
  · exact Nat.pow_pos (by decide)

theorem toRat_ofDyadic (m : Nat) (e : Int) : (Fraction.ofDyadic m e).toRat = dyadic m e := by
  unfold Fraction.ofDyadic Fraction.toRat dyadic
  split
  next hnonneg =>
    obtain ⟨k, rfl⟩ := Int.eq_ofNat_of_zero_le hnonneg
    simp
  next hneg =>
    obtain ⟨k, rfl⟩ := Int.exists_eq_neg_ofNat (Int.le_of_lt (Int.not_le.mp hneg))
    simp [zpow_neg, div_eq_mul_inv]

theorem gridPoint_den_pos (n : Nat) (p : Int) : 0 < (gridPoint n p).den := by
  unfold gridPoint
  split
  · exact Nat.one_pos
  · exact Nat.pow_pos (by decide)

theorem toRat_gridPoint (n : Nat) (p : Int) : (gridPoint n p).toRat = n * (10 : ℚ) ^ p := by
  unfold gridPoint Fraction.toRat
  split
  next hnonneg =>
    obtain ⟨k, rfl⟩ := Int.eq_ofNat_of_zero_le hnonneg
    simp
  next hneg =>
    obtain ⟨k, rfl⟩ := Int.exists_eq_neg_ofNat (Int.le_of_lt (Int.not_le.mp hneg))
    simp [zpow_neg, div_eq_mul_inv]

theorem gridPoint_num_pos (p : Int) : 0 < (gridPoint 1 p).num := by
  unfold gridPoint
  split
  · exact Nat.mul_pos Nat.one_pos (Nat.pow_pos (by decide))
  · exact Nat.one_pos

namespace Fraction

variable {x y low high : Fraction}

theorem toRat_le_iff (hx : 0 < x.den) (hy : 0 < y.den) : x.toRat ≤ y.toRat ↔ x.num * y.den ≤ y.num * x.den := by
  rw [toRat, toRat, div_le_div_iff₀ (by exact_mod_cast hx) (by exact_mod_cast hy)]
  exact_mod_cast Iff.rfl

theorem toRat_lt_iff (hx : 0 < x.den) (hy : 0 < y.den) : x.toRat < y.toRat ↔ x.num * y.den < y.num * x.den := by
  rw [toRat, toRat, div_lt_div_iff₀ (by exact_mod_cast hx) (by exact_mod_cast hy)]
  exact_mod_cast Iff.rfl

theorem within_iff (hx : 0 < x.den) (hlow : 0 < low.den) (hhigh : 0 < high.den) (closed : Bool) :
    x.within (low, high) closed = true ↔ Between closed low.toRat high.toRat x.toRat := by
  unfold within Between
  rw [toRat_le_iff hlow hx, toRat_le_iff hx hhigh, toRat_lt_iff hlow hx, toRat_lt_iff hx hhigh]
  cases closed <;> simp

end Fraction

theorem two_zpow_half (e : Int) : (2 : ℚ) ^ e = 2 * (2 : ℚ) ^ (e - 1) := by
  rw [← zpow_one_add₀ (by norm_num)]
  congr 1
  ring

theorem two_zpow_quarter (e : Int) : (2 : ℚ) ^ (e - 1) = 2 * (2 : ℚ) ^ (e - 2) := by
  rw [← zpow_one_add₀ (by norm_num)]
  congr 1
  ring

theorem roundingInterval_den_pos (m : Nat) (e : Int) :
    0 < (roundingInterval m e).1.den ∧ 0 < (roundingInterval m e).2.den := by
  refine ⟨?_, ofDyadic_den_pos _ _⟩
  unfold roundingInterval
  dsimp only
  split
  · exact ofDyadic_den_pos _ _
  · exact ofDyadic_den_pos _ _

/-- The ends of the numbers that round to a double. -/
theorem toRat_roundingInterval {m : Nat} (hm : m ≠ 0) (e : Int) :
    (roundingInterval m e).1.toRat =
        dyadic m e - (if m = 2 ^ 52 ∧ minExponent < e then (2 : ℚ) ^ (e - 2) else (2 : ℚ) ^ (e - 1)) ∧
      (roundingInterval m e).2.toRat = dyadic m e + (2 : ℚ) ^ (e - 1) := by
  unfold roundingInterval
  dsimp only
  constructor
  · split
    · rw [toRat_ofDyadic, dyadic, dyadic, two_zpow_half e, two_zpow_quarter e, Nat.cast_sub (by omega)]
      push_cast
      ring
    · rw [toRat_ofDyadic, dyadic, dyadic, two_zpow_half e, Nat.cast_sub (by omega)]
      push_cast
      ring
  · rw [toRat_ofDyadic, dyadic, dyadic, two_zpow_half e]
    push_cast
    ring

/-! ## Quotients -/

/-- **A rounded quotient** is nearest to the quotient, and even if the next natural is as near. -/
theorem roundQuotient_eq_iff (num : Nat) {den k : Nat} (hden : 0 < den) :
    roundQuotient num den = k ↔ Between (k % 2 == 0) ((k : ℚ) - 1 / 2) ((k : ℚ) + 1 / 2) ((num : ℚ) / den) := by
  have hpos : (0 : ℚ) < den := by exact_mod_cast hden
  have hlow : (k : ℚ) - 1 / 2 ≤ (num : ℚ) / den ↔ 2 * (k * den) ≤ 2 * num + den := by
    rw [le_div_iff₀ hpos, ← @Nat.cast_le ℚ]
    push_cast
    constructor <;> intro h <;> linarith
  have hhigh : (num : ℚ) / den ≤ (k : ℚ) + 1 / 2 ↔ 2 * num ≤ 2 * (k * den) + den := by
    rw [div_le_iff₀ hpos, ← @Nat.cast_le ℚ]
    push_cast
    constructor <;> intro h <;> linarith
  have hlow' : (k : ℚ) - 1 / 2 < (num : ℚ) / den ↔ 2 * (k * den) < 2 * num + den := by
    rw [lt_div_iff₀ hpos, ← @Nat.cast_lt ℚ]
    push_cast
    constructor <;> intro h <;> linarith
  have hhigh' : (num : ℚ) / den < (k : ℚ) + 1 / 2 ↔ 2 * num < 2 * (k * den) + den := by
    rw [div_lt_iff₀ hpos, ← @Nat.cast_lt ℚ]
    push_cast
    constructor <;> intro h <;> linarith
  unfold Between roundQuotient
  rw [hlow, hhigh, hlow', hhigh']
  have hmod := Nat.mod_lt num hden
  have hdiv := Nat.div_add_mod num den
  dsimp only
  generalize num / den = q at hdiv ⊢
  generalize num % den = r at hmod hdiv ⊢
  -- a natural other than the two next to the quotient is farther away than a half
  obtain hk | rfl | rfl | hk : k < q ∨ k = q ∨ k = q + 1 ∨ q + 1 < k := by omega
  · have hmul : (k + 1) * den ≤ q * den := Nat.mul_le_mul_right den hk
    rw [Nat.add_mul, Nat.mul_comm q] at hmul
    refine iff_of_false (by split <;> omega) ?_
    split <;> omega
  · rw [Nat.mul_comm k]
    simp only [beq_iff_eq]
    split <;> split <;> omega
  · rw [Nat.add_mul, Nat.mul_comm q]
    simp only [beq_iff_eq]
    split <;> split <;> omega
  · have hmul : (q + 1 + 1) * den ≤ k * den := Nat.mul_le_mul_right den hk
    rw [Nat.add_mul, Nat.add_mul, Nat.mul_comm q] at hmul
    refine iff_of_false (by split <;> omega) ?_
    split <;> omega

/-! ## What rounds to a double -/

/-- The form of a mantissa and an exponent, however great the exponent. -/
structure Normal (m : Nat) (e : Int) : Prop where
  bits : m < 2 ^ 53
  least : minExponent ≤ e
  leading : minExponent < e → 2 ^ 52 ≤ m

theorem Legal.normal {m : Nat} {e : Int} (h : Legal m e) : Normal m e := ⟨h.bits, h.least, h.leading⟩

/-- The numbers that round to `m · 2 ^ e`: up to halfway to the next doubles, which below a power of two are twice as
close. Halfway is rounded to the even mantissa. -/
def Rounds (m : Nat) (e : Int) (q : ℚ) : Prop :=
  Between (m % 2 == 0) (dyadic m e - if m = 2 ^ 52 ∧ minExponent < e then (2 : ℚ) ^ (e - 2) else (2 : ℚ) ^ (e - 1))
    (dyadic m e + (2 : ℚ) ^ (e - 1)) q

section

variable {m m' : Nat} {e e' : Int} {q r : ℚ}

theorem within_roundingInterval (hm : m ≠ 0) {x : Fraction} (hx : 0 < x.den) :
    x.within (roundingInterval m e) (m % 2 == 0) = true ↔ Rounds m e x.toRat := by
  obtain ⟨hlowDen, hhighDen⟩ := roundingInterval_den_pos m e
  obtain ⟨hlow, hhigh⟩ := toRat_roundingInterval hm e
  rw [Rounds, ← hlow, ← hhigh]
  exact Fraction.within_iff hx hlowDen hhighDen _

/-- The numbers that round to a double lie around it. -/
theorem rounds_around (m : Nat) (e : Int) :
    dyadic m e - (if m = 2 ^ 52 ∧ minExponent < e then (2 : ℚ) ^ (e - 2) else (2 : ℚ) ^ (e - 1)) < dyadic m e ∧
      dyadic m e < dyadic m e + (2 : ℚ) ^ (e - 1) := by
  have hhalf : (0 : ℚ) < (2 : ℚ) ^ (e - 1) := zpow_pos (by norm_num) _
  have hquarter : (0 : ℚ) < (2 : ℚ) ^ (e - 2) := zpow_pos (by norm_num) _
  constructor
  · split <;> linarith
  · linarith

theorem rounds_self (m : Nat) (e : Int) : Rounds m e (dyadic m e) :=
  Between.of_lt (rounds_around m e).1 (rounds_around m e).2

/-- What is as near to a double on the same side rounds to it as well. -/
theorem Rounds.towards (h : Rounds m e q) (hr : q ≤ r ∧ r ≤ dyadic m e ∨ dyadic m e ≤ r ∧ r ≤ q) : Rounds m e r :=
  Between.towards h (rounds_around m e).1 (rounds_around m e).2 hr

/-- What rounds to a double is at most half a unit away. -/
theorem Rounds.half (h : Rounds m e q) :
    Between (m % 2 == 0) (dyadic m e - (2 : ℚ) ^ (e - 1)) (dyadic m e + (2 : ℚ) ^ (e - 1)) q := by
  have hquarter : (0 : ℚ) < (2 : ℚ) ^ (e - 2) := zpow_pos (by norm_num) _
  have hhalf := two_zpow_quarter e
  refine Between.widen h ?_
  split <;> linarith

/-- Below a power of two, what rounds to it is at most a quarter away. -/
theorem Rounds.quarter (h : Rounds (2 ^ 52) e q) (he : minExponent < e) :
    dyadic (2 ^ 52) e - (2 : ℚ) ^ (e - 2) ≤ q := by
  have hleast := (Between.le h).1
  rwa [if_pos ⟨rfl, he⟩] at hleast

/-- What is at most half a unit away rounds to a double, below a power of two what is at most a quarter away. -/
theorem rounds_of_half (h : Between (m % 2 == 0) (dyadic m e - (2 : ℚ) ^ (e - 1)) (dyadic m e + (2 : ℚ) ^ (e - 1)) q)
    (hcloser : m = 2 ^ 52 → minExponent < e → dyadic m e - (2 : ℚ) ^ (e - 2) ≤ q) : Rounds m e q := by
  unfold Rounds
  split
  next hpower =>
    obtain ⟨rfl, he⟩ := hpower
    exact Between.closed_iff.mpr ⟨hcloser rfl he, h.le.2⟩
  next => exact h

/-- The interval of a double ends before the interval of every double of a greater exponent starts. -/
theorem Normal.not_rounds_of_lt (h : Normal m e) (h' : Normal m' e') (hlt : e < e') (hq : Rounds m e q) :
    ¬ Rounds m' e' q := by
  intro hq'
  have hleast : minExponent < e' := h.least.trans_lt hlt
  have hleading : (2 ^ 52 : ℚ) ≤ m' := by exact_mod_cast h'.leading hleast
  have hunit : (0 : ℚ) < (2 : ℚ) ^ (e - 1) := zpow_pos (by norm_num) _
  have hfiner : (2 : ℚ) ^ (e - 1) ≤ (2 : ℚ) ^ (e' - 2) := zpow_le_zpow_right₀ (by norm_num) (by omega)
  have hbits : (m : ℚ) ≤ 2 ^ 53 - 1 := by
    rw [le_sub_iff_add_le]
    exact_mod_cast h.bits
  -- halfway between the greatest mantissa and the next power of two, in halves of the smaller unit
  have hhigh : dyadic m e + (2 : ℚ) ^ (e - 1) ≤ (2 ^ 54 - 1) * (2 : ℚ) ^ (e - 1) := by
    rw [dyadic, two_zpow_half e]
    nlinarith
  have hlow : (2 ^ 54 - 1) * (2 : ℚ) ^ (e' - 2) ≤
      dyadic m' e' - if m' = 2 ^ 52 ∧ minExponent < e' then (2 : ℚ) ^ (e' - 2) else (2 : ℚ) ^ (e' - 1) := by
    have hunit' : (0 : ℚ) < (2 : ℚ) ^ (e' - 2) := zpow_pos (by norm_num) _
    rw [dyadic, two_zpow_half e', two_zpow_quarter e']
    split
    · nlinarith
    next hpower =>
      have hgreater : (2 ^ 52 + 1 : ℚ) ≤ m' := by
        have hne : m' ≠ 2 ^ 52 := fun heq => hpower ⟨heq, hleast⟩
        have hlead := h'.leading hleast
        exact_mod_cast (by omega : 2 ^ 52 + 1 ≤ m')
      nlinarith
  have hmiddle : (2 ^ 54 - 1) * (2 : ℚ) ^ (e - 1) ≤ (2 ^ 54 - 1) * (2 : ℚ) ^ (e' - 2) :=
    mul_le_mul_of_nonneg_left hfiner (by norm_num)
  obtain ⟨heq, heven, -⟩ := Between.touch hq hq' (hhigh.trans (hmiddle.trans hlow))
  -- the ends agree for the greatest mantissa only, which is odd
  have hgreatest : (m : ℚ) = 2 ^ 53 - 1 := by
    have hsame : dyadic m e + (2 : ℚ) ^ (e - 1) = (2 ^ 54 - 1) * (2 : ℚ) ^ (e - 1) :=
      le_antisymm hhigh (heq ▸ hmiddle.trans hlow)
    rw [dyadic, two_zpow_half e] at hsame
    have hcancel : (m : ℚ) * 2 + 1 = 2 ^ 54 - 1 := mul_right_cancel₀ hunit.ne' (by linarith)
    linarith
  have hm : m + 1 = 2 ^ 53 := by exact_mod_cast (by linarith : (m : ℚ) + 1 = 2 ^ 53)
  rw [beq_iff_eq] at heven
  omega

/-- **A number rounds to one double only.** -/
theorem Rounds.unique (hq : Rounds m e q) (hq' : Rounds m' e' q) (h : Normal m e) (h' : Normal m' e') :
    m = m' ∧ e = e' := by
  -- a smaller mantissa on the same exponent could only touch
  have hsame : ∀ {m m' : Nat}, Rounds m e q → Rounds m' e q → ¬ m < m' := by
    intro m m' hq hq' hlt
    have hunit : (0 : ℚ) < (2 : ℚ) ^ (e - 1) := zpow_pos (by norm_num) _
    have hnext : (m : ℚ) + 1 ≤ m' := by exact_mod_cast hlt
    have hle : dyadic m e + (2 : ℚ) ^ (e - 1) ≤ dyadic m' e - (2 : ℚ) ^ (e - 1) := by
      rw [dyadic, dyadic, two_zpow_half e]
      nlinarith
    obtain ⟨heq, heven, heven'⟩ := Between.touch hq.half hq'.half hle
    rw [dyadic, dyadic, two_zpow_half e] at heq
    have hcancel : (m : ℚ) + 1 = m' := mul_right_cancel₀ (mul_pos two_pos hunit).ne' (by linarith)
    have hm : m + 1 = m' := by exact_mod_cast hcancel
    rw [beq_iff_eq] at heven heven'
    omega
  obtain hlt | rfl | hgt := Int.lt_trichotomy e e'
  · exact (h.not_rounds_of_lt h' hlt hq hq').elim
  · exact ⟨Nat.le_antisymm (Nat.le_of_not_lt (hsame hq' hq)) (Nat.le_of_not_lt (hsame hq hq')), rfl⟩
  · exact (h'.not_rounds_of_lt h hgt hq' hq).elim

end

/-! ## Reading -/

/-- A double that a number with a sign rounds to: the one in whose interval its magnitude lies, or an infinity. -/
def IsRounded (negative : Bool) (q : ℚ) (x : Double) : Prop :=
  ∃ m e, Normal m e ∧ Rounds m e q ∧ x = if e > maxExponent then .infinity negative else .finite negative m e

/-- **What rounds to a finite double** is what lies in its interval. -/
theorem IsRounded.eq_finite_iff {negative negative' : Bool} {q : ℚ} {x : Double} (h : IsRounded negative q x) {m : Nat}
    {e : Int} (hlegal : Legal m e) : x = .finite negative' m e ↔ negative = negative' ∧ Rounds m e q := by
  obtain ⟨m₀, e₀, hnormal, hrounds, rfl⟩ := h
  constructor
  · intro heq
    split at heq
    · cases heq
    · cases heq
      exact ⟨rfl, hrounds⟩
  · rintro ⟨rfl, hq⟩
    obtain ⟨rfl, rfl⟩ := hrounds.unique hq hnormal hlegal.normal
    rw [if_neg (by have := hlegal.most; omega)]

/-- Zero rounds to zero, and so does what is at most half of the least double. -/
theorem isRounded_zero (negative : Bool) {q : ℚ} (hq : 0 ≤ q) (hle : q ≤ (2 : ℚ) ^ (minExponent - 1)) :
    IsRounded negative q (.finite negative 0 minExponent) := by
  refine ⟨0, minExponent, ⟨by decide, le_rfl, fun h => absurd h (lt_irrefl _)⟩, ?_, (if_neg (by decide)).symm⟩
  refine rounds_of_half (Between.closed_iff.mpr ⟨?_, ?_⟩) fun h => absurd h (by decide)
  · have hhalf : (0 : ℚ) < (2 : ℚ) ^ (minExponent - 1) := zpow_pos (by norm_num) _
    rw [dyadic_eq_zero.mpr rfl]
    linarith
  · rw [dyadic_eq_zero.mpr rfl]
    linarith

theorem toRat_scaleDown (num : Nat) {den : Nat} (hden : 0 < den) (e : Int) : 0 < (scaleDown num den e).2 ∧
    ((scaleDown num den e).1 : ℚ) / (scaleDown num den e).2 = (num : ℚ) / den / (2 : ℚ) ^ e := by
  unfold scaleDown
  split
  next hnonneg =>
    obtain ⟨n, rfl⟩ := Int.eq_ofNat_of_zero_le hnonneg
    refine ⟨Nat.mul_pos hden (Nat.pow_pos (by decide)), ?_⟩
    rw [zpow_natCast, div_div]
    push_cast
    rfl
  next hneg =>
    obtain ⟨n, rfl⟩ := Int.exists_eq_neg_ofNat (Int.le_of_lt (Int.not_le.mp hneg))
    refine ⟨hden, ?_⟩
    rw [zpow_neg, zpow_natCast, Int.neg_neg, Int.toNat_natCast, div_inv_eq_mul]
    push_cast
    ring

/-- The mantissa that a quotient is rounded to is at most half a unit away. -/
theorem roundQuotient_half (num : Nat) {den m : Nat} (hden : 0 < den) {e : Int}
    (hm : roundQuotient (scaleDown num den e).1 (scaleDown num den e).2 = m) :
    Between (m % 2 == 0) (dyadic m e - (2 : ℚ) ^ (e - 1)) (dyadic m e + (2 : ℚ) ^ (e - 1)) ((num : ℚ) / den) := by
  obtain ⟨hpos, hscaled⟩ := toRat_scaleDown num hden e
  have hunit : (0 : ℚ) < (2 : ℚ) ^ e := zpow_pos (by norm_num) _
  have hnearest := (roundQuotient_eq_iff _ hpos).mp hm
  rw [hscaled, ← Between.mul_iff hunit, div_mul_cancel₀ _ hunit.ne'] at hnearest
  have hhalf : (1 / 2 : ℚ) * (2 : ℚ) ^ e = (2 : ℚ) ^ (e - 1) := by rw [two_zpow_half e]; ring
  rwa [sub_mul, add_mul, hhalf] at hnearest

/-- **Rounding is correct**: the mantissa and the exponent that it finds are those of the double to which the quotient
rounds. -/
theorem isRounded_round (negative : Bool) (num : Nat) {den : Nat} (hden : 0 < den) :
    IsRounded negative ((num : ℚ) / den) (round negative num den) := by
  unfold round
  split
  next hzero =>
    subst hzero
    rw [Nat.cast_zero, zero_div]
    exact isRounded_zero negative le_rfl (zpow_nonneg (by norm_num) _)
  next hnum =>
    obtain ⟨hleast, hbits, hleading⟩ := roundingExponent_spec hnum hden.ne'
    generalize roundingExponent num den = e at hleast hbits hleading ⊢
    have hfloor : minExponent < e → dyadic (2 ^ 52) e ≤ (num : ℚ) / den := by
      intro h
      rw [le_div_iff₀ (by exact_mod_cast hden), dyadic, mul_right_comm]
      exact (le_scaleDown_iff hden e).mp (hleading h)
    obtain ⟨hlow, hhigh⟩ := roundQuotient_bounds (scaleDown num den e).1 (scaleDown num den e).2
    obtain ⟨m, hm⟩ : ∃ m, roundQuotient (scaleDown num den e).1 (scaleDown num den e).2 = m := ⟨_, rfl⟩
    have hhalf := roundQuotient_half num hden hm
    dsimp only
    rw [hm] at hlow hhigh ⊢
    by_cases hcarry : m = 2 ^ 53
    · -- one bit too many, and the same value on the next exponent
      subst hcarry
      have hvalue : dyadic (2 ^ 53) e = dyadic (2 ^ 52) (e + 1) := by
        rw [dyadic, dyadic, zpow_add_one₀ (by norm_num)]
        push_cast
        ring
      have hexponent : e + 1 - 2 = e - 1 := by ring
      obtain ⟨hleft, hright⟩ := hhalf.le
      have hunit := two_zpow_quarter (e + 1)
      have hpos : (0 : ℚ) < (2 : ℚ) ^ (e - 1) := zpow_pos (by norm_num) _
      rw [hvalue] at hleft hright
      rw [hexponent] at hunit
      refine ⟨2 ^ 52, e + 1, ⟨by decide, by omega, fun _ => le_rfl⟩, rounds_of_half ?_ fun _ _ => ?_, if_pos rfl ▸ rfl⟩
      · refine Between.closed_iff.mpr ⟨?_, ?_⟩ <;> linarith
      · rw [hexponent]
        exact hleft
    · refine ⟨m, e, ⟨by omega, hleast, fun h => (hleading h).trans hlow⟩, rounds_of_half hhalf ?_, if_neg hcarry ▸ rfl⟩
      rintro rfl h
      have hpos : (0 : ℚ) < (2 : ℚ) ^ (e - 2) := zpow_pos (by norm_num) _
      linarith [hfloor h]

/-- The magnitude of a decimal. -/
theorem abs_toRat (d : Decimal) : |d.toRat| = d.coefficient * (10 : ℚ) ^ d.exponent := by
  rw [Decimal.toRat_eq, abs_mul, abs_of_pos (zpow_pos (by norm_num : (0 : ℚ) < 10) _), ← Int.cast_abs,
    ← Int.natCast_natAbs, Decimal.natAbs_signed, Int.cast_natCast]

/-- A decimal other than zero has its leading digit where `adjusted` says. -/
theorem adjusted_bounds {d : Decimal} (hd : d.coefficient ≠ 0) :
    (10 : ℚ) ^ d.adjusted ≤ |d.toRat| ∧ |d.toRat| < (10 : ℚ) ^ (d.adjusted + 1) := by
  have hpow : (0 : ℚ) < (10 : ℚ) ^ d.exponent := zpow_pos (by norm_num) _
  have hpos := digitCount_pos d.coefficient
  have hlower : (10 : ℚ) ^ d.adjusted = ((10 ^ (digitCount d.coefficient - 1) : Nat) : ℚ) * (10 : ℚ) ^ d.exponent := by
    rw [Decimal.adjusted, Nat.cast_pow, Nat.cast_ofNat, ← zpow_natCast, ← zpow_add₀ (by norm_num)]
    congr 1
    omega
  have hupper : (10 : ℚ) ^ (d.adjusted + 1) = ((10 ^ digitCount d.coefficient : Nat) : ℚ) * (10 : ℚ) ^ d.exponent := by
    rw [Decimal.adjusted, Nat.cast_pow, Nat.cast_ofNat, ← zpow_natCast, ← zpow_add₀ (by norm_num)]
    congr 1
    omega
  rw [abs_toRat, hlower, hupper]
  exact ⟨mul_le_mul_of_nonneg_right (by exact_mod_cast pow_digitCount_le hd) hpow.le,
    mul_lt_mul_of_pos_right (by exact_mod_cast lt_pow_digitCount _) hpow⟩

/-- Beyond the doubles there are only infinities. -/
theorem Rounds.exponent_of_large {m : Nat} {e : Int} {q : ℚ} (hq : Rounds m e q) (h : Normal m e)
    (hlarge : (10 : ℚ) ^ (310 : Int) ≤ q) : maxExponent < e := by
  by_contra hfinite
  have hbits : (m : ℚ) + 1 ≤ 2 ^ 53 := by exact_mod_cast h.bits
  have hunit : (0 : ℚ) < (2 : ℚ) ^ (e - 1) := zpow_pos (by norm_num) _
  have hexponent : (2 : ℚ) ^ e ≤ (2 : ℚ) ^ maxExponent := zpow_le_zpow_right₀ (by norm_num) (by omega)
  have hbound : q ≤ 2 ^ 53 * (2 : ℚ) ^ e := by
    refine hq.half.le.2.trans ?_
    rw [dyadic, two_zpow_half e]
    nlinarith
  have hlimit : (2 : ℚ) ^ 53 * (2 : ℚ) ^ maxExponent < (10 : ℚ) ^ (310 : Int) := by
    rw [show maxExponent = ((971 : Nat) : Int) from rfl, show (310 : Int) = ((310 : Nat) : Int) from rfl, zpow_natCast,
      zpow_natCast]
    exact_mod_cast (by decide +kernel : 2 ^ 53 * 2 ^ 971 < 10 ^ 310)
  linarith

/-- **Decimals are read correctly**, also those that are decided by their leading digit alone. -/
theorem isRounded_ofDecimal (d : Decimal) : IsRounded d.negative |d.toRat| (ofDecimal d) := by
  -- the quotient that stands for the decimal
  obtain ⟨num, den, hden, hvalue, hround⟩ : ∃ num den : Nat, 0 < den ∧ |d.toRat| = (num : ℚ) / den ∧
      (if 0 ≤ d.exponent then round d.negative (d.coefficient * 10 ^ d.exponent.toNat) 1
        else round d.negative d.coefficient (10 ^ (-d.exponent).toNat)) = round d.negative num den := by
    rw [abs_toRat]
    split
    next hnonneg =>
      refine ⟨_, _, Nat.one_pos, ?_, rfl⟩
      obtain ⟨n, hn⟩ := Int.eq_ofNat_of_zero_le hnonneg
      rw [hn]
      simp
    next hneg =>
      refine ⟨d.coefficient, 10 ^ (-d.exponent).toNat, Nat.pow_pos (by decide), ?_, rfl⟩
      obtain ⟨n, hn⟩ := Int.exists_eq_neg_ofNat (Int.le_of_lt (Int.not_le.mp hneg))
      rw [hn]
      simp [zpow_neg, div_eq_mul_inv]
  have hrounded := isRounded_round d.negative num hden
  rw [← hvalue] at hrounded
  unfold ofDecimal
  split
  next hzero =>
    rw [abs_toRat, hzero, Nat.cast_zero, zero_mul]
    exact isRounded_zero _ le_rfl (zpow_nonneg (by norm_num) _)
  next hne =>
    obtain ⟨hleast, hmost⟩ := adjusted_bounds hne
    split
    next hlarge =>
      obtain ⟨m, e, hnormal, hrounds, -⟩ := hrounded
      have hlarge : (10 : ℚ) ^ (310 : Int) ≤ |d.toRat| := (zpow_le_zpow_right₀ (by norm_num) (by omega)).trans hleast
      exact ⟨m, e, hnormal, hrounds, (if_pos (hrounds.exponent_of_large hnormal hlarge)).symm⟩
    next =>
      split
      next hsmall =>
        refine isRounded_zero _ (abs_nonneg _) (hmost.le.trans ?_)
        refine (zpow_le_zpow_right₀ (by norm_num) (by omega : d.adjusted + 1 ≤ -330)).trans ?_
        rw [show minExponent - 1 = -((1075 : Nat) : Int) from rfl, show (-330 : Int) = -((330 : Nat) : Int) from rfl,
          zpow_neg, zpow_neg, zpow_natCast, zpow_natCast]
        exact inv_anti₀ (by positivity) (by exact_mod_cast (by decide +kernel : 2 ^ 1075 ≤ 10 ^ 330))
      next =>
        rw [hround]
        exact hrounded

/-- **A decimal reads as a finite double** if it has its sign and a magnitude in its interval. -/
theorem ofDecimal_eq_iff {d : Decimal} {negative : Bool} {m : Nat} {e : Int} (h : Legal m e) :
    ofDecimal d = .finite negative m e ↔ d.negative = negative ∧ Rounds m e |d.toRat| :=
  (isRounded_ofDecimal d).eq_finite_iff h

end Double

end Schemata
