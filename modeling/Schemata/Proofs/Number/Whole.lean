import Schemata.Proofs.Number.Rounding

/-!
# `Schemata.Proofs.Number.Whole` — whole numbers as doubles

The shortest digits of a double may stand for another number than its value, but not if the double is a whole number
of at most `2 ^ 53`: the numbers that round to it lie closer to it than one, and so does no other whole number.

## Contents
- **Candidates.** `candidate?_of_fine` and `candidate?_whole`, what is tried.
- **Shortest digits.** `toRat_toDecimal?`, the shortest digits of whole numbers.
-/

namespace Schemata

namespace Double

/-! ## Candidates -/

theorem digitCount_mul_pow {n : Nat} (hn : n ≠ 0) (k : Nat) : digitCount (n * 10 ^ k) = digitCount n + k := by
  have hpos := digitCount_pos n
  have hpos' := digitCount_pos (n * 10 ^ k)
  refine le_antisymm ((digitCount_le_iff (by omega)).mpr ?_) ?_
  · rw [Nat.pow_add]
    exact Nat.mul_lt_mul_of_pos_right (lt_pow_digitCount n) (Nat.pow_pos (by decide))
  · by_contra hlt
    have hle := (digitCount_le_iff (by omega : 0 < digitCount n + k - 1)).mp (by omega : digitCount (n * 10 ^ k) ≤ _)
    rw [show digitCount n + k - 1 = digitCount n - 1 + k by omega, Nat.pow_add] at hle
    exact absurd (Nat.mul_le_mul_right (10 ^ k) (pow_digitCount_le hn)) (Nat.not_le.mpr hle)

theorem stripZeros_value (fuel n : Nat) (e : Int) :
    ((stripZeros fuel n e).1 : ℚ) * (10 : ℚ) ^ (stripZeros fuel n e).2 = n * (10 : ℚ) ^ e := by
  induction fuel generalizing n e with
  | zero => rfl
  | succ fuel ih =>
    rw [stripZeros]
    split
    next hten =>
      obtain ⟨k, rfl⟩ := Nat.dvd_of_mod_eq_zero hten.2
      rw [ih, Nat.mul_div_cancel_left _ (by decide), zpow_add_one₀ (by norm_num)]
      push_cast
      ring
    next => rfl

/-- The only natural next to a natural is itself. -/
theorem head?_neighbours {num den n : Nat} (hden : 0 < den) (h : num = n * den) : (neighbours num den).head? = some n := by
  unfold neighbours
  rw [h, Nat.mul_mod_left, Nat.mul_div_cancel _ hden]
  dsimp only
  rw [if_neg (by omega)]
  rfl

/-- A candidate is a grid point that rounds to the double. -/
theorem candidate?_spec {m : Nat} {e : Int} {count n : Nat} {p : Int} (h : candidate? m e count = some (n, p)) :
    p = (Fraction.ofDyadic m e).magnitude - count + 1 ∧
      (gridPoint n p).within (roundingInterval m e) (m % 2 == 0) = true := by
  rw [candidate?] at h
  obtain ⟨k, hk, heq⟩ := Option.map_eq_some_iff.mp h
  obtain ⟨rfl, rfl⟩ := Prod.mk.inj heq
  exact ⟨rfl, List.find?_some
    (p := fun n => (gridPoint n ((Fraction.ofDyadic m e).magnitude - count + 1)).within _ _) hk⟩

section

variable {m N : Nat} {e : Int} (hm : m ≠ 0) (hvalue : dyadic m e = N)
include hm hvalue

omit hm in
theorem ofDyadic_num_eq : (Fraction.ofDyadic m e).num = N * (Fraction.ofDyadic m e).den := by
  have hden : ((Fraction.ofDyadic m e).den : ℚ) ≠ 0 := Nat.cast_ne_zero.mpr (Nat.ne_of_gt (ofDyadic_den_pos m e))
  have hrat := (toRat_ofDyadic m e).trans hvalue
  rw [Fraction.toRat, div_eq_iff hden] at hrat
  exact_mod_cast hrat

theorem whole_ne_zero : N ≠ 0 := by
  rintro rfl
  exact hm (dyadic_eq_zero.mp (by rw [hvalue]; rfl))

/-- The leading digit of a whole number. -/
theorem magnitude_ofDyadic : (Fraction.ofDyadic m e).magnitude = (digitCount N : Int) - 1 := by
  -- Scaling by any power of ten before the division loses nothing, since the quotient is whole.
  have hquotient : ∀ k, (Fraction.ofDyadic m e).num * 10 ^ k / (Fraction.ofDyadic m e).den = N * 10 ^ k := fun k => by
    rw [ofDyadic_num_eq hvalue, Nat.mul_right_comm, Nat.mul_div_cancel _ (ofDyadic_den_pos m e)]
  rw [Fraction.magnitude, hquotient, digitCount_mul_pow (whole_ne_zero hm hvalue)]
  push_cast
  ring

/-- On a grid that is fine enough, the candidate is the whole number itself. -/
theorem candidate?_of_fine {count : Nat} (h : digitCount N ≤ count) :
    ∃ k : Nat, candidate? m e count = some (N * 10 ^ k, -(k : Int)) := by
  obtain ⟨k, rfl⟩ := Nat.exists_eq_add_of_le h
  have hpoint : (digitCount N : Int) - 1 - ((digitCount N + k : Nat) : Int) + 1 = -(k : Int) := by
    push_cast
    ring
  have hunit : (gridPoint 1 (-(k : Int))).den = 10 ^ k * (gridPoint 1 (-(k : Int))).num := by
    unfold gridPoint
    split
    next hnonneg =>
      obtain rfl : k = 0 := by omega
      rfl
    next => simp
  have hquotient : (Fraction.ofDyadic m e).num * (gridPoint 1 (-(k : Int))).den =
      N * 10 ^ k * ((Fraction.ofDyadic m e).den * (gridPoint 1 (-(k : Int))).num) := by
    rw [ofDyadic_num_eq hvalue, hunit]
    ring
  have hpos := Nat.mul_pos (ofDyadic_den_pos m e) (gridPoint_num_pos (-(k : Int)))
  have hfits : (gridPoint (N * 10 ^ k) (-(k : Int))).within (roundingInterval m e) (m % 2 == 0) = true := by
    have hgrid : (gridPoint (N * 10 ^ k) (-(k : Int))).toRat = N := by
      rw [toRat_gridPoint, zpow_neg, zpow_natCast]
      push_cast
      field_simp
    rw [within_roundingInterval hm (gridPoint_den_pos _ _), hgrid, ← hvalue]
    exact rounds_self m e
  refine ⟨k, ?_⟩
  rw [candidate?, magnitude_ofDyadic hm hvalue, hpoint]
  obtain ⟨rest, hrest⟩ := List.head?_eq_some_iff.mp (head?_neighbours hpos hquotient)
  simp only [hrest, List.find?_cons, hfits, Option.map_some]

omit hm in
/-- A whole number of at most `2 ^ 53` has an exponent that is not positive, or it is that number. -/
theorem exponent_of_whole (hlegal : Legal m e) (hlimit : N ≤ 2 ^ 53) : e ≤ 0 ∨ e = 1 ∧ m = 2 ^ 52 := by
  refine or_iff_not_imp_left.mpr fun hpos => ?_
  obtain ⟨k, rfl⟩ : ∃ k : Nat, e = ((k + 1 : Nat) : Int) := ⟨(e - 1).toNat, by omega⟩
  have hleading := hlegal.leading (Int.lt_of_lt_of_le (by decide) (Int.natCast_nonneg _))
  have hN : N = m * 2 ^ (k + 1) := by
    rw [dyadic, zpow_natCast] at hvalue
    exact_mod_cast hvalue.symm
  have hone : 2 ^ k ≤ 1 := by
    by_contra hlt
    have hle := Nat.mul_le_mul hleading (show 2 ≤ 2 ^ k by omega)
    rw [Nat.pow_succ, ← Nat.mul_assoc] at hN
    omega
  obtain rfl : k = 0 := by
    by_contra hne
    have := Nat.pow_le_pow_right (n := 2) (by decide) (Nat.one_le_iff_ne_zero.mpr hne)
    omega
  exact ⟨rfl, by omega⟩

/-- **Every candidate is the whole number itself** if it is at most `2 ^ 53`. -/
theorem candidate?_whole (hlegal : Legal m e) (hlimit : N ≤ 2 ^ 53) {count n : Nat} {p : Int}
    (h : candidate? m e count = some (n, p)) : (n : ℚ) * (10 : ℚ) ^ p = N := by
  by_cases hfine : digitCount N ≤ count
  · obtain ⟨k, hk⟩ := candidate?_of_fine hm hvalue hfine
    rw [hk] at h
    obtain ⟨rfl, rfl⟩ := Prod.mk.inj (Option.some.inj h)
    rw [zpow_neg, zpow_natCast]
    push_cast
    field_simp
  · obtain ⟨hp, hwithin⟩ := candidate?_spec h
    rw [magnitude_ofDyadic hm hvalue] at hp
    obtain ⟨k, rfl⟩ : ∃ k : Nat, p = ((k + 1 : Nat) : Int) := ⟨digitCount N - 1 - count, by omega⟩
    have hpoint : (gridPoint n ((k + 1 : Nat) : Int)).toRat = ((n * 10 ^ (k + 1) : Nat) : ℚ) := by
      rw [toRat_gridPoint, zpow_natCast]
      push_cast
      ring
    rw [within_roundingInterval hm (gridPoint_den_pos _ _), hpoint] at hwithin
    obtain ⟨hleast, hmost⟩ := hwithin.half.le
    generalize hG : n * 10 ^ (k + 1) = G at hwithin hleast hmost
    have hsame : G = N := by
      rcases exponent_of_whole hvalue hlegal hlimit with he | ⟨rfl, hm52⟩
      · -- Other whole numbers are farther away than what rounds to this one.
        have hhalf : (2 : ℚ) ^ (e - 1) ≤ 1 / 2 := by
          refine (zpow_le_zpow_right₀ (by norm_num) (by omega : e - 1 ≤ -1)).trans ?_
          norm_num
        have hle : (G : ℚ) < N + 1 := by linarith
        have hge : (N : ℚ) < G + 1 := by linarith
        have hle' : G < N + 1 := by exact_mod_cast hle
        have hge' : N < G + 1 := by exact_mod_cast hge
        omega
      · -- The next double is two away, and the whole number between is odd.
        have hN : N = 2 ^ 53 := by
          rw [dyadic, hm52] at hvalue
          norm_num at hvalue
          exact_mod_cast hvalue.symm
        subst hm52
        have hcloser := hwithin.quarter (by decide)
        rw [hvalue] at hcloser hmost
        norm_num at hcloser hmost
        have hge : (N : ℚ) < G + 1 := by linarith
        have hle' : G ≤ N + 1 := by exact_mod_cast hmost
        have hge' : N < G + 1 := by exact_mod_cast hge
        rw [Nat.pow_succ, ← Nat.mul_assoc] at hG
        omega
    rw [← hsame, ← hG, zpow_natCast]
    push_cast
    ring

/-- **The shortest digits of a whole number** of at most `2 ^ 53` stand for it. -/
theorem shortest_whole (hlegal : Legal m e) (hlimit : N ≤ 2 ^ 53) :
    ((shortest m e).1 : ℚ) * (10 : ℚ) ^ (shortest m e).2 = N := by
  have hdigits : digitCount N - 1 < 17 := by
    have hcount : digitCount N ≤ 16 := (digitCount_le_iff (by decide)).mpr (hlimit.trans_lt (by norm_num))
    omega
  obtain ⟨k, hk⟩ := candidate?_of_fine hm hvalue (by omega : digitCount N ≤ digitCount N - 1 + 1)
  rw [shortest, if_neg hm]
  cases hfound : (List.range 17).findSome? fun count => candidate? m e (count + 1) with
  | none =>
    have hnone := List.findSome?_eq_none_iff.mp hfound _ (List.mem_range.mpr hdigits)
    rw [hk] at hnone
    cases hnone
  | some found =>
    obtain ⟨count, _, hcandidate⟩ := List.exists_of_findSome?_eq_some hfound
    rw [← candidate?_whole hm hvalue hlegal hlimit hcandidate]
    exact stripZeros_value _ _ _

end

/-- Whether a double is whole is a question of its value. -/
theorem isIntegral_iff {negative : Bool} {m : Nat} {e : Int} :
    (finite negative m e).isIntegral = true ↔ ∃ N : Nat, dyadic m e = N := by
  rw [isIntegral, Bool.or_eq_true, decide_eq_true_eq, beq_iff_eq]
  by_cases hnonneg : 0 ≤ e
  · obtain ⟨k, rfl⟩ := Int.eq_ofNat_of_zero_le hnonneg
    refine iff_of_true (.inl hnonneg) ⟨m * 2 ^ k, ?_⟩
    rw [dyadic, zpow_natCast]
    push_cast
    rfl
  · obtain ⟨k, rfl⟩ := Int.exists_eq_neg_ofNat (Int.le_of_lt (Int.not_le.mp hnonneg))
    rw [or_iff_right hnonneg, Int.neg_neg, Int.toNat_natCast, ← Nat.dvd_iff_mod_eq_zero]
    have hpow : (2 : ℚ) ^ k ≠ 0 := pow_ne_zero k (by norm_num)
    have hvalue : ∀ N : Nat, dyadic m (-(k : Int)) = N ↔ m = 2 ^ k * N := fun N => by
      rw [dyadic, zpow_neg, zpow_natCast, ← div_eq_mul_inv, div_eq_iff hpow, mul_comm]
      exact_mod_cast Iff.rfl
    exact exists_congr fun N => (hvalue N).symm

/-- **The shortest digits of a double** that is a whole number of at most `2 ^ 53` stand for its value. -/
theorem toRat_toDecimal? {x : Double} (hx : x.IsCanonical) (hintegral : x.isIntegral = true) {q : ℚ} (hq : x.toRat? = some q)
    (hlimit : |q| ≤ 2 ^ 53) : ∃ d, x.toDecimal? = some d ∧ d.toRat = q := by
  cases x with
  | nan | infinity => cases hq
  | finite negative m e =>
    obtain ⟨N, hN⟩ := isIntegral_iff.mp hintegral
    rw [toRat?_finite, Option.some.injEq] at hq
    have hdigits : ((shortest m e).1 : ℚ) * (10 : ℚ) ^ (shortest m e).2 = dyadic m e := by
      by_cases hm : m = 0
      · subst hm
        simp [shortest, dyadic]
      · have hle : N ≤ 2 ^ 53 := by
          have habs : |q| = N := by
            rw [← hq, hN]
            cases negative <;> simp
          rw [habs] at hlimit
          exact_mod_cast hlimit
        rw [hN]
        exact shortest_whole hm hN hx hle
    have hdecimal : (finite negative m e).toDecimal? = some ⟨negative, (shortest m e).1, (shortest m e).2⟩ := rfl
    refine ⟨_, hdecimal, ?_⟩
    rw [Decimal.toRat_eq, Decimal.signed, ← hq, ← hdigits]
    cases negative <;> simp

end Double

end Schemata
