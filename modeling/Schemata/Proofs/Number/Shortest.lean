import Mathlib.Data.Nat.Cast.Order.Field
import Schemata.Proofs.Number.Rounding

/-!
# `Schemata.Proofs.Number.Shortest` — the shortest digits that read back

Many decimals read back as one double. The one that stands for it has the fewest digits, is the nearest to the double
among those, and has an even last digit if two are equally near. This is a property of the double alone, which says
nothing of how the digits are found, and `toDecimal?` finds them.

## Contents
- **Specification.** `IsShortest`, and `IsShortest.toRat_eq`: two such decimals have one value.
- **Neighbours.** What is nearest on a grid, and on that side of a number that reads back.
- **Candidates.** What `candidate?` finds and what follows if it finds nothing.
- **Shortest digits.** `isShortest_toDecimal?`.
-/

namespace Schemata

namespace Double

/-! ## Specification -/

/-- **The shortest decimal of a double** reads back as the double, with the fewest digits. Of the decimals that do so it is
nearest to the double, and if another one is as near, then its last digit is even where both have one exponent. -/
structure IsShortest (x : Double) (d : Decimal) : Prop where
  readsBack : ofDecimal d = x
  fewest : ∀ d', ofDecimal d' = x → digitCount d.coefficient ≤ digitCount d'.coefficient
  nearest : ∀ q, x.toRat? = some q → ∀ d', ofDecimal d' = x → digitCount d'.coefficient ≤ digitCount d.coefficient →
    |d.toRat - q| ≤ |d'.toRat - q|
  even : ∀ q, x.toRat? = some q → ∀ d', ofDecimal d' = x → digitCount d'.coefficient ≤ digitCount d.coefficient →
    |d.toRat - q| = |d'.toRat - q| → d.toRat = d'.toRat ∨ 2 ∣ (Decimal.align d d').1

/-! ## Neighbours -/

section

variable {num den : Nat} {fits : Nat → Bool}

/-- The nearest natural comes first, and then the one on the other side of the quotient. -/
theorem neighbours_spec (num : Nat) (hden : 0 < den) : ∃ first second : Nat, neighbours num den = [first, second] ∧
    Between (first % 2 == 0) ((first : ℚ) - 1 / 2) ((first : ℚ) + 1 / 2) ((num : ℚ) / den) ∧
      ((first : ℚ) ≤ (num : ℚ) / den ∧ (num : ℚ) / den ≤ second ∧ second = first + 1 ∨
        (second : ℚ) ≤ (num : ℚ) / den ∧ (num : ℚ) / den ≤ first ∧ first = second + 1) := by
  have hpos : (0 : ℚ) < den := by exact_mod_cast hden
  have hfloor : ((num / den : Nat) : ℚ) ≤ (num : ℚ) / den := Nat.cast_div_le
  have hceil : (num : ℚ) / den ≤ ((num / den + 1 : Nat) : ℚ) := by
    rw [div_le_iff₀ hpos, mul_comm]
    exact_mod_cast (Nat.lt_mul_div_succ num hden).le
  have hnearest := (roundQuotient_eq_iff num hden).mp rfl
  unfold roundQuotient at hnearest
  unfold neighbours
  dsimp only at hnearest ⊢
  split
  next hup =>
    rw [if_pos hup] at hnearest
    exact ⟨_, _, rfl, hnearest, .inr ⟨hfloor, hceil, rfl⟩⟩
  next hdown =>
    rw [if_neg hdown] at hnearest
    exact ⟨_, _, rfl, hnearest, .inl ⟨hfloor, hceil, rfl⟩⟩

/-- What fits on the way from a natural to the quotient. -/
def FitsTowards (fits : Nat → Bool) (z : ℚ) : Prop :=
  ∀ j k : Nat, fits j = true → ((j : ℚ) ≤ k ∧ (k : ℚ) ≤ z ∨ z ≤ k ∧ (k : ℚ) ≤ j) → fits k = true

/-- If neither neighbour fits, nothing does. -/
theorem find?_neighbours_none (hden : 0 < den) (htowards : FitsTowards fits ((num : ℚ) / den))
    (h : (neighbours num den).find? fits = none) (k : Nat) : fits k = false := by
  obtain ⟨first, second, heq, -, hsides⟩ := neighbours_spec num hden
  rw [heq] at h
  have hfirst : ¬ fits first = true := List.find?_eq_none.mp h _ (by simp)
  have hsecond : ¬ fits second = true := List.find?_eq_none.mp h _ (by simp)
  by_contra hk
  rw [Bool.not_eq_false] at hk
  rcases hsides with ⟨hbelow, habove, hnext⟩ | ⟨hbelow, habove, hnext⟩
  · obtain hle | hge : k ≤ first ∨ second ≤ k := by omega
    · exact hfirst (htowards k first hk (.inl ⟨by exact_mod_cast hle, hbelow⟩))
    · exact hsecond (htowards k second hk (.inr ⟨habove, by exact_mod_cast hge⟩))
  · obtain hle | hge : k ≤ second ∨ first ≤ k := by omega
    · exact hsecond (htowards k second hk (.inl ⟨by exact_mod_cast hle, hbelow⟩))
    · exact hfirst (htowards k first hk (.inr ⟨habove, by exact_mod_cast hge⟩))

/-- A natural that fits best: none that fits is nearer, and one that is as near stands beside it while it is even. -/
def FitsBest (fits : Nat → Bool) (z : ℚ) (n : Nat) : Prop :=
  ∀ k : Nat, fits k = true → |(n : ℚ) - z| < |(k : ℚ) - z| ∨ k = n ∨
    |(n : ℚ) - z| = |(k : ℚ) - z| ∧ n % 2 = 0 ∧ (k = n + 1 ∨ n = k + 1)

/-- The natural to which a number is rounded fits best if it fits at all. -/
theorem fitsBest_of_half {z : ℚ} {n : Nat} (h : Between (n % 2 == 0) ((n : ℚ) - 1 / 2) ((n : ℚ) + 1 / 2) z) :
    FitsBest fits z n := by
  intro k _
  obtain ⟨hlow, hhigh⟩ := h.le
  have hnear : |(n : ℚ) - z| ≤ 1 / 2 := abs_le.mpr ⟨by linarith, by linarith⟩
  obtain hlt | rfl | hgt := Nat.lt_trichotomy k n
  · have hstep : (k : ℚ) + 1 ≤ n := by exact_mod_cast hlt
    have hfar : z - k ≤ |(k : ℚ) - z| := (abs_sub_comm (k : ℚ) z).symm ▸ le_abs_self _
    by_cases hnext : |(n : ℚ) - z| < |(k : ℚ) - z|
    · exact .inl hnext
    · have heq : |(n : ℚ) - z| = |(k : ℚ) - z| := by linarith
      have hend : z = (n : ℚ) - 1 / 2 := by linarith
      have hk : n ≤ k + 1 := by exact_mod_cast (by linarith : (n : ℚ) ≤ k + 1)
      exact .inr (.inr ⟨heq, beq_iff_eq.mp (h.closed_of_end (.inl hend)), .inr (by omega)⟩)
  · exact .inr (.inl rfl)
  · have hstep : (n : ℚ) + 1 ≤ k := by exact_mod_cast hgt
    have hfar : (k : ℚ) - z ≤ |(k : ℚ) - z| := le_abs_self _
    by_cases hnext : |(n : ℚ) - z| < |(k : ℚ) - z|
    · exact .inl hnext
    · have heq : |(n : ℚ) - z| = |(k : ℚ) - z| := by linarith
      have hend : z = (n : ℚ) + 1 / 2 := by linarith
      have hk : k ≤ n + 1 := by exact_mod_cast (by linarith : (k : ℚ) ≤ n + 1)
      exact .inr (.inr ⟨heq, beq_iff_eq.mp (h.closed_of_end (.inr hend)), .inl (by omega)⟩)

/-- **A neighbour that is found fits best.** -/
theorem find?_neighbours_some (hden : 0 < den) (htowards : FitsTowards fits ((num : ℚ) / den)) {n : Nat}
    (h : (neighbours num den).find? fits = some n) : fits n = true ∧ FitsBest fits ((num : ℚ) / den) n := by
  refine ⟨List.find?_some h, ?_⟩
  obtain ⟨first, second, heq, hnearest, hsides⟩ := neighbours_spec num hden
  rw [heq, List.find?_cons] at h
  split at h
  next hfirst =>
    obtain rfl := Option.some.inj h
    exact fitsBest_of_half hnearest
  next hfirst =>
    rw [List.find?_singleton] at h
    obtain ⟨-, hn⟩ := Option.ite_none_right_eq_some.mp h
    obtain rfl := Option.some.inj hn
    -- nothing fits on the other side of the quotient
    intro k hk
    rcases hsides with ⟨hbelow, habove, hnext⟩ | ⟨hbelow, habove, hnext⟩
    · have hside : second ≤ k := by
        by_contra hlt
        have hle : (k : ℚ) ≤ first := by exact_mod_cast (by omega : k ≤ first)
        exact Bool.false_ne_true (hfirst.symm.trans (htowards k first hk (.inl ⟨hle, hbelow⟩)))
      rcases Nat.eq_or_lt_of_le hside with rfl | hlt
      · exact .inr (.inl rfl)
      · have hlt' : (second : ℚ) < k := by exact_mod_cast hlt
        rw [abs_of_nonneg (by linarith), abs_of_nonneg (by linarith)]
        exact .inl (by linarith)
    · have hside : k ≤ second := by
        by_contra hlt
        have hge : (first : ℚ) ≤ k := by exact_mod_cast (by omega : first ≤ k)
        exact Bool.false_ne_true (hfirst.symm.trans (htowards k first hk (.inr ⟨habove, hge⟩)))
      rcases Nat.eq_or_lt_of_le hside with rfl | hlt
      · exact .inr (.inl rfl)
      · have hlt' : (k : ℚ) < second := by exact_mod_cast hlt
        rw [abs_of_nonpos (by linarith), abs_of_nonpos (by linarith)]
        exact .inl (by linarith)

theorem le_of_mem_neighbours {n : Nat} (h : n ∈ neighbours num den) : n ≤ num / den + 1 := by
  unfold neighbours at h
  dsimp only at h
  split at h <;> simp at h <;> omega

end

/-! ## Candidates -/

section

variable {m : Nat} {e : Int}

/-- The power of ten of the leading digit of a double. -/
theorem magnitude_bounds (hm : m ≠ 0) (he : minExponent ≤ e) :
    (10 : ℚ) ^ (Fraction.ofDyadic m e).magnitude ≤ dyadic m e ∧
      dyadic m e < (10 : ℚ) ^ ((Fraction.ofDyadic m e).magnitude + 1) := by
  have hden : (0 : ℚ) < (Fraction.ofDyadic m e).den := by exact_mod_cast ofDyadic_den_pos m e
  have hvalue := toRat_ofDyadic m e
  rw [Fraction.toRat] at hvalue
  -- all doubles have a digit within the places that are looked at
  have hplaces : 1 ≤ dyadic m e * (10 : ℚ) ^ placeLimit := by
    have hone : (1 : ℚ) ≤ m := by exact_mod_cast Nat.one_le_iff_ne_zero.mpr hm
    have hunit : (2 : ℚ) ^ minExponent ≤ (2 : ℚ) ^ e := zpow_le_zpow_right₀ (by norm_num) he
    have hleast : (2 : ℚ) ^ minExponent ≤ dyadic m e :=
      hunit.trans (le_mul_of_one_le_left (zpow_nonneg (by norm_num) _) hone)
    have hlimit : 1 ≤ (2 : ℚ) ^ minExponent * (10 : ℚ) ^ placeLimit := by
      rw [show minExponent = -((1074 : Nat) : Int) from rfl, show placeLimit = 400 from rfl, zpow_neg, zpow_natCast,
        inv_mul_eq_div, one_le_div (by positivity)]
      exact_mod_cast (by decide +kernel : 2 ^ 1074 ≤ 10 ^ 400)
    exact hlimit.trans (mul_le_mul_of_nonneg_right hleast (by positivity))
  rw [Fraction.magnitude]
  generalize hquotient : (Fraction.ofDyadic m e).num * 10 ^ placeLimit / (Fraction.ofDyadic m e).den = q
  have hscaled : dyadic m e * (10 : ℚ) ^ placeLimit =
      (((Fraction.ofDyadic m e).num * 10 ^ placeLimit : Nat) : ℚ) / (Fraction.ofDyadic m e).den := by
    rw [← hvalue]
    push_cast
    ring
  have hfloor : (q : ℚ) ≤ dyadic m e * (10 : ℚ) ^ placeLimit := by
    rw [hscaled, ← hquotient]
    exact Nat.cast_div_le
  have hceil : dyadic m e * (10 : ℚ) ^ placeLimit < (q : ℚ) + 1 := by
    have hlt := Nat.lt_mul_div_succ ((Fraction.ofDyadic m e).num * 10 ^ placeLimit) (ofDyadic_den_pos m e)
    rw [hquotient, Nat.mul_comm _ (q + 1)] at hlt
    rw [hscaled, div_lt_iff₀ hden]
    exact_mod_cast hlt
  have hne : q ≠ 0 := by
    rintro rfl
    rw [Nat.cast_zero, zero_add] at hceil
    exact absurd hplaces (not_le.mpr hceil)
  have hpos := digitCount_pos q
  have hlower : (10 : ℚ) ^ ((digitCount q : Int) - (placeLimit + 1)) * (10 : ℚ) ^ placeLimit =
      ((10 ^ (digitCount q - 1) : Nat) : ℚ) := by
    rw [Nat.cast_pow, Nat.cast_ofNat, ← zpow_natCast, ← zpow_natCast, ← zpow_add₀ (by norm_num)]
    congr 1
    omega
  have hupper : (10 : ℚ) ^ ((digitCount q : Int) - (placeLimit + 1) + 1) * (10 : ℚ) ^ placeLimit =
      ((10 ^ digitCount q : Nat) : ℚ) := by
    rw [Nat.cast_pow, Nat.cast_ofNat, ← zpow_natCast, ← zpow_natCast, ← zpow_add₀ (by norm_num)]
    congr 1
    omega
  have hplace : (0 : ℚ) < (10 : ℚ) ^ placeLimit := by positivity
  constructor
  · refine le_of_mul_le_mul_right ?_ hplace
    rw [hlower]
    exact le_trans (by exact_mod_cast pow_digitCount_le hne) hfloor
  · refine lt_of_mul_lt_mul_right ?_ hplace.le
    rw [hupper]
    exact hceil.trans_le (by exact_mod_cast lt_pow_digitCount q)

/-- The power of ten of the last of some digits of a double. -/
def gridExponent (m : Nat) (e : Int) (count : Nat) : Int := (Fraction.ofDyadic m e).magnitude - count + 1

/-- A natural on the grid of some digits reads back. -/
def onGrid (m : Nat) (e : Int) (count n : Nat) : Bool :=
  (gridPoint n (gridExponent m e count)).within (roundingInterval m e) (m % 2 == 0)

theorem onGrid_iff (hm : m ≠ 0) {count n : Nat} :
    onGrid m e count n = true ↔ Rounds m e (n * (10 : ℚ) ^ gridExponent m e count) := by
  rw [onGrid, within_roundingInterval hm (gridPoint_den_pos _ _), toRat_gridPoint]

/-- The place of a double on the grid of some digits, as the quotient that candidates stand next to. -/
theorem toRat_place (m : Nat) (e : Int) (count : Nat) :
    0 < (Fraction.ofDyadic m e).den * (gridPoint 1 (gridExponent m e count)).num ∧
      ((((Fraction.ofDyadic m e).num * (gridPoint 1 (gridExponent m e count)).den : Nat) : ℚ) /
          (((Fraction.ofDyadic m e).den * (gridPoint 1 (gridExponent m e count)).num : Nat) : ℚ)) =
        dyadic m e / (10 : ℚ) ^ gridExponent m e count := by
  refine ⟨Nat.mul_pos (ofDyadic_den_pos m e) (gridPoint_num_pos _), ?_⟩
  have hunit := toRat_gridPoint 1 (gridExponent m e count)
  rw [Nat.cast_one, one_mul] at hunit
  rw [← toRat_ofDyadic, ← hunit, Fraction.toRat, Fraction.toRat, div_div_div_eq]
  push_cast
  rfl

theorem candidate?_eq (m : Nat) (e : Int) (count : Nat) : candidate? m e count =
    ((neighbours ((Fraction.ofDyadic m e).num * (gridPoint 1 (gridExponent m e count)).den)
      ((Fraction.ofDyadic m e).den * (gridPoint 1 (gridExponent m e count)).num)).find? (onGrid m e count)).map
        fun n => (n, gridExponent m e count) := rfl

/-- What reads back does so on the way to the double. -/
theorem fitsTowards_onGrid (hm : m ≠ 0) (count : Nat) :
    FitsTowards (onGrid m e count) (dyadic m e / (10 : ℚ) ^ gridExponent m e count) := by
  intro j k hj hk
  have hunit : (0 : ℚ) < (10 : ℚ) ^ gridExponent m e count := zpow_pos (by norm_num) _
  rw [onGrid_iff hm] at hj ⊢
  rw [le_div_iff₀ hunit, div_le_iff₀ hunit] at hk
  exact hj.towards (hk.imp (.imp_left fun h => mul_le_mul_of_nonneg_right h hunit.le)
    (.imp_right fun h => mul_le_mul_of_nonneg_right h hunit.le))

/-- **Without a candidate** no point of the grid reads back. -/
theorem candidate?_none (hm : m ≠ 0) {count : Nat} (h : candidate? m e count = none) (k : Nat) :
    ¬ Rounds m e (k * (10 : ℚ) ^ gridExponent m e count) := by
  rw [candidate?_eq, Option.map_eq_none_iff] at h
  obtain ⟨hden, hplace⟩ := toRat_place m e count
  rw [← onGrid_iff hm, Bool.not_eq_true]
  exact find?_neighbours_none hden (hplace ▸ fitsTowards_onGrid hm count) h k

/-- **A candidate** reads back and is the nearest point of the grid that does; another one is as near only if the candidate
is even. -/
theorem candidate?_some (hm : m ≠ 0) {count n : Nat} {p : Int} (h : candidate? m e count = some (n, p)) :
    p = gridExponent m e count ∧ Rounds m e (n * (10 : ℚ) ^ p) ∧ ∀ k : Nat, Rounds m e (k * (10 : ℚ) ^ p) →
      |n * (10 : ℚ) ^ p - dyadic m e| < |k * (10 : ℚ) ^ p - dyadic m e| ∨ k = n ∨
        |n * (10 : ℚ) ^ p - dyadic m e| = |k * (10 : ℚ) ^ p - dyadic m e| ∧ n % 2 = 0 ∧ (k = n + 1 ∨ n = k + 1) := by
  rw [candidate?_eq] at h
  obtain ⟨_, hfound, heq⟩ := Option.map_eq_some_iff.mp h
  obtain ⟨rfl, rfl⟩ := Prod.mk.inj heq
  obtain ⟨hden, hplace⟩ := toRat_place m e count
  obtain ⟨hfits, hbest⟩ := find?_neighbours_some hden (hplace ▸ fitsTowards_onGrid hm count) hfound
  refine ⟨rfl, (onGrid_iff hm).mp hfits, fun k hk => ?_⟩
  have hunit : (0 : ℚ) < (10 : ℚ) ^ gridExponent m e count := zpow_pos (by norm_num) _
  have hdistance : ∀ j : Nat, |j * (10 : ℚ) ^ gridExponent m e count - dyadic m e| =
      |(j : ℚ) - dyadic m e / (10 : ℚ) ^ gridExponent m e count| * (10 : ℚ) ^ gridExponent m e count := by
    intro j
    rw [← abs_of_pos hunit, ← abs_mul, abs_of_pos hunit, sub_mul, div_mul_cancel₀ _ hunit.ne']
  rw [hplace] at hbest
  rw [hdistance, hdistance, mul_lt_mul_iff_of_pos_right hunit, mul_left_inj' hunit.ne']
  exact hbest k ((onGrid_iff hm).mpr hk)

/-- The candidate has at most as many digits as are asked for, or it is the next power of ten. -/
theorem candidate?_le (hm : m ≠ 0) (he : minExponent ≤ e) {count n : Nat} {p : Int}
    (h : candidate? m e count = some (n, p)) : n ≤ 10 ^ count := by
  rw [candidate?_eq] at h
  obtain ⟨_, hfound, heq⟩ := Option.map_eq_some_iff.mp h
  obtain ⟨rfl, -⟩ := Prod.mk.inj heq
  obtain ⟨hden, hplace⟩ := toRat_place m e count
  refine (le_of_mem_neighbours (List.mem_of_find?_eq_some hfound)).trans ((Nat.div_lt_iff_lt_mul hden).mpr ?_)
  have hunit : (0 : ℚ) < (10 : ℚ) ^ gridExponent m e count := zpow_pos (by norm_num) _
  have hlt : dyadic m e / (10 : ℚ) ^ gridExponent m e count < ((10 ^ count : Nat) : ℚ) := by
    rw [div_lt_iff₀ hunit, Nat.cast_pow, Nat.cast_ofNat, ← zpow_natCast, ← zpow_add₀ (by norm_num)]
    refine (magnitude_bounds hm he).2.trans_le (zpow_le_zpow_right₀ (by norm_num) ?_)
    unfold gridExponent
    omega
  rw [← hplace, div_lt_iff₀ (by exact_mod_cast hden)] at hlt
  exact_mod_cast hlt

/-- **Every decimal with some digits that reads back** has a point of their grid that reads back and is as near: if it is
not on the grid itself, it stands below the leading digit of the double, which is nearer. -/
theorem exists_onGrid (hm : m ≠ 0) (he : minExponent ≤ e) {count k : Nat} {p : Int} (hcount : 0 < count)
    (hk : k < 10 ^ count) (h : Rounds m e (k * (10 : ℚ) ^ p)) :
    ∃ j : Nat, Rounds m e (j * (10 : ℚ) ^ gridExponent m e count) ∧
      (gridExponent m e count ≤ p ∧ j = k * 10 ^ (p - gridExponent m e count).toNat ∧
          (j : ℚ) * (10 : ℚ) ^ gridExponent m e count = k * (10 : ℚ) ^ p ∨
        |j * (10 : ℚ) ^ gridExponent m e count - dyadic m e| < |k * (10 : ℚ) ^ p - dyadic m e|) := by
  by_cases hgrid : gridExponent m e count ≤ p
  · have hvalue : ((k * 10 ^ (p - gridExponent m e count).toNat : Nat) : ℚ) * (10 : ℚ) ^ gridExponent m e count =
        k * (10 : ℚ) ^ p := by
      rw [Nat.cast_mul, Nat.cast_pow, Nat.cast_ofNat, mul_assoc, ← zpow_natCast, ← zpow_add₀ (by norm_num)]
      congr 2
      omega
    exact ⟨_, hvalue ▸ h, .inl ⟨hgrid, rfl, hvalue⟩⟩
  · have hleading := (magnitude_bounds hm he).1
    have hpower : ((10 ^ (count - 1) : Nat) : ℚ) * (10 : ℚ) ^ gridExponent m e count =
        (10 : ℚ) ^ (Fraction.ofDyadic m e).magnitude := by
      rw [Nat.cast_pow, Nat.cast_ofNat, ← zpow_natCast, ← zpow_add₀ (by norm_num)]
      congr 1
      unfold gridExponent
      omega
    have hbelow : k * (10 : ℚ) ^ p < (10 : ℚ) ^ (Fraction.ofDyadic m e).magnitude := by
      have hunit : (0 : ℚ) < (10 : ℚ) ^ p := zpow_pos (by norm_num) _
      have hdigits : (k : ℚ) < (10 : ℚ) ^ (count : Int) := by
        rw [zpow_natCast]
        exact_mod_cast hk
      refine (mul_lt_mul_of_pos_right hdigits hunit).trans_le ?_
      rw [← zpow_add₀ (by norm_num)]
      refine zpow_le_zpow_right₀ (by norm_num) ?_
      unfold gridExponent at hgrid
      omega
    refine ⟨10 ^ (count - 1), h.towards (.inl ?_), .inr ?_⟩
    · rw [hpower]
      exact ⟨hbelow.le, hleading⟩
    · rw [hpower, abs_of_nonpos (by linarith), abs_of_nonpos (by linarith)]
      linarith

/-- **Seventeen digits are enough.** -/
theorem candidate?_seventeen (hm : m ≠ 0) (h : Normal m e) : candidate? m e 17 ≠ none := by
  intro hnone
  obtain ⟨hden, hplace⟩ := toRat_place m e 17
  obtain ⟨k, _, -, hnearest, -⟩ :=
    neighbours_spec ((Fraction.ofDyadic m e).num * (gridPoint 1 (gridExponent m e 17)).den) hden
  rw [hplace] at hnearest
  obtain ⟨hleast, hmost⟩ := hnearest.le
  have hunit : (0 : ℚ) < (10 : ℚ) ^ gridExponent m e 17 := zpow_pos (by norm_num) _
  have hleast : ((k : ℚ) - 1 / 2) * (10 : ℚ) ^ gridExponent m e 17 ≤ dyadic m e := (le_div_iff₀ hunit).mp hleast
  have hmost : dyadic m e ≤ ((k : ℚ) + 1 / 2) * (10 : ℚ) ^ gridExponent m e 17 := (div_le_iff₀ hunit).mp hmost
  have hpower : (10 : ℚ) ^ 16 * (10 : ℚ) ^ gridExponent m e 17 ≤ dyadic m e := by
    refine le_trans (le_of_eq ?_) (magnitude_bounds hm h.least).1
    rw [← zpow_natCast, ← zpow_add₀ (by norm_num)]
    congr 1
    unfold gridExponent
    push_cast
    ring
  have hhalf : (0 : ℚ) < (2 : ℚ) ^ (e - 1) := zpow_pos (by norm_num) _
  -- half a step of the grid is less than half a unit of the double
  have hfine : (10 : ℚ) ^ gridExponent m e 17 / 2 < (2 : ℚ) ^ (e - 1) := by
    have hbits : (m : ℚ) < 2 ^ 53 := by exact_mod_cast h.bits
    rw [dyadic, two_zpow_half e] at hpower
    nlinarith
  refine candidate?_none hm hnone k (rounds_of_half (.of_lt ?_ ?_) ?_)
  · linarith
  · linarith
  · intro hpowerOfTwo _
    have hquarter : (0 : ℚ) < (2 : ℚ) ^ (e - 2) := zpow_pos (by norm_num) _
    have hmantissa : (m : ℚ) = 2 ^ 52 := by exact_mod_cast hpowerOfTwo
    have hfiner : (10 : ℚ) ^ gridExponent m e 17 / 2 ≤ (2 : ℚ) ^ (e - 2) := by
      rw [dyadic, hmantissa, two_zpow_half e, two_zpow_quarter e] at hpower
      linarith
    linarith

/-! ## Shortest digits -/

theorem findSome?_range_eq_some {α : Type} {f : Nat → Option α} {n : Nat} {a : α}
    (h : (List.range n).findSome? f = some a) : ∃ c, f c = some a ∧ ∀ j < c, f j = none := by
  induction n with
  | zero => cases h
  | succ n ih =>
    rw [List.range_succ, List.findSome?_append] at h
    cases hfirst : (List.range n).findSome? f with
    | some b =>
      rw [hfirst] at h
      exact ih (hfirst.trans h)
    | none =>
      rw [hfirst, Option.none_or, List.findSome?_singleton] at h
      exact ⟨n, h, fun j hj => List.findSome?_eq_none_iff.mp hfirst j (List.mem_range.mpr hj)⟩

/-- The shortest digits are those of the first candidate, without the zeros at their end. -/
theorem shortest_spec (hm : m ≠ 0) (h : Normal m e) : ∃ count n p, 0 < count ∧ candidate? m e count = some (n, p) ∧
    (∀ c, 0 < c → c < count → candidate? m e c = none) ∧ shortest m e = stripAllZeros n p := by
  rw [shortest, if_neg hm]
  cases hfound : (List.range 17).findSome? fun count => candidate? m e (count + 1) with
  | none => exact (candidate?_seventeen hm h (List.findSome?_eq_none_iff.mp hfound 16 (by decide))).elim
  | some found =>
    obtain ⟨count, hcandidate, hfirst⟩ := findSome?_range_eq_some hfound
    refine ⟨count + 1, found.1, found.2, Nat.succ_pos _, hcandidate, fun c hpos hc => ?_, rfl⟩
    obtain ⟨c, rfl⟩ := Nat.exists_eq_add_one_of_ne_zero hpos.ne'
    exact hfirst c (by omega)

theorem stripZeros_spec (fuel n : Nat) (p : Int) : ∃ j : Nat, n = (stripZeros fuel n p).1 * 10 ^ j ∧
    (stripZeros fuel n p).2 = p + j ∧ (n < 10 ^ fuel → n ≠ 0 → (stripZeros fuel n p).1 % 10 ≠ 0) := by
  induction fuel generalizing n p with
  | zero => exact ⟨0, by simp [stripZeros], by simp [stripZeros], fun hlt hn => absurd hlt (by omega)⟩
  | succ fuel ih =>
    rw [stripZeros]
    split
    next hten =>
      obtain ⟨k, rfl⟩ := Nat.dvd_of_mod_eq_zero hten.2
      rw [Nat.mul_div_cancel_left _ (by decide)]
      obtain ⟨j, hj, hp, hlast⟩ := ih k (p + 1)
      refine ⟨j + 1, ?_, ?_, fun hlt hne => hlast ?_ ?_⟩
      · rw [Nat.pow_succ, ← Nat.mul_assoc, ← hj, Nat.mul_comm]
      · rw [hp]
        push_cast
        ring
      · rw [Nat.pow_succ] at hlt
        omega
      · omega
    next hten =>
      exact ⟨0, by simp, by simp, fun _ hn => fun hlast => hten ⟨hn, hlast⟩⟩

/-- The digits without the zeros at their end. -/
theorem stripAllZeros_spec {n : Nat} (hn : n ≠ 0) (p : Int) : ∃ j : Nat, n = (stripAllZeros n p).1 * 10 ^ j ∧
    (stripAllZeros n p).2 = p + j ∧ (stripAllZeros n p).1 % 10 ≠ 0 := by
  obtain ⟨j, hj, hp, hlast⟩ := stripZeros_spec (digitCount n) n p
  exact ⟨j, hj, hp, hlast (lt_pow_digitCount n) hn⟩

/-- A power of ten has one digit without its zeros. -/
theorem digitCount_of_stripped {n n' j count : Nat} (hcount : 0 < count) (hn : n = n' * 10 ^ j) (hlast : n' % 10 ≠ 0)
    (hle : n ≤ 10 ^ count) : digitCount n' ≤ count := by
  rw [digitCount_le_iff hcount]
  have hpow : 0 < 10 ^ j := Nat.pow_pos (by decide)
  have hle' : n' ≤ n := hn ▸ Nat.le_mul_of_pos_right n' hpow
  refine lt_of_le_of_ne (hle'.trans hle) ?_
  rintro rfl
  obtain ⟨c, rfl⟩ := Nat.exists_eq_add_one_of_ne_zero hcount.ne'
  rw [Nat.pow_succ] at hlast
  omega

end

section

variable {negative : Bool} {m : Nat} {e : Int} {d d' : Decimal} {q : ℚ}

theorem toRat_eq_abs (d : Decimal) : d.toRat = if d.negative then -|d.toRat| else |d.toRat| := by
  rw [abs_toRat, Decimal.toRat_eq, Decimal.signed]
  cases d.negative <;> simp

/-- The distance from a double of the same sign is that of the magnitudes. -/
theorem distance_eq (hd : d.negative = negative) (hq : (finite negative m e).toRat? = some q) :
    |d.toRat - q| = |(|d.toRat|) - dyadic m e| := by
  rw [toRat?_finite, Option.some.injEq] at hq
  have hvalue := toRat_eq_abs d
  rw [hd] at hvalue
  cases negative with
  | false =>
    simp only [Bool.false_eq_true, if_false] at hvalue hq
    rw [← hq, ← hvalue]
  | true =>
    simp only [if_true] at hvalue hq
    rw [← hq, hvalue, abs_neg, abs_abs, neg_sub_neg, abs_sub_comm]

/-- **A decimal with the digits of the first candidate** is compared with the points of its grid alone. -/
theorem exists_competitor (h : Legal m e) (hm : m ≠ 0) {count : Nat} (hcount : 0 < count)
    (hd : ofDecimal d = finite negative m e) (hdigits : digitCount d.coefficient ≤ count) :
    ∃ j : Nat, Rounds m e (j * (10 : ℚ) ^ gridExponent m e count) ∧
      (gridExponent m e count ≤ d.exponent ∧ j = d.coefficient * 10 ^ (d.exponent - gridExponent m e count).toNat ∧
          (j : ℚ) * (10 : ℚ) ^ gridExponent m e count = |d.toRat| ∨
        |j * (10 : ℚ) ^ gridExponent m e count - dyadic m e| < |(|d.toRat|) - dyadic m e|) := by
  have hrounds := ((ofDecimal_eq_iff h).mp hd).2
  rw [abs_toRat] at hrounds ⊢
  exact exists_onGrid hm h.least hcount ((digitCount_le_iff hcount).mp hdigits) hrounds

/-- The shortest decimal of zero has a single digit. -/
theorem isShortest_zero (negative : Bool) : IsShortest (finite negative 0 minExponent) ⟨negative, 0, 0⟩ := by
  have hvalue : ∀ q, (finite negative 0 minExponent).toRat? = some q → q = 0 := by
    intro q hq
    rw [toRat?_finite, dyadic_eq_zero.mpr rfl, neg_zero, ite_self, Option.some.injEq] at hq
    exact hq.symm
  have hzero : (⟨negative, 0, 0⟩ : Decimal).toRat = 0 := by simp [Decimal.toRat_eq, Decimal.signed]
  refine ⟨rfl, fun d' _ => (show digitCount 0 = 1 from rfl).trans_le (digitCount_pos _), fun q hq d' _ _ => ?_,
    fun q hq d' _ _ heq => .inl ?_⟩
  · rw [hvalue q hq, hzero, sub_zero, abs_zero]
    exact abs_nonneg _
  · rw [hvalue q hq, hzero, sub_zero, sub_zero, abs_zero] at heq
    rw [hzero, abs_eq_zero.mp heq.symm]

theorem not_rounds_zero (hm : m ≠ 0) : ¬ Rounds m e 0 := by
  intro hzero
  have hone : (1 : ℚ) ≤ m := by exact_mod_cast Nat.one_le_iff_ne_zero.mpr hm
  have hunit : (0 : ℚ) < (2 : ℚ) ^ (e - 1) := zpow_pos (by norm_num) _
  have hlow := hzero.half.le.1
  rw [dyadic, two_zpow_half e] at hlow
  nlinarith

/-- An even natural that is next to a natural on a coarser grid has an even last digit on that grid as well. -/
theorem two_dvd_align {n digits zeros j : Nat} {exponent grid : Int} (hzeros : n = digits * 10 ^ zeros)
    (hexponent : exponent = grid + zeros) (heven : n % 2 = 0) (hadjacent : j = n + 1 ∨ n = j + 1)
    (hgrid : grid ≤ d.exponent) (hj : j = d.coefficient * 10 ^ (d.exponent - grid).toNat) :
    2 ∣ (Decimal.align ⟨negative, digits, exponent⟩ d).1 := by
  rw [Decimal.align]
  dsimp only
  by_cases hfiner : d.exponent < exponent
  · obtain ⟨k, hk⟩ : ∃ k, (exponent - min exponent d.exponent).toNat = k + 1 := ⟨(exponent - d.exponent).toNat - 1, by omega⟩
    rw [hk, Nat.pow_succ]
    exact Dvd.dvd.mul_left (Dvd.dvd.mul_left (by decide) _) _
  · rw [show (exponent - min exponent d.exponent).toNat = 0 by omega, Nat.pow_zero, Nat.mul_one]
    cases zeros with
    | zero =>
      rw [Nat.pow_zero, Nat.mul_one] at hzeros
      exact hzeros ▸ Nat.dvd_of_mod_eq_zero heven
    | succ zeros =>
      -- both would be multiples of ten
      obtain ⟨k, hk⟩ : ∃ k, (d.exponent - grid).toNat = k + 1 := ⟨(d.exponent - grid).toNat - 1, by omega⟩
      rw [hk, Nat.pow_succ, ← Nat.mul_assoc] at hj
      rw [Nat.pow_succ, ← Nat.mul_assoc] at hzeros
      omega

/-- **The digits that are found are the shortest.** -/
theorem isShortest_shortest (h : Legal m e) (hm : m ≠ 0) (negative : Bool) :
    IsShortest (finite negative m e) ⟨negative, (shortest m e).1, (shortest m e).2⟩ := by
  obtain ⟨count, n, p, hcount, hcandidate, hfirst, hshortest⟩ := shortest_spec hm h.normal
  obtain ⟨rfl, hrounds, hbest⟩ := candidate?_some hm hcandidate
  have hn : n ≠ 0 := by
    rintro rfl
    rw [Nat.cast_zero, zero_mul] at hrounds
    exact not_rounds_zero hm hrounds
  have hleast : ∀ j : Nat, Rounds m e (j * (10 : ℚ) ^ gridExponent m e count) →
      |n * (10 : ℚ) ^ gridExponent m e count - dyadic m e| ≤ |j * (10 : ℚ) ^ gridExponent m e count - dyadic m e| := by
    intro j hj
    rcases hbest j hj with hlt | rfl | ⟨heq, -⟩
    · exact hlt.le
    · exact le_rfl
    · exact heq.le
  obtain ⟨zeros, hzeros, hexponent, hlast⟩ := stripAllZeros_spec hn (gridExponent m e count)
  rw [hshortest]
  generalize stripAllZeros n (gridExponent m e count) = stripped at hzeros hexponent hlast ⊢
  obtain ⟨digits, exponent⟩ := stripped
  dsimp only at hzeros hexponent hlast ⊢
  have hdigits : digitCount digits ≤ count :=
    digitCount_of_stripped hcount hzeros hlast (candidate?_le hm h.least hcandidate)
  have hvalue : |(⟨negative, digits, exponent⟩ : Decimal).toRat| = n * (10 : ℚ) ^ gridExponent m e count := by
    rw [abs_toRat, hzeros, hexponent, zpow_add₀ (by norm_num), zpow_natCast]
    push_cast
    ring
  refine ⟨(ofDecimal_eq_iff h).mpr ⟨rfl, hvalue ▸ hrounds⟩, fun d' hd' => ?_, fun q hq d' hd' hle => ?_,
    fun q hq d' hd' hle heq => ?_⟩
  · -- fewer digits would have given a candidate earlier
    by_contra hlt
    obtain ⟨j, hj, -⟩ := exists_competitor h hm (digitCount_pos _) hd' le_rfl
    exact candidate?_none hm (hfirst _ (digitCount_pos _) ((Nat.lt_of_not_le hlt).trans_le hdigits)) j hj
  · obtain ⟨j, hj, hnear⟩ := exists_competitor h hm hcount hd' (hle.trans hdigits)
    rw [distance_eq rfl hq, distance_eq ((ofDecimal_eq_iff h).mp hd').1 hq, hvalue]
    refine (hleast j hj).trans ?_
    rcases hnear with ⟨-, -, hsame⟩ | hlt
    · rw [hsame]
    · exact hlt.le
  · obtain ⟨j, hj, hnear⟩ := exists_competitor h hm hcount hd' (hle.trans hdigits)
    have hsign := ((ofDecimal_eq_iff h).mp hd').1
    rw [distance_eq rfl hq, distance_eq hsign hq, hvalue] at heq
    rcases hnear with ⟨hgrid, hj', hsame⟩ | hlt
    · rw [← hsame] at heq
      rcases hbest j hj with hlt | rfl | ⟨-, heven, hadjacent⟩
      · exact absurd heq hlt.ne
      · left
        rw [toRat_eq_abs, toRat_eq_abs d', hsign, hvalue, hsame]
      · exact .inr (two_dvd_align hzeros hexponent heven hadjacent hgrid hj')
    · exact absurd heq ((hleast j hj).trans_lt hlt).ne

/-- **Every finite double has a shortest decimal**, which is the one it is divided as. -/
theorem isShortest_toDecimal? {x : Double} (hx : x.IsCanonical) (hfinite : x.isFinite = true) :
    ∃ d, x.toDecimal? = some d ∧ IsShortest x d := by
  cases x with
  | nan | infinity => cases hfinite
  | finite negative m e =>
    refine ⟨⟨negative, (shortest m e).1, (shortest m e).2⟩, rfl, ?_⟩
    by_cases hm : m = 0
    · subst hm
      obtain rfl : e = minExponent := by
        by_contra hne
        have hleading := hx.leading (lt_of_le_of_ne hx.least (Ne.symm hne))
        omega
      exact isShortest_zero negative
    · exact isShortest_shortest hx hm negative

/-- A step on the grid of a decimal towards the double reads back and is nearer. -/
theorem IsShortest.not_step {a : Decimal} (h : Legal m e) (ha : IsShortest (finite negative m e) a) {k : Nat}
    (hdigits : digitCount k ≤ digitCount a.coefficient)
    (hstep : a.coefficient < k ∧ k * (10 : ℚ) ^ a.exponent ≤ dyadic m e ∨
      k < a.coefficient ∧ dyadic m e ≤ k * (10 : ℚ) ^ a.exponent) : False := by
  obtain ⟨hsign, hrounds⟩ := (ofDecimal_eq_iff h).mp ha.readsBack
  have hunit : (0 : ℚ) < (10 : ℚ) ^ a.exponent := zpow_pos (by norm_num) _
  have hvalue : |(⟨negative, k, a.exponent⟩ : Decimal).toRat| = k * (10 : ℚ) ^ a.exponent := abs_toRat _
  have hnearer : ofDecimal ⟨negative, k, a.exponent⟩ = finite negative m e →
      ¬ |k * (10 : ℚ) ^ a.exponent - dyadic m e| < |a.coefficient * (10 : ℚ) ^ a.exponent - dyadic m e| := by
    intro hreads
    have hle := ha.nearest _ (toRat?_finite negative m e) _ hreads hdigits
    rw [distance_eq hsign (toRat?_finite negative m e), distance_eq rfl (toRat?_finite negative m e), hvalue,
      abs_toRat] at hle
    exact not_lt.mpr hle
  rw [abs_toRat] at hrounds
  rw [ofDecimal_eq_iff h, hvalue] at hnearer
  rcases hstep with ⟨hlt, hside⟩ | ⟨hlt, hside⟩
  · have hlt' : (a.coefficient : ℚ) * (10 : ℚ) ^ a.exponent < k * (10 : ℚ) ^ a.exponent :=
      mul_lt_mul_of_pos_right (by exact_mod_cast hlt) hunit
    refine hnearer ⟨rfl, hrounds.towards (.inl ⟨hlt'.le, hside⟩)⟩ ?_
    rw [abs_of_nonpos (by linarith), abs_of_nonpos (by linarith)]
    linarith
  · have hlt' : (k : ℚ) * (10 : ℚ) ^ a.exponent < a.coefficient * (10 : ℚ) ^ a.exponent :=
      mul_lt_mul_of_pos_right (by exact_mod_cast hlt) hunit
    refine hnearer ⟨rfl, hrounds.towards (.inr ⟨hside, hlt'.le⟩)⟩ ?_
    rw [abs_of_nonneg (by linarith), abs_of_nonneg (by linarith)]
    linarith

/-- Two shortest decimals with different values would be as near and even, and one could step towards the double. -/
theorem IsShortest.toRat_eq_of_le {a b : Decimal} (h : Legal m e) (ha : IsShortest (finite negative m e) a)
    (hb : IsShortest (finite negative m e) b) (hle : a.exponent ≤ b.exponent) : a.toRat = b.toRat := by
  have hq := toRat?_finite negative m e
  obtain ⟨hsign, -⟩ := (ofDecimal_eq_iff h).mp ha.readsBack
  obtain ⟨hsign', -⟩ := (ofDecimal_eq_iff h).mp hb.readsBack
  have hdigits := hb.fewest a ha.readsBack
  have hdigits' := ha.fewest b hb.readsBack
  have hdistance := le_antisymm (ha.nearest _ hq b hb.readsBack hdigits) (hb.nearest _ hq a ha.readsBack hdigits')
  rcases ha.even _ hq b hb.readsBack hdigits hdistance with heq | heven
  · exact heq
  rcases hb.even _ hq a ha.readsBack hdigits' hdistance.symm with heq | heven'
  · exact heq.symm
  -- both on the exponent of the first
  obtain ⟨B, hB⟩ : ∃ B, B = b.coefficient * 10 ^ (b.exponent - a.exponent).toNat := ⟨_, rfl⟩
  rw [Decimal.align, Int.min_eq_left hle, Int.sub_self, Int.toNat_zero, Nat.pow_zero, Nat.mul_one] at heven
  rw [Decimal.align, Int.min_eq_right hle, ← hB] at heven'
  dsimp only at heven heven'
  have hvalue : |b.toRat| = B * (10 : ℚ) ^ a.exponent := by
    rw [abs_toRat, hB, Nat.cast_mul, Nat.cast_pow, Nat.cast_ofNat, mul_assoc, ← zpow_natCast, ← zpow_add₀ (by norm_num)]
    congr 2
    omega
  rw [distance_eq hsign hq, distance_eq hsign' hq, abs_toRat, hvalue] at hdistance
  have hunit : (0 : ℚ) < (10 : ℚ) ^ a.exponent := zpow_pos (by norm_num) _
  obtain ⟨c, hc⟩ := Nat.exists_eq_add_one_of_ne_zero (digitCount_pos a.coefficient).ne'
  have hlimit := lt_pow_digitCount a.coefficient
  rcases abs_eq_abs.mp hdistance with hsame | hopposite
  · have hsame' : |a.toRat| = |b.toRat| := by
      rw [abs_toRat a, hvalue]
      linarith
    rw [toRat_eq_abs a, toRat_eq_abs b, hsign, hsign', hsame']
  obtain hlt | heq | hgt := Nat.lt_trichotomy a.coefficient B
  · refine (ha.not_step h (k := a.coefficient + 1) ?_ (.inl ⟨Nat.lt_succ_self _, ?_⟩)).elim
    · rw [hc, digitCount_le_iff (Nat.succ_pos c), Nat.pow_succ]
      rw [hc, Nat.pow_succ] at hlimit
      omega
    · have hstep : ((a.coefficient + 1 : Nat) : ℚ) + 1 ≤ B := by exact_mod_cast (by omega : a.coefficient + 1 + 1 ≤ B)
      push_cast at hstep ⊢
      nlinarith
  · rw [toRat_eq_abs a, toRat_eq_abs b, hsign, hsign', hvalue, abs_toRat a, heq]
  · refine (ha.not_step h (k := a.coefficient - 1) ?_ (.inr ⟨by omega, ?_⟩)).elim
    · exact (digitCount_le_iff (digitCount_pos _)).mpr (by omega)
    · have hstep : (B : ℚ) + 1 ≤ ((a.coefficient - 1 : Nat) : ℚ) := by exact_mod_cast (by omega : B + 1 ≤ a.coefficient - 1)
      have hpred : (a.coefficient : ℚ) = ((a.coefficient - 1 : Nat) : ℚ) + 1 := by
        exact_mod_cast (by omega : a.coefficient = a.coefficient - 1 + 1)
      nlinarith

/-- **The shortest decimal has one value**, however it is written. -/
theorem IsShortest.toRat_eq {x : Double} {a b : Decimal} (hx : x.IsCanonical) (hfinite : x.isFinite = true)
    (ha : IsShortest x a) (hb : IsShortest x b) : a.toRat = b.toRat := by
  cases x with
  | nan | infinity => cases hfinite
  | finite negative m e =>
    rcases Int.le_total a.exponent b.exponent with hle | hle
    · exact ha.toRat_eq_of_le hx hb hle
    · exact (hb.toRat_eq_of_le hx ha hle).symm

end

end Double

end Schemata
