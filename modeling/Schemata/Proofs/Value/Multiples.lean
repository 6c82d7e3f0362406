import Schemata.Proofs.Number.Shortest
import Schemata.Proofs.Value.Exact

/-!
# `Schemata.Proofs.Value.Multiples` — which number is a multiple of which

An integer stands for itself, and a double for its shortest decimal, so that `0.0075` is a multiple of `0.0001`. Between
finite numbers the question is answered exactly, whatever their exponents are: the precision that is worked with is
enough for every quotient, and two integers that are divided directly have the answer of their decimals.

## Contents
- **Finite numbers.** `IsFiniteNumber`, and `StandsFor`, the value that takes part in a division.
- **Multiples.** `isMultipleOf_exact`.
-/

namespace Schemata

namespace Value

/-! ## Finite numbers -/

/-- A finite number: an integer that can be written, or a finite double in its one form. -/
inductive IsFiniteNumber : Value → Prop
  | int {n : Int} (writable : isWritableInt n = true) : IsFiniteNumber (.int n)
  | float {x : Double} (form : x.IsCanonical) (finite : x.isFinite = true) : IsFiniteNumber (.float x)

/-- The value with which a number takes part in a division: that of an integer, or that of the shortest decimal of a
double. -/
inductive StandsFor : Value → ℚ → Prop
  | int {n : Int} {q : ℚ} (value : q = n) : StandsFor (.int n) q
  | float {x : Double} {d : Decimal} {q : ℚ} (shortest : x.IsShortest d) (value : q = d.toRat) : StandsFor (.float x) q

variable {v divisor : Value} {p q : ℚ}

/-- A finite number stands for one value. -/
theorem StandsFor.unique (hp : v.StandsFor p) (hq : v.StandsFor q) (hv : v.IsFiniteNumber) : p = q := by
  cases hv with
  | int =>
    cases hp with
    | int hp => cases hq with
      | int hq => rw [hp, hq]
  | float form finite =>
    cases hp with
    | float ha hp => cases hq with
      | float hb hq => rw [hp, hq, ha.toRat_eq form finite hb]

/-- **A finite number is divided as a decimal** that has the value for which it stands. -/
theorem IsFiniteNumber.operand (hv : v.IsFiniteNumber) :
    ∃ d : Decimal, v.operand? = .ok (some (.decimal d)) ∧ v.StandsFor d.toRat := by
  cases hv with
  | @int n writable =>
    exact ⟨.ofInt n, by rw [operand?, if_pos writable], .int (Decimal.toRat_ofInt n)⟩
  | @float x form finite =>
    obtain ⟨d, hd, hshortest⟩ := Double.isShortest_toDecimal? form finite
    refine ⟨d, ?_, .float hshortest rfl⟩
    cases x with
    | nan | infinity => cases finite
    | finite negative m e => rw [operand?, Operand.ofDouble, hd]

/-- The shortest decimal of a double is zero only if the double is. -/
theorem StandsFor.ne_zero (h : divisor.StandsFor q) (hfinite : divisor.IsFiniteNumber)
    (hnonzero : divisor.quantity? ≠ some (.ofInt 0)) : q ≠ 0 := by
  rintro rfl
  cases h with
  | @int n _ value =>
    obtain rfl : n = 0 := by exact_mod_cast value.symm
    exact hnonzero rfl
  | @float x d _ shortest value =>
    have hzero : d.coefficient = 0 := by
      rw [← Decimal.natAbs_signed, Int.natAbs_eq_zero]
      have hmul := value.symm
      rw [Decimal.toRat_eq, mul_eq_zero, or_iff_left (zpow_ne_zero _ (by norm_num))] at hmul
      exact_mod_cast hmul
    have hx : Double.finite d.negative 0 Double.minExponent = x := by
      rw [← shortest.readsBack, Double.ofDecimal, if_pos hzero]
    refine hnonzero ?_
    rw [← hx, quantity?_float (Double.toRat?_finite ..), Double.dyadic_eq_zero.mpr rfl, neg_zero, ite_self, Quantity.ofInt,
      Int.cast_zero]

theorem isZeroNumber_iff : divisor.isZeroNumber = true ↔ divisor.quantity? = some (.ofInt 0) := by
  rw [isZeroNumber]
  cases divisor.quantity? with
  | none => simp
  | some quantity => cases quantity <;> simp [Quantity.same, Quantity.ofInt]

/-! ## Multiples -/

/-- **Both ways of dividing agree**: two integers are divided directly with the answer that their decimals have. -/
theorem isMultipleOf_eq {a b : Decimal} (hv : v.operand? = .ok (some (.decimal a)))
    (hdivisor : divisor.operand? = .ok (some (.decimal b))) (hv' : v.IsFiniteNumber) (hdivisor' : divisor.IsFiniteNumber)
    (hnonzero : divisor.quantity? ≠ some (.ofInt 0)) :
    v.isMultipleOf divisor = .ok (isMultiple (.decimal b) (.decimal a)) := by
  have hstep : divisor.isZeroNumber = false := by rw [← Bool.not_eq_true, isZeroNumber_iff]; exact hnonzero
  unfold isMultipleOf
  rw [hstep, if_neg Bool.false_ne_true, hv, hdivisor]
  cases hv' with
  | @int n writable =>
    cases hdivisor' with
    | @int k writable' =>
      rw [operand?, if_pos writable, Except.ok.injEq, Option.some.injEq, Operand.decimal.injEq] at hv
      rw [operand?, if_pos writable', Except.ok.injEq, Option.some.injEq, Operand.decimal.injEq] at hdivisor
      have hk : k ≠ 0 := by
        rintro rfl
        exact hnonzero rfl
      rw [← hv, ← hdivisor, isMultiple_ofInt hk]
      rfl
    | float => rfl
  | float => rfl

/-- Nothing that is infinite or no number is a multiple of a number. -/
theorem isMultipleOf_not_finite {x : Double} (hx : x.isFinite = false) (hdivisor : divisor.kind = some .number)
    (hwritable : divisor.isWritable = true) : (Value.float x).isMultipleOf divisor = .ok false := by
  have hstep : ∃ step, divisor.operand? = .ok (some step) := by
    rcases number_of_kind hdivisor with ⟨k, rfl⟩ | ⟨y, rfl⟩
    · have hk : isWritableInt k = true := by simpa [isWritable] using hwritable
      exact ⟨_, by rw [operand?, if_pos hk]⟩
    · exact ⟨_, rfl⟩
  obtain ⟨step, hstep⟩ := hstep
  have hnever : ∀ dividend, dividend = Operand.undefined ∨ dividend = .infinite → isMultiple step dividend = false := by
    rintro _ (rfl | rfl) <;> rfl
  have hoperand : Operand.ofDouble x = .undefined ∨ Operand.ofDouble x = .infinite := by
    cases x with
    | nan => exact .inl rfl
    | infinity => exact .inr rfl
    | finite => cases hx
  unfold isMultipleOf
  split
  · rfl
  · rw [hstep, ← hnever _ hoperand]
    rfl

/-- **Multiples are exact.** Between finite numbers, one is a multiple of another that is not zero exactly when the value for
which it stands is an integer times that of the other. A remainder is taken for their decimals in every case, it is zero
exactly for multiples, and two integers have the answer that their decimals have. Nothing is a multiple of zero, and
what is not finite is a multiple of nothing. -/
theorem isMultipleOf_exact (v divisor : Value) :
    (v.IsFiniteNumber → divisor.IsFiniteNumber → divisor.quantity? ≠ some (.ofInt 0) →
      (∃ p q, v.StandsFor p ∧ divisor.StandsFor q) ∧
        (∀ p q, v.StandsFor p → divisor.StandsFor q →
          ∃ answer, v.isMultipleOf divisor = .ok answer ∧ (answer = true ↔ ∃ k : Int, p = k * q)) ∧
        ∀ a b, v.operand? = .ok (some (.decimal a)) → divisor.operand? = .ok (some (.decimal b)) →
          v.StandsFor a.toRat ∧ divisor.StandsFor b.toRat ∧
            (∃ r, Decimal.remainder? (workingPrecision (.decimal b) (.decimal a)) a b = some r ∧
              (r.isZero = true ↔ ∃ k : Int, a.toRat = k * b.toRat)) ∧
            v.isMultipleOf divisor = .ok (isMultiple (.decimal b) (.decimal a))) ∧
      (divisor.quantity? = some (.ofInt 0) → v.isMultipleOf divisor = .ok false) ∧
      ∀ x, v = .float x → x.isFinite = false → divisor.kind = some .number → divisor.isWritable = true →
        v.isMultipleOf divisor = .ok false := by
  refine ⟨fun hv hdivisor hnonzero => ?_, fun hzero => ?_, ?_⟩
  · obtain ⟨a, ha, hvalue⟩ := hv.operand
    obtain ⟨b, hb, hvalue'⟩ := hdivisor.operand
    have hstep : b.isZero = false := by
      rw [← Bool.not_eq_true, Decimal.isZero_iff]
      exact hvalue'.ne_zero hdivisor hnonzero
    have heq := isMultipleOf_eq ha hb hv hdivisor hnonzero
    refine ⟨⟨_, _, hvalue, hvalue'⟩, fun p q hp hq => ⟨_, heq, ?_⟩, fun a' b' ha' hb' => ?_⟩
    · rw [isMultiple_iff, and_iff_right hstep, hp.unique hvalue hv, hq.unique hvalue' hdivisor]
    · rw [ha, Except.ok.injEq, Option.some.injEq, Operand.decimal.injEq] at ha'
      rw [hb, Except.ok.injEq, Option.some.injEq, Operand.decimal.injEq] at hb'
      subst ha'
      subst hb'
      refine ⟨hvalue, hvalue', ?_, heq⟩
      rw [Decimal.exists_mul_iff_dvd_align]
      exact Decimal.remainder?_isZero hstep (workingPrecision_pos _ _) (adjusted_lt_workingPrecision _ _)
  · rw [isMultipleOf, if_pos (isZeroNumber_iff.mpr hzero)]
  · rintro x rfl hx hkind hwritable
    exact isMultipleOf_not_finite hx hkind hwritable

/-- The double nearest to `0.0075` is a multiple of the one nearest to `0.0001`. -/
theorem isMultipleOf_exact_small :
    let v := Value.float (.ofDecimal ⟨false, 75, -4⟩)
    let divisor := Value.float (.ofDecimal ⟨false, 1, -4⟩)
    v.IsFiniteNumber ∧ divisor.IsFiniteNumber ∧ divisor.quantity? ≠ some (.ofInt 0) ∧ v.isMultipleOf divisor = .ok true := by
  intro v divisor
  have hv : v.IsFiniteNumber := .float (Double.isCanonical_ofDecimal _) (by decide +kernel)
  have hdivisor : divisor.IsFiniteNumber := .float (Double.isCanonical_ofDecimal _) (by decide +kernel)
  have hnonzero : divisor.quantity? ≠ some (.ofInt 0) := by decide +kernel
  have ha : v.operand? = .ok (some (.decimal ⟨false, 75, -4⟩)) := by decide +kernel
  have hb : divisor.operand? = .ok (some (.decimal ⟨false, 1, -4⟩)) := by decide +kernel
  obtain ⟨-, hexact, hdivision⟩ := (isMultipleOf_exact v divisor).1 hv hdivisor hnonzero
  obtain ⟨hp, hq, -, -⟩ := hdivision _ _ ha hb
  obtain ⟨answer, hanswer, hiff⟩ := hexact _ _ hp hq
  refine ⟨hv, hdivisor, hnonzero, ?_⟩
  rw [hanswer, hiff.mpr ⟨75, by norm_num [Decimal.toRat_eq, Decimal.signed]⟩]

end Value

end Schemata
