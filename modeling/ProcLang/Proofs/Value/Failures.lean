import ProcLang.Proofs.Value.Arithmetic

/-! # Failures of operators

To which kinds of values an operator applies, and for which values of these kinds it has no result. An
operation fails with the one error that its operands call for: a zero divisor comes before its scale,
and the sign of an exponent before its size.
-/

namespace ProcLang

set_option autoImplicit false

theorem maxExponent_lt_iff {n : Int} : maxExponent < n ↔ 2 ^ 32 - 1 < n := by
  rw [maxExponent]
  omega

theorem exponent?_eq_error_iff {n : Int} {error : ArithmeticError} : exponent? n = .error error ↔
    n < 0 ∧ error = .negativeExponent n ∨ maxExponent < n ∧ error = .exponentOutOfRange n := by
  unfold exponent?
  by_cases hNegative : n < 0
  · have hSmall : ¬ maxExponent < n := by omega
    simp [hNegative, hSmall, eq_comm]
  · by_cases hLarge : maxExponent < n <;> simp [hNegative, hLarge, eq_comm]

theorem Integer.divide_eq_error_iff {a b : Int} {error : ArithmeticError} :
    Integer.divide a b = .error error ↔ b = 0 ∧ error = .divisionByZero := by
  unfold Integer.divide
  split <;> simp_all [eq_comm]

theorem Integer.power_eq_error_iff {a n : Int} {error : ArithmeticError} :
    Integer.power a n = .error error ↔ exponent? n = .error error := by
  unfold Integer.power
  cases exponent? n <;> simp [bind, Except.bind, pure, Except.pure]

namespace Decimal

variable {a b : Decimal} {n : Int} {error : ArithmeticError}

theorem scaleFits_iff_pow {scale : Int} :
    scaleFits scale ↔ -2 ^ 63 ≤ scale ∧ scale < 2 ^ 63 := by
  rw [scaleFits_iff]
  norm_num

theorem power_eq_error_iff : a.power n = .error error ↔ exponent? n = .error error ∨
    0 ≤ n ∧ n ≤ maxExponent ∧ ¬ scaleFits (n * a.scale) ∧ error = .exponentOutOfRange n := by
  unfold power
  cases hExponent : exponent? n with
  | error error' =>
    have hRange : n < 0 ∨ maxExponent < n := by
      rcases exponent?_eq_error_iff.mp hExponent with ⟨hNegative, -⟩ | ⟨hLarge, -⟩
      · exact .inl hNegative
      · exact .inr hLarge
    have hOutside : ¬(0 ≤ n ∧ n ≤ maxExponent) := by omega
    simp [bind, Except.bind, ← and_assoc, hOutside]
  | ok exponent =>
    obtain ⟨rfl, hRange⟩ := exponent?_eq_ok_iff.mp hExponent
    simp only [bind, Except.bind, Int.mul_comm a.scale]
    split
    · rename_i hFits
      simp [hFits, pure, Except.pure]
    · rename_i hFits
      simp [hFits, hRange, throw, throwThe, MonadExceptOf.throw, eq_comm]

/-- The shift that a division reports when it is too far: the absolute value of the scale, but the
least scale of 64 bits has none and stands for itself. -/
def reportedShift (scale : Int) : Int :=
  if scale = -2 ^ 63 then scale else |scale|

theorem wrapScale_natAbs {scale : Int} (h : scaleFits scale) :
    wrapScale scale.natAbs = reportedShift scale := by
  rw [scaleFits_iff] at h
  unfold reportedShift
  split
  · rename_i hLeast
    subst hLeast
    rfl
  · rw [Int.abs_eq_natAbs]
    exact wrapScale_of_scaleFits (scaleFits_iff.mpr (by omega))

theorem divide_eq_error_iff (hb : scaleFits b.scale) : a.divide b = .error error ↔
    b.toRat = 0 ∧ error = .divisionByZero ∨
      b.toRat ≠ 0 ∧ maxExponent < |b.scale| ∧ error = .exponentOutOfRange (reportedShift b.scale) := by
  rw [Ne, toRat_eq_zero_iff, ← wrapScale_natAbs hb, Int.abs_eq_natAbs, Int.ofNat_lt]
  unfold divide
  by_cases hZero : b.unscaled = 0
  · simp [isZero, hZero, eq_comm]
  · by_cases hFar : maxExponent < b.scale.natAbs
    · simp [isZero, hZero, hFar, eq_comm]
    · by_cases hScale : 0 ≤ b.scale <;> simp [isZero, hZero, hFar, hScale]

end Decimal

namespace Operator

variable {operator : Operator} {left right value : Value} {error : ArithmeticError}

/-- The kinds of values that an operator applies to. -/
def AppliesTo (operator : Operator) (left right : Tag) : Prop :=
  match operator with
  | equal | notEqual => True
  | less | greater => left = right ∧ left ∈ [.integer, .decimal, .character, .string]
  | and | or => left = .boolean ∧ right = .boolean
  | add => left = .string ∨ right = .string ∨ left = right ∧ left ∈ [.integer, .decimal]
  | subtract | multiply | divide => left = right ∧ left ∈ [.integer, .decimal]
  | power => left ∈ [.integer, .decimal] ∧ right = .integer

/-- Operands of the right kinds for which an operator has no result, and the error that they cause. -/
inductive Fails : Operator → Value → Value → ArithmeticError → Prop where
  | integerByZero (a : Int) : Fails divide (.integer a) (.integer 0) .divisionByZero
  | decimalByZero (a : Decimal) {b : Decimal} (hZero : b.toRat = 0) :
      Fails divide (.decimal a) (.decimal b) .divisionByZero
  | divisorScale (a : Decimal) {b : Decimal} (hDivisor : b.toRat ≠ 0) (hFar : 2 ^ 32 - 1 < |b.scale|) :
      Fails divide (.decimal a) (.decimal b) (.exponentOutOfRange (Decimal.reportedShift b.scale))
  | negativeExponent {base : Value} {n : Int} (hBase : base.tag ∈ [.integer, .decimal])
      (hNegative : n < 0) : Fails power base (.integer n) (.negativeExponent n)
  | largeExponent {base : Value} {n : Int} (hBase : base.tag ∈ [.integer, .decimal])
      (hLarge : 2 ^ 32 - 1 < n) : Fails power base (.integer n) (.exponentOutOfRange n)
  | powerScale {base : Decimal} {n : Int} (hExponent : 0 ≤ n)
      (hScale : ¬(-2 ^ 63 ≤ n * base.scale ∧ n * base.scale < 2 ^ 63)) :
      Fails power (.decimal base) (.integer n) (.exponentOutOfRange n)

theorem result?_isSome_iff :
    (operator.result? left right).isSome ↔ operator.AppliesTo left.tag right.tag := by
  cases operator <;> cases left <;> cases right <;>
    simp [result?, AppliesTo, Value.tag, Value.isString, Value.order?]

theorem map_eq_error_iff {α β : Type} {f : α → β} {result : Except ArithmeticError α} :
    result.map f = .error error ↔ result = .error error := by
  cases result <;> simp [Except.map]

theorem fails_divide_integer_iff {a b : Int} :
    Fails divide (.integer a) (.integer b) error ↔ Integer.divide a b = .error error := by
  rw [Integer.divide_eq_error_iff]
  constructor
  · rintro ⟨⟩
    exact ⟨rfl, rfl⟩
  · rintro ⟨rfl, rfl⟩
    exact .integerByZero a

theorem fails_divide_decimal_iff {a b : Decimal} (hb : Decimal.scaleFits b.scale) :
    Fails divide (.decimal a) (.decimal b) error ↔ a.divide b = .error error := by
  rw [Decimal.divide_eq_error_iff hb, maxExponent_lt_iff]
  constructor
  · rintro ⟨⟩
    case decimalByZero hZero => exact .inl ⟨hZero, rfl⟩
    case divisorScale hDivisor hFar => exact .inr ⟨hDivisor, hFar, rfl⟩
  · rintro (⟨hZero, rfl⟩ | ⟨hDivisor, hFar, rfl⟩)
    · exact .decimalByZero a hZero
    · exact .divisorScale a hDivisor hFar

theorem fails_power_integer_iff {a n : Int} :
    Fails power (.integer a) (.integer n) error ↔ Integer.power a n = .error error := by
  rw [Integer.power_eq_error_iff, exponent?_eq_error_iff, maxExponent_lt_iff]
  constructor
  · rintro ⟨⟩
    case negativeExponent _ hNegative => exact .inl ⟨hNegative, rfl⟩
    case largeExponent _ hLarge => exact .inr ⟨hLarge, rfl⟩
  · rintro (⟨hNegative, rfl⟩ | ⟨hLarge, rfl⟩)
    · exact .negativeExponent (by simp [Value.tag]) hNegative
    · exact .largeExponent (by simp [Value.tag]) hLarge

theorem fails_power_decimal_iff {a : Decimal} {n : Int} :
    Fails power (.decimal a) (.integer n) error ↔ a.power n = .error error := by
  rw [Decimal.power_eq_error_iff, exponent?_eq_error_iff, ← not_lt (b := n), maxExponent_lt_iff,
    Decimal.scaleFits_iff_pow]
  constructor
  · rintro ⟨⟩
    case negativeExponent _ hNegative => exact .inl (.inl ⟨hNegative, rfl⟩)
    case largeExponent _ hLarge => exact .inl (.inr ⟨hLarge, rfl⟩)
    case powerScale hLow hScale =>
      by_cases hLarge : 2 ^ 32 - 1 < n
      · exact .inl (.inr ⟨hLarge, rfl⟩)
      · exact .inr ⟨hLow, hLarge, hScale, rfl⟩
  · rintro ((⟨hNegative, rfl⟩ | ⟨hLarge, rfl⟩) | ⟨hLow, -, hScale, rfl⟩)
    · exact .negativeExponent (by simp [Value.tag]) hNegative
    · exact .largeExponent (by simp [Value.tag]) hLarge
    · exact .powerScale hLow hScale

/-- A failure has operands that the operator applies to. -/
theorem Fails.appliesTo (h : operator.Fails left right error) :
    operator.AppliesTo left.tag right.tag := by
  cases h <;> simp_all [AppliesTo, Value.tag]

theorem result?_eq_error_iff (hRight : right.Stored) :
    operator.result? left right = some (.error error) ↔ operator.Fails left right error := by
  by_cases hApplies : operator.AppliesTo left.tag right.tag
  · cases operator
    case divide =>
      obtain ⟨hTags, hLeft⟩ := hApplies
      cases left <;> cases right <;> simp [Value.tag] at hTags hLeft
      · simp [result?, map_eq_error_iff, fails_divide_integer_iff]
      · simp [result?, map_eq_error_iff, fails_divide_decimal_iff hRight]
    case power =>
      obtain ⟨hBase, hExponent⟩ := hApplies
      cases left <;> cases right <;> simp [Value.tag] at hBase hExponent
      · simp [result?, map_eq_error_iff, fails_power_integer_iff]
      · simp [result?, map_eq_error_iff, fails_power_decimal_iff]
    all_goals
      constructor
      · intro hError
        cases left <;> cases right <;> simp [result?, Value.order?, Value.isString, Value.tag] at hError
      · rintro ⟨⟩
  · have hNone := mt result?_isSome_iff.mp hApplies
    constructor
    · intro hError
      simp [hError] at hNone
    · intro hFails
      exact absurd hFails.appliesTo hApplies

/-- What an operator does to two values is settled by their kinds and by its failures. -/
theorem failures_exact (hRight : right.Stored) :
    (∀ error, operator.evaluate left right = .error (.arithmetic error) ↔
      operator.Fails left right error) ∧
    ((∃ value, operator.evaluate left right = .ok value) ↔
      operator.AppliesTo left.tag right.tag ∧ ∀ error, ¬ operator.Fails left right error) ∧
    ∀ operator' tag tag', operator.evaluate left right = .error (.invalidOperands operator' tag tag') ↔
      ¬ operator.AppliesTo left.tag right.tag ∧
        operator' = operator ∧ tag = left.tag ∧ tag' = right.tag := by
  simp only [← result?_eq_error_iff hRight, ← result?_isSome_iff]
  unfold evaluate
  cases hResult : operator.result? left right with
  | none => simp [eq_comm]
  | some result => cases result <;> simp

/-- A divisor of scale -5000000000 shifts too far, unless it is zero. -/
theorem failures_exact_shift :
    (Value.decimal ⟨3, -5000000000⟩).Stored ∧
      divide.evaluate (.decimal ⟨1, 0⟩) (.decimal ⟨3, -5000000000⟩) =
        .error (.arithmetic (.exponentOutOfRange 5000000000)) ∧
      (Value.decimal ⟨0, -5000000000⟩).Stored ∧
      divide.evaluate (.decimal ⟨1, 0⟩) (.decimal ⟨0, -5000000000⟩) =
        .error (.arithmetic .divisionByZero) := by
  have hDivisor : (Value.decimal ⟨3, -5000000000⟩).Stored := rfl
  have hZero : (Value.decimal ⟨0, -5000000000⟩).Stored := rfl
  refine ⟨hDivisor, ?_, hZero, ?_⟩
  · refine ((failures_exact hDivisor).1 _).mpr (.divisorScale ⟨1, 0⟩ ?_ ?_)
    · simp [Decimal.toRat_eq_zero_iff]
    · decide
  · refine ((failures_exact hZero).1 _).mpr (.decimalByZero ⟨1, 0⟩ ?_)
    simp [Decimal.toRat_eq_zero_iff]

/-- The absolute value of the least scale is not the one that is reported. -/
theorem least_scale_misreported :
    ¬ ∀ a b : Decimal, (Value.decimal a).Stored → (Value.decimal b).Stored → b.toRat ≠ 0 →
      2 ^ 32 - 1 < |b.scale| → divide.evaluate (.decimal a) (.decimal b) =
        .error (.arithmetic (.exponentOutOfRange |b.scale|)) := by
  intro hClaim
  have hDivisor : Decimal.toRat ⟨1, -9223372036854775808⟩ ≠ 0 := by
    simp [Decimal.toRat_eq_zero_iff]
  have hStored : (Value.decimal ⟨1, -9223372036854775808⟩).Stored :=
    Decimal.scaleFits_iff.mpr (by decide)
  have hWrong := hClaim ⟨1, 0⟩ ⟨1, -9223372036854775808⟩ rfl hStored hDivisor (by decide)
  have hReported : divide.evaluate (.decimal ⟨1, 0⟩) (.decimal ⟨1, -9223372036854775808⟩) =
      .error (.arithmetic (.exponentOutOfRange (-9223372036854775808))) := rfl
  simp [hReported] at hWrong

end Operator

end ProcLang
