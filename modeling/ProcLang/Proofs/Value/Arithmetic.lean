import ProcLang.Proofs.Decimal.Exactness

/-! # Arithmetic on values

What operators other than `/` do to numbers: their results are the sums, differences, products and
powers themselves, in a form that can be stored. Only a product whose scale overflows is another
number.
-/

namespace ProcLang

set_option autoImplicit false

namespace Value

variable {value : Value} {x : ℚ}

/-- The number that a value stands for. -/
def number? : Value → Option ℚ
  | integer n => some n
  | decimal d => some d.toRat
  | _ => none

/-- A decimal is stored with a scale of 64 bits. -/
def Stored : Value → Prop
  | decimal d => Decimal.scaleFits d.scale
  | _ => True

theorem number?_eq_some_iff : value.number? = some x ↔
    (∃ n, value = integer n ∧ (n : ℚ) = x) ∨ (∃ d, value = decimal d ∧ d.toRat = x) := by
  cases value <;> simp [number?]

end Value

namespace Operator

variable {operator : Operator} {left right value : Value} {x y : ℚ}

theorem evaluate_eq_ok_iff : operator.evaluate left right = .ok value ↔
    operator.result? left right = some (.ok value) := by
  unfold evaluate
  split <;> simp_all

/-- Operands to which an operator on two numbers applies are both integers or both decimals. -/
theorem numbers_cases (hOperator : operator ∈ [add, subtract, multiply, divide])
    (hLeft : left.number? = some x) (hRight : right.number? = some y)
    (hValue : operator.result? left right = some (.ok value)) :
    (∃ a b : Int, left = .integer a ∧ right = .integer b ∧ x = a ∧ y = b) ∨
      (∃ a b : Decimal, left = .decimal a ∧ right = .decimal b ∧ x = a.toRat ∧ y = b.toRat) := by
  obtain ⟨a, rfl, rfl⟩ | ⟨a, rfl, rfl⟩ := Value.number?_eq_some_iff.mp hLeft <;>
    obtain ⟨b, rfl, rfl⟩ | ⟨b, rfl, rfl⟩ := Value.number?_eq_some_iff.mp hRight
  · exact .inl ⟨a, b, rfl, rfl, rfl, rfl⟩
  · simp only [List.mem_cons, List.not_mem_nil, or_false] at hOperator
    rcases hOperator with rfl | rfl | rfl | rfl <;> cases hValue
  · simp only [List.mem_cons, List.not_mem_nil, or_false] at hOperator
    rcases hOperator with rfl | rfl | rfl | rfl <;> cases hValue
  · exact .inr ⟨a, b, rfl, rfl, rfl, rfl⟩

theorem add_exact (hLeft : left.Stored) (hRight : right.Stored) (hx : left.number? = some x)
    (hy : right.number? = some y) (hValue : add.result? left right = some (.ok value)) :
    value.Stored ∧ value.number? = some (x + y) := by
  obtain ⟨a, b, rfl, rfl, rfl, rfl⟩ | ⟨a, b, rfl, rfl, rfl, rfl⟩ :=
    numbers_cases (by simp) hx hy hValue <;> cases hValue
  · simp [Value.Stored, Value.number?]
  · exact ⟨Decimal.scaleFits_add hLeft hRight, by simp [Value.number?, Decimal.toRat_add]⟩

theorem subtract_exact (hLeft : left.Stored) (hRight : right.Stored) (hx : left.number? = some x)
    (hy : right.number? = some y) (hValue : subtract.result? left right = some (.ok value)) :
    value.Stored ∧ value.number? = some (x - y) := by
  obtain ⟨a, b, rfl, rfl, rfl, rfl⟩ | ⟨a, b, rfl, rfl, rfl, rfl⟩ :=
    numbers_cases (by simp) hx hy hValue <;> cases hValue
  · simp [Value.Stored, Value.number?]
  · exact ⟨Decimal.scaleFits_subtract hLeft hRight, by
      simp [Value.number?, Decimal.toRat_subtract]⟩

/-- Whether the operands have a product whose scale takes more than 64 bits. -/
def Overflows (operator : Operator) (left right : Value) : Prop :=
  operator = .multiply ∧
    ∃ a b, left = .decimal a ∧ right = .decimal b ∧ ¬ Decimal.scaleFits (a.productScale b)

theorem multiply_exact_iff (hx : left.number? = some x) (hy : right.number? = some y)
    (hValue : multiply.result? left right = some (.ok value)) :
    value.Stored ∧ (value.number? = some (x * y) ↔ multiply.Overflows left right → x * y = 0) := by
  obtain ⟨a, b, rfl, rfl, rfl, rfl⟩ | ⟨a, b, rfl, rfl, rfl, rfl⟩ :=
    numbers_cases (by simp) hx hy hValue <;> cases hValue
  · simp [Value.Stored, Value.number?, Overflows]
  · have hExact := Decimal.toRat_multiply_eq_iff (a := a) (b := b)
    refine ⟨Decimal.scaleFits_multiply a b, ?_⟩
    simp only [Value.number?, Option.some.injEq, hExact, Overflows]
    grind

theorem power_exact {n : Int} (hx : left.number? = some x)
    (hValue : power.result? left (.integer n) = some (.ok value)) :
    value.Stored ∧ value.number? = some (x ^ n) := by
  obtain ⟨a, rfl, rfl⟩ | ⟨a, rfl, rfl⟩ := Value.number?_eq_some_iff.mp hx
  · simp only [result?, Option.some.injEq] at hValue
    cases hPower : Integer.power a n with
    | error error => simp [hPower, Except.map] at hValue
    | ok b =>
      simp only [hPower, Except.map, Except.ok.injEq] at hValue
      subst hValue
      simp [Value.Stored, Value.number?, Integer.of_power hPower]
  · simp only [result?, Option.some.injEq] at hValue
    cases hPower : a.power n with
    | error error => simp [hPower, Except.map] at hValue
    | ok d =>
      obtain ⟨hNumber, hStored⟩ := Decimal.of_power hPower
      simp only [hPower, Except.map, Except.ok.injEq] at hValue
      subst hValue
      simp [Value.Stored, Value.number?, hNumber, hStored]

/-- The number that the operands of an operator other than `/` give. -/
def ideal? (operator : Operator) (left right : Value) : Option ℚ :=
  match operator, left.number?, right with
  | .add, some x, right => right.number?.map (x + ·)
  | .subtract, some x, right => right.number?.map (x - ·)
  | .multiply, some x, right => right.number?.map (x * ·)
  | .power, some x, .integer n => some (x ^ n)
  | _, _, _ => none

/-- Sums, differences, products and powers are exact. Only where the scale of a product overflows the
result is another number, unless it is zero. -/
theorem arithmetic_exact (hLeft : left.Stored) (hRight : right.Stored)
    (hExact : operator.ideal? left right = some x)
    (hValue : operator.evaluate left right = .ok value) :
    value.Stored ∧ (value.number? = some x ↔ operator.Overflows left right → x = 0) := by
  rw [evaluate_eq_ok_iff] at hValue
  have hNone (hOther : operator ≠ multiply) : ¬ operator.Overflows left right :=
    fun hOverflows => hOther hOverflows.1
  unfold ideal? at hExact
  split at hExact
  case h_1 hNumber =>
    obtain ⟨y, hy, rfl⟩ := Option.map_eq_some_iff.mp hExact
    simpa [hNone] using add_exact hLeft hRight hNumber hy hValue
  case h_2 hNumber =>
    obtain ⟨y, hy, rfl⟩ := Option.map_eq_some_iff.mp hExact
    simpa [hNone] using subtract_exact hLeft hRight hNumber hy hValue
  case h_3 hNumber =>
    obtain ⟨y, hy, rfl⟩ := Option.map_eq_some_iff.mp hExact
    exact multiply_exact_iff hNumber hy hValue
  case h_4 hNumber =>
    cases hExact
    simpa [hNone] using power_exact hNumber hValue
  case h_5 => cases hExact

theorem arithmetic_exact_tenth :
    (Value.decimal ⟨1, 1⟩).Stored ∧ (Value.integer 3).Stored ∧
      power.ideal? (.decimal ⟨1, 1⟩) (.integer 3) = some (1 / 1000) ∧
      power.evaluate (.decimal ⟨1, 1⟩) (.integer 3) = .ok (.decimal ⟨1, 3⟩) ∧
      (Value.decimal ⟨1, 3⟩).number? = some (1 / 1000) := by
  have hExact : power.ideal? (.decimal ⟨1, 1⟩) (.integer 3) = some (1 / 1000) := by
    norm_num [ideal?, Value.number?, Decimal.toRat]
  have hValue : power.evaluate (.decimal ⟨1, 1⟩) (.integer 3) = .ok (.decimal ⟨1, 3⟩) := rfl
  have hLeft : (Value.decimal ⟨1, 1⟩).Stored := rfl
  have hRight : (Value.integer 3).Stored := trivial
  have hResult := arithmetic_exact hLeft hRight hExact hValue
  exact ⟨hLeft, hRight, hExact, hValue, hResult.2.mpr fun hOverflows => by cases hOverflows.1⟩

/-- The scale of a square can wrap around, and then the square is another number. -/
theorem product_overflows :
    ¬ ∀ (left right value : Value) (x : ℚ), left.Stored → right.Stored →
      multiply.ideal? left right = some x → multiply.evaluate left right = .ok value →
      value.number? = some x := by
  intro hClaim
  obtain ⟨d, hd⟩ : ∃ d : Decimal, d = ⟨2, 9223372036854775807⟩ := ⟨_, rfl⟩
  have hStored : (Value.decimal d).Stored := by subst hd; rfl
  have hNumber := hClaim (.decimal d) (.decimal d) (.decimal (d.multiply d)) _ hStored hStored rfl rfl
  rcases Decimal.toRat_multiply_eq_iff.mp (Option.some.inj hNumber) with hZero | hFits
  · rw [mul_self_eq_zero, Decimal.toRat_eq_zero_iff] at hZero
    subst hd
    cases hZero
  · subst hd
    cases hFits

end Operator

end ProcLang
