import Mathlib.Algebra.Order.Field.Basic
import Mathlib.Data.Rat.Cast.Order
import Mathlib.Tactic.FieldSimp
import Mathlib.Tactic.Linarith
import Mathlib.Tactic.Ring
import ProcLang.Value.Operation

/-! # Quotients of decimals

The quotient of two decimals is the number nearest to their exact quotient among those that have the
dividend's scale, and of two that are equally near the one with an even unscaled value. So it does
not depend on signs, whatever the scales are.
-/

namespace ProcLang

set_option autoImplicit false

/-- `n` is an integer nearest to `x`, and it is even if another one is as near. -/
structure NearestEven (x : ℚ) (n : Int) : Prop where
  near : |(n : ℚ) - x| ≤ 1 / 2
  even_of_tie : |(n : ℚ) - x| = 1 / 2 → Even n

namespace NearestEven

variable {x : ℚ} {n : Int}

theorem neg (h : NearestEven x n) : NearestEven (-x) (-n) := by
  have hSame : |((-n : Int) : ℚ) - -x| = |(n : ℚ) - x| := by
    rw [Int.cast_neg, neg_sub_neg, abs_sub_comm]
  constructor
  · rw [hSame]
    exact h.near
  · intro hTie
    rw [hSame] at hTie
    exact (h.even_of_tie hTie).neg

end NearestEven

theorem roundHalfEven_zero (d : Nat) : roundHalfEven 0 d = 0 := by
  simp [roundHalfEven]

/-- Twice a quotient is at most one divisor away from twice the dividend, and even if it is as far
away as that. -/
theorem roundHalfEven_bounds (n : Nat) {d : Nat} (hd : 0 < d) :
    2 * (roundHalfEven n d * d) ≤ 2 * n + d ∧ 2 * n ≤ 2 * (roundHalfEven n d * d) + d ∧
      (2 * (roundHalfEven n d * d) = 2 * n + d ∨ 2 * n = 2 * (roundHalfEven n d * d) + d →
        Even (roundHalfEven n d)) := by
  have hRest := Nat.mod_lt n hd
  have hSplit := Nat.div_add_mod' n d
  simp only [roundHalfEven, Nat.even_iff]
  split
  · rename_i hUp
    rw [Nat.add_mul, Nat.one_mul]
    omega
  · rename_i hDown
    omega

theorem nearestEven_roundHalfEven (n : Nat) {d : Nat} (hd : 0 < d) :
    NearestEven ((n : ℚ) / d) (roundHalfEven n d) := by
  obtain ⟨hLow, hHigh, hTie⟩ := roundHalfEven_bounds n hd
  have hPos : (0 : ℚ) < d := Nat.cast_pos.mpr hd
  have hError : ((roundHalfEven n d : Int) : ℚ) - n / d = (roundHalfEven n d * d - n) / d := by
    rw [Int.cast_natCast]
    field_simp
  have hAbs : |((roundHalfEven n d : Int) : ℚ) - n / d| =
      |(roundHalfEven n d * d - n : ℚ)| / d := by
    rw [hError, abs_div, abs_of_pos hPos]
  have hLow' : 2 * (roundHalfEven n d * d : ℚ) ≤ 2 * n + d := by exact_mod_cast hLow
  have hHigh' : (2 * n : ℚ) ≤ 2 * (roundHalfEven n d * d) + d := by exact_mod_cast hHigh
  constructor
  · rw [hAbs, div_le_iff₀ hPos, abs_le]
    constructor <;> linarith
  · intro hHalf
    rw [hAbs, div_eq_iff hPos.ne', abs_eq (by linarith)] at hHalf
    have hEnds : 2 * (roundHalfEven n d * d : ℚ) = 2 * n + d ∨
        (2 * n : ℚ) = 2 * (roundHalfEven n d * d) + d := by
      rcases hHalf with hHalf | hHalf
      · left
        linarith
      · right
        linarith
    exact (Int.even_coe_nat _).mpr (hTie (by exact_mod_cast hEnds))

theorem divideHalfEven_neg_left (n d : Int) : divideHalfEven (-n) d = -divideHalfEven n d := by
  simp only [divideHalfEven, Int.natAbs_neg]
  rcases eq_or_ne n 0 with rfl | hn
  · simp [roundHalfEven_zero]
  · have hSigns : (-n < 0 ↔ d < 0) ↔ ¬(n < 0 ↔ d < 0) := by omega
    simp only [hSigns]
    by_cases hSame : n < 0 ↔ d < 0 <;> simp [hSame]

theorem divideHalfEven_neg_right (n : Int) {d : Int} (hd : d ≠ 0) :
    divideHalfEven n (-d) = -divideHalfEven n d := by
  simp only [divideHalfEven, Int.natAbs_neg]
  have hSigns : (n < 0 ↔ -d < 0) ↔ ¬(n < 0 ↔ d < 0) := by omega
  simp only [hSigns]
  by_cases hSame : n < 0 ↔ d < 0 <;> simp [hSame]

theorem divideHalfEven_natCast (n d : Nat) :
    divideHalfEven (n : Int) (d : Int) = roundHalfEven n d := by
  have hSigns : (n : Int) < 0 ↔ (d : Int) < 0 := by omega
  simp only [divideHalfEven, if_pos hSigns, Int.natAbs_natCast]

theorem nearestEven_divideHalfEven (n : Int) {d : Int} (hd : d ≠ 0) :
    NearestEven ((n : ℚ) / d) (divideHalfEven n d) := by
  -- Signs are taken out first, so that only natural numbers are divided.
  have hNatural (m k : Nat) (hk : 0 < k) :
      NearestEven (((m : Int) : ℚ) / ((k : Int) : ℚ)) (divideHalfEven (m : Int) (k : Int)) := by
    simpa only [divideHalfEven_natCast, Int.cast_natCast] using nearestEven_roundHalfEven m hk
  have hLeft (k : Nat) (hk : 0 < k) :
      NearestEven ((n : ℚ) / ((k : Int) : ℚ)) (divideHalfEven n (k : Int)) := by
    obtain ⟨m, rfl | rfl⟩ := n.eq_nat_or_neg
    · exact hNatural m k hk
    · rw [divideHalfEven_neg_left, Int.cast_neg, neg_div]
      exact (hNatural m k hk).neg
  obtain ⟨k, rfl | rfl⟩ := d.eq_nat_or_neg
  · exact hLeft k (by omega)
  · have hk : (k : Int) ≠ 0 := by omega
    rw [divideHalfEven_neg_right n hk, Int.cast_neg, div_neg]
    exact (hLeft k (by omega)).neg

namespace Decimal

/-- The number that a decimal stands for. -/
def toRat (d : Decimal) : ℚ :=
  d.unscaled * (10 : ℚ) ^ (-d.scale)

instance : Neg Decimal :=
  ⟨fun d => ⟨-d.unscaled, d.scale⟩⟩

theorem cast_shift (n : Int) (k : Nat) : ((shift n k : Int) : ℚ) = n * 10 ^ k := by
  unfold shift
  split
  · rename_i hZero
    simp [hZero]
  · simp [tenPow]

theorem shift_neg (n : Int) (k : Nat) : shift (-n) k = -shift n k := by
  unfold shift
  by_cases hZero : n = 0 <;> simp [hZero]

theorem shift_ne_zero {n : Int} (h : n ≠ 0) (k : Nat) : shift n k ≠ 0 := by
  have hPow : (0 : Int) < tenPow k := by exact_mod_cast Nat.pow_pos (by decide)
  rw [shift, if_neg h]
  exact mul_ne_zero h hPow.ne'

/-- The integers whose quotient is rounded, one of which takes in the divisor's scale. -/
def numerator (a b : Decimal) : Int :=
  if 0 ≤ b.scale then shift a.unscaled b.scale.natAbs else a.unscaled

def denominator (b : Decimal) : Int :=
  if 0 ≤ b.scale then b.unscaled else shift b.unscaled b.scale.natAbs

variable {a b q : Decimal}

theorem divide_eq_ok_iff : a.divide b = .ok q ↔
    b.unscaled ≠ 0 ∧ b.scale.natAbs ≤ maxExponent ∧
      q = ⟨divideHalfEven (a.numerator b) b.denominator, a.scale⟩ := by
  unfold divide numerator denominator
  by_cases hZero : b.unscaled = 0
  · simp [isZero, hZero]
  · by_cases hExponent : maxExponent < b.scale.natAbs
    · simp [isZero, hZero, hExponent]
    · by_cases hScale : 0 ≤ b.scale <;>
        simp [isZero, hZero, hExponent, hScale, Nat.le_of_not_lt, eq_comm]

theorem denominator_ne_zero (h : b.unscaled ≠ 0) : b.denominator ≠ 0 := by
  unfold denominator
  split
  · exact h
  · exact shift_ne_zero h _

/-- The quotient in units of the last place that the dividend has. -/
theorem numerator_div_denominator (a b : Decimal) :
    (a.numerator b : ℚ) / b.denominator = a.toRat / b.toRat * 10 ^ a.scale := by
  have hTen : (10 : ℚ) ≠ 0 := by norm_num
  have hPlaces : a.toRat / b.toRat * 10 ^ a.scale = a.unscaled / b.unscaled * 10 ^ b.scale := by
    rw [toRat, toRat, mul_div_mul_comm, mul_assoc, zpow_neg, zpow_neg]
    field_simp
  rw [hPlaces]
  unfold numerator denominator
  split
  · rename_i hScale
    have hPow : (10 : ℚ) ^ b.scale.natAbs = 10 ^ b.scale := by
      rw [← zpow_natCast, Int.natAbs_of_nonneg hScale]
    rw [cast_shift, hPow, mul_div_right_comm]
  · rename_i hScale
    have hPow : (10 : ℚ) ^ b.scale.natAbs = (10 ^ b.scale)⁻¹ := by
      rw [← zpow_natCast, Int.ofNat_natAbs_of_nonpos (by omega), zpow_neg]
    rw [cast_shift, hPow, div_mul_eq_div_div, div_inv_eq_mul]

theorem numerator_neg (a b : Decimal) : (-a).numerator b = -a.numerator b := by
  unfold numerator
  split
  · exact shift_neg _ _
  · rfl

theorem denominator_neg (b : Decimal) : (-b).denominator = -b.denominator := by
  change (if 0 ≤ b.scale then -b.unscaled else shift (-b.unscaled) b.scale.natAbs) = _
  rw [shift_neg, denominator]
  split <;> rfl

theorem numerator_neg_right (a b : Decimal) : a.numerator (-b) = a.numerator b :=
  rfl

theorem divide_neg_left (h : a.divide b = .ok q) : (-a).divide b = .ok (-q) := by
  obtain ⟨hZero, hExponent, rfl⟩ := divide_eq_ok_iff.mp h
  refine divide_eq_ok_iff.mpr ⟨hZero, hExponent, ?_⟩
  rw [numerator_neg, divideHalfEven_neg_left]
  rfl

theorem divide_neg_right (h : a.divide b = .ok q) : a.divide (-b) = .ok (-q) := by
  obtain ⟨hZero, hExponent, rfl⟩ := divide_eq_ok_iff.mp h
  refine divide_eq_ok_iff.mpr ⟨Int.neg_ne_zero.mpr hZero, hExponent, ?_⟩
  rw [numerator_neg_right, denominator_neg, divideHalfEven_neg_right _ (denominator_ne_zero hZero)]
  rfl

/-- How far the quotient is from the exact one, in units of its last place. -/
theorem toRat_sub_of_divide (h : a.divide b = .ok q) :
    NearestEven (a.toRat / b.toRat * 10 ^ a.scale) q.unscaled ∧
      |q.toRat - a.toRat / b.toRat| =
        |q.unscaled - a.toRat / b.toRat * 10 ^ a.scale| * 10 ^ (-a.scale) := by
  obtain ⟨hZero, -, rfl⟩ := divide_eq_ok_iff.mp h
  have hTen : (0 : ℚ) < 10 := by norm_num
  constructor
  · rw [← numerator_div_denominator]
    exact nearestEven_divideHalfEven _ (denominator_ne_zero hZero)
  · rw [← abs_of_pos (zpow_pos hTen (-a.scale)), ← abs_mul, sub_mul, mul_assoc,
      ← zpow_add₀ hTen.ne', add_neg_cancel, zpow_zero, mul_one]
    rfl

end Decimal

theorem Operator.evaluate_divide_eq_ok {a b : Decimal} {value : Value}
    (h : Operator.divide.evaluate (.decimal a) (.decimal b) = .ok value) :
    ∃ q, a.divide b = .ok q ∧ value = .decimal q := by
  simp only [evaluate, result?] at h
  cases hDivide : a.divide b with
  | error error =>
    rw [hDivide] at h
    cases h
  | ok q =>
    rw [hDivide] at h
    cases h
    exact ⟨q, rfl, rfl⟩

theorem Operator.evaluate_divide_of_divide {a b q : Decimal} (h : a.divide b = .ok q) :
    Operator.divide.evaluate (.decimal a) (.decimal b) = .ok (.decimal q) := by
  simp only [evaluate, result?, h]
  rfl

/-- A quotient has the dividend's scale `s`. It is at most half of `10 ^ (-s)` away from the exact
quotient, and even in its last place if it is as far away as that. A change of the sign of one
operand changes the sign of the quotient. -/
theorem Decimal.division_rounds_half_even {a b : Decimal} {value : Value}
    (h : Operator.divide.evaluate (.decimal a) (.decimal b) = .ok value) :
    ∃ q : Decimal, value = .decimal q ∧ q.scale = a.scale ∧
      |q.toRat - a.toRat / b.toRat| ≤ 10 ^ (-a.scale) / 2 ∧
      (|q.toRat - a.toRat / b.toRat| = 10 ^ (-a.scale) / 2 → Even q.unscaled) ∧
      Operator.divide.evaluate (.decimal (-a)) (.decimal b) = .ok (.decimal (-q)) ∧
      Operator.divide.evaluate (.decimal a) (.decimal (-b)) = .ok (.decimal (-q)) := by
  obtain ⟨q, hDivide, rfl⟩ := Operator.evaluate_divide_eq_ok h
  obtain ⟨hNearest, hError⟩ := toRat_sub_of_divide hDivide
  have hUnit : (0 : ℚ) < 10 ^ (-a.scale) := zpow_pos (by norm_num) _
  have hHalf : (10 : ℚ) ^ (-a.scale) / 2 = 1 / 2 * 10 ^ (-a.scale) := by ring
  refine ⟨q, rfl, ?_, ?_, ?_, ?_, ?_⟩
  · obtain ⟨-, -, rfl⟩ := divide_eq_ok_iff.mp hDivide
    rfl
  · rw [hError, hHalf]
    exact mul_le_mul_of_nonneg_right hNearest.near hUnit.le
  · rw [hError, hHalf]
    intro hTie
    exact hNearest.even_of_tie (mul_right_cancel₀ hUnit.ne' hTie)
  · exact Operator.evaluate_divide_of_divide (divide_neg_left hDivide)
  · exact Operator.evaluate_divide_of_divide (divide_neg_right hDivide)

/-- The exact quotient of -7.5 and 50 is -0.15. -/
theorem Decimal.division_rounds_half_even_tie : ∃ q : Decimal,
    Operator.divide.evaluate (.decimal ⟨-75, 1⟩) (.decimal ⟨5, -1⟩) = .ok (.decimal q) ∧
      q = ⟨-2, 1⟩ ∧ Even q.unscaled ∧
      Operator.divide.evaluate (.decimal ⟨75, 1⟩) (.decimal ⟨5, -1⟩) = .ok (.decimal (-q)) := by
  have hValue : Operator.divide.evaluate (.decimal ⟨-75, 1⟩) (.decimal ⟨5, -1⟩) =
      .ok (.decimal ⟨-2, 1⟩) := rfl
  obtain ⟨q, hq, -, -, hEven, hNegated, -⟩ := division_rounds_half_even hValue
  cases hq
  refine ⟨_, hValue, rfl, hEven ?_, hNegated⟩
  norm_num [toRat]

end ProcLang
