import ProcLang.Proofs.Decimal.Division

/-! # Forms of one number

A number has many forms as a decimal. It keeps its value when it gains places, when its trailing
zeros are dropped, and when its unscaled value is written out at a larger scale.
-/

namespace ProcLang.Decimal

set_option autoImplicit false

variable {d : Decimal}

theorem toRat_eq_zero_iff : d.toRat = 0 ↔ d.unscaled = 0 := by
  simp [toRat, zpow_ne_zero]

theorem abs_toRat (d : Decimal) : |d.toRat| = d.unscaled.natAbs * (10 : ℚ) ^ (-d.scale) := by
  have hUnit : (0 : ℚ) < 10 ^ (-d.scale) := zpow_pos (by norm_num) _
  rw [toRat, abs_mul, abs_of_pos hUnit, ← Int.cast_abs, Int.abs_eq_natAbs, Int.cast_natCast]

/-- More places behind the point are made up for by a larger unscaled value. -/
theorem tenPow_mul_zpow (scale : Int) (k : Nat) :
    (10 : ℚ) ^ k * 10 ^ (-(scale + k)) = 10 ^ (-scale) := by
  rw [← zpow_natCast, ← zpow_add₀ (by norm_num)]
  congr 1
  omega

theorem toRat_extend (d : Decimal) (k : Nat) : (d.extend k).toRat = d.toRat := by
  simp only [extend, toRat]
  rw [cast_shift, mul_assoc, tenPow_mul_zpow]

theorem toRat_eq_unscaledAt {scale : Int} (h : d.scale ≤ scale) :
    d.toRat = d.unscaledAt scale * (10 : ℚ) ^ (-scale) := by
  have hExtend := toRat_extend d (scale - d.scale).toNat
  have hScale : d.scale + ((scale - d.scale).toNat : Int) = scale := by omega
  rw [← hExtend]
  simp only [extend, toRat, unscaledAt, hScale]

theorem tenPow_trailingZeros_dvd (n : Nat) : tenPow (trailingZeros n) ∣ n := by
  fun_induction trailingZeros n with
  | case1 n hTen ih =>
    have hTenth : n / 10 * 10 = n := Nat.div_mul_cancel (Nat.dvd_of_mod_eq_zero hTen.2)
    calc tenPow (trailingZeros (n / 10) + 1) = tenPow (trailingZeros (n / 10)) * 10 := rfl
      _ ∣ n / 10 * 10 := Nat.mul_dvd_mul_right ih 10
      _ = n := hTenth
  | case2 n hOther => exact one_dvd n

/-- The scale of a decimal that has no trailing zeros any more. -/
def normalScale (d : Decimal) : Int :=
  if d.isZero then 0 else d.scale - trailingZeros d.unscaled.natAbs

theorem scaleFits_normalize (d : Decimal) : scaleFits d.normalize.scale := by
  unfold normalize
  split
  · decide
  · exact scaleFits_wrapScale _

theorem shift_eq_mul (n : Int) (k : Nat) : shift n k = n * tenPow k := by
  by_cases hZero : n = 0 <;> simp [shift, hZero]

/-- A number gets its trailing zeros back. -/
theorem extend_tdiv (d : Decimal) {k : Nat} (h : tenPow k ∣ d.unscaled.natAbs) :
    (Decimal.mk (d.unscaled.tdiv (tenPow k)) (d.scale - k)).extend k = d := by
  have hQuotient : d.unscaled.tdiv (tenPow k) * tenPow k = d.unscaled :=
    Int.tdiv_mul_cancel (Int.natCast_dvd.mpr h)
  simp [extend, shift_eq_mul, hQuotient]

/-- Without its trailing zeros a number is the same, but for the places by which its scale is off when
it has no 64 bits. -/
theorem toRat_normalize (d : Decimal) :
    d.normalize.toRat = d.toRat * 10 ^ (d.normalScale - wrapScale d.normalScale) := by
  unfold normalize normalScale
  by_cases hZero : d.isZero = true
  · have hUnscaled : d.unscaled = 0 := by simpa [isZero] using hZero
    simp [hZero, toRat, hUnscaled]
  · obtain ⟨k, hk⟩ : ∃ k, trailingZeros d.unscaled.natAbs = k := ⟨_, rfl⟩
    have hDropped := extend_tdiv d (tenPow_trailingZeros_dvd d.unscaled.natAbs)
    have hValue := toRat_extend ⟨d.unscaled.tdiv (tenPow k), d.scale - k⟩ k
    rw [hk] at hDropped
    rw [hDropped] at hValue
    simp only [hZero, Bool.false_eq_true, if_false, hk]
    rw [hValue, toRat, toRat, mul_assoc, ← zpow_add₀ (by norm_num)]
    congr 2
    dsimp only
    omega

theorem toRat_of_isOne (h : d.isOne = true) : d.toRat = 1 := by
  simp only [isOne, Bool.and_eq_true, decide_eq_true_eq] at h
  obtain ⟨⟨hLow, -⟩, hUnscaled⟩ := h
  obtain ⟨k, hk⟩ := Int.eq_ofNat_of_zero_le hLow
  rw [toRat, hUnscaled, hk]
  simp [tenPow]

end ProcLang.Decimal
