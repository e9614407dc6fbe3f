import Mathlib.Order.Compare
import ProcLang.Proofs.Decimal.Forms

/-! # The order of decimals

Decimals are ordered like the numbers they stand for, whatever their forms. Signs decide first, then
how far the digits reach before the point, and only where these agree are digits compared.
-/

namespace ProcLang.Decimal

set_option autoImplicit false

theorem digitCount_pos (n : Nat) : 0 < digitCount n := by
  unfold digitCount
  split <;> omega

theorem lt_tenPow_digitCount (n : Nat) : n < 10 ^ digitCount n := by
  fun_induction digitCount n with
  | case1 n hSmall => omega
  | case2 n hLarge ih =>
    rw [pow_succ]
    omega

theorem tenPow_digitCount_le {n : Nat} (h : 0 < n) : 10 ^ (digitCount n - 1) ≤ n := by
  fun_induction digitCount n with
  | case1 n hSmall => simpa using Nat.one_le_of_lt h
  | case2 n hLarge ih =>
    obtain ⟨k, hk⟩ : ∃ k, digitCount (n / 10) = k + 1 :=
      ⟨digitCount (n / 10) - 1, (Nat.sub_add_cancel (digitCount_pos _)).symm⟩
    have hTenth := ih (by omega)
    simp only [hk, Nat.add_sub_cancel] at hTenth ⊢
    rw [pow_succ]
    omega

theorem abs_toRat_lt (d : Decimal) : |d.toRat| < (10 : ℚ) ^ d.magnitude := by
  have hUnit : (0 : ℚ) < 10 ^ (-d.scale) := zpow_pos (by norm_num) _
  have hDigits : (d.unscaled.natAbs : ℚ) < 10 ^ digitCount d.unscaled.natAbs := by
    exact_mod_cast lt_tenPow_digitCount d.unscaled.natAbs
  calc |d.toRat| = d.unscaled.natAbs * (10 : ℚ) ^ (-d.scale) := abs_toRat d
    _ < 10 ^ digitCount d.unscaled.natAbs * (10 : ℚ) ^ (-d.scale) :=
      mul_lt_mul_of_pos_right hDigits hUnit
    _ = 10 ^ d.magnitude := by
      rw [← zpow_natCast, ← zpow_add₀ (by norm_num), magnitude, Int.sub_eq_add_neg]

theorem le_abs_toRat {d : Decimal} (h : d.unscaled ≠ 0) :
    (10 : ℚ) ^ (d.magnitude - 1) ≤ |d.toRat| := by
  have hUnit : (0 : ℚ) < 10 ^ (-d.scale) := zpow_pos (by norm_num) _
  have hDigits : (10 : ℚ) ^ (digitCount d.unscaled.natAbs - 1) ≤ d.unscaled.natAbs := by
    exact_mod_cast tenPow_digitCount_le (Int.natAbs_pos.mpr h)
  have hCount := digitCount_pos d.unscaled.natAbs
  calc (10 : ℚ) ^ (d.magnitude - 1)
      = 10 ^ (digitCount d.unscaled.natAbs - 1) * (10 : ℚ) ^ (-d.scale) := by
        rw [← zpow_natCast, ← zpow_add₀ (by norm_num), magnitude]
        congr 1
        omega
    _ ≤ d.unscaled.natAbs * (10 : ℚ) ^ (-d.scale) :=
      mul_le_mul_of_nonneg_right hDigits hUnit.le
    _ = |d.toRat| := (abs_toRat d).symm

theorem abs_toRat_lt_of_magnitude_lt {a b : Decimal} (hb : b.unscaled ≠ 0)
    (h : a.magnitude < b.magnitude) : |a.toRat| < |b.toRat| :=
  calc |a.toRat| < (10 : ℚ) ^ a.magnitude := abs_toRat_lt a
    _ ≤ 10 ^ (b.magnitude - 1) := zpow_le_zpow_right₀ (by norm_num) (by omega)
    _ ≤ |b.toRat| := le_abs_toRat hb

theorem abs_toRat_eq_unscaledAt {d : Decimal} {scale : Int} (h : d.scale ≤ scale) :
    |d.toRat| = (d.unscaledAt scale).natAbs * (10 : ℚ) ^ (-scale) := by
  have hUnit : (0 : ℚ) < 10 ^ (-scale) := zpow_pos (by norm_num) _
  rw [toRat_eq_unscaledAt h, abs_mul, abs_of_pos hUnit, ← Int.cast_abs, Int.abs_eq_natAbs,
    Int.cast_natCast]

theorem compareAbs_eq_cmp {a b : Decimal} (ha : a.unscaled ≠ 0) (hb : b.unscaled ≠ 0) :
    compareAbs a b = cmp |a.toRat| |b.toRat| := by
  by_cases hMagnitude : a.magnitude = b.magnitude
  · have hUnit : (0 : ℚ) < 10 ^ (-max a.scale b.scale) := zpow_pos (by norm_num) _
    rw [compareAbs, if_pos hMagnitude, abs_toRat_eq_unscaledAt (le_max_left a.scale b.scale),
      abs_toRat_eq_unscaledAt (le_max_right a.scale b.scale), cmp_mul_pos_right hUnit,
      Nat.strictMono_cast.cmp_map_eq, cmp_eq_compare]
  · rw [compareAbs, if_neg hMagnitude, ← cmp_eq_compare]
    rcases lt_or_gt_of_ne hMagnitude with hLess | hGreater
    · rw [(cmp_eq_lt_iff _ _).mpr hLess,
        (cmp_eq_lt_iff _ _).mpr (abs_toRat_lt_of_magnitude_lt hb hLess)]
    · rw [(cmp_eq_gt_iff _ _).mpr hGreater,
        (cmp_eq_gt_iff _ _).mpr (abs_toRat_lt_of_magnitude_lt ha hGreater)]

theorem toRat_nonneg_iff {d : Decimal} : 0 ≤ d.toRat ↔ 0 ≤ d.unscaled := by
  rw [toRat, mul_nonneg_iff_of_pos_right (zpow_pos (by norm_num) _), Int.cast_nonneg_iff]

theorem toRat_neg_iff {d : Decimal} : d.toRat < 0 ↔ d.unscaled < 0 := by
  rw [← not_le, toRat_nonneg_iff, not_le]

theorem toRat_pos_iff {d : Decimal} : 0 < d.toRat ↔ 0 < d.unscaled := by
  rw [toRat, mul_pos_iff_of_pos_right (zpow_pos (by norm_num) _), Int.cast_pos]

theorem toRat_lt_of_sign_lt {a b : Decimal} (h : a.unscaled.sign < b.unscaled.sign) :
    a.toRat < b.toRat := by
  rcases lt_trichotomy a.unscaled 0 with ha | ha | ha
  · have hb : 0 ≤ b.unscaled := by
      by_contra hb
      rw [Int.sign_eq_neg_one_of_neg ha, Int.sign_eq_neg_one_of_neg (by omega)] at h
      omega
    exact (toRat_neg_iff.mpr ha).trans_le (toRat_nonneg_iff.mpr hb)
  · rw [ha, Int.sign_zero, Int.sign_pos_iff] at h
    rw [toRat_eq_zero_iff.mpr ha]
    exact toRat_pos_iff.mpr h
  · rw [Int.sign_eq_one_of_pos ha] at h
    obtain hb | hb | hb := Int.sign_trichotomy b.unscaled <;> omega

theorem compare_of_sign_eq {a b : Decimal} (h : a.unscaled.sign = b.unscaled.sign) :
    a.compare b = if a.unscaled = 0 then .eq else
      if 0 < a.unscaled then compareAbs a b else compareAbs b a := by
  simp [compare, h]

theorem compare_of_sign_lt {a b : Decimal} (h : a.unscaled.sign < b.unscaled.sign) :
    a.compare b = .lt := by
  simp [compare, compare_lt_iff_lt.mpr h]

theorem compare_of_sign_gt {a b : Decimal} (h : b.unscaled.sign < a.unscaled.sign) :
    a.compare b = .gt := by
  simp [compare, compare_gt_iff_gt.mpr h]

/-- The comparison of decimals is that of the numbers they stand for. -/
theorem compare_eq_cmp (a b : Decimal) : a.compare b = cmp a.toRat b.toRat := by
  rcases lt_trichotomy a.unscaled.sign b.unscaled.sign with hSigns | hSigns | hSigns
  · rw [compare_of_sign_lt hSigns, (cmp_eq_lt_iff _ _).mpr (toRat_lt_of_sign_lt hSigns)]
  · rw [compare_of_sign_eq hSigns]
    rcases lt_trichotomy a.unscaled 0 with ha | ha | ha
    · have hb : b.unscaled < 0 := by
        rwa [Int.sign_eq_neg_one_of_neg ha, eq_comm, Int.sign_eq_neg_one_iff_neg] at hSigns
      rw [if_neg ha.ne, if_neg ha.not_gt, compareAbs_eq_cmp hb.ne ha.ne,
        abs_of_neg (toRat_neg_iff.mpr ha), abs_of_neg (toRat_neg_iff.mpr hb)]
      have hReverse : StrictAnti fun x : ℚ => -x := fun _ _ h => neg_lt_neg h
      exact hReverse.cmp_map_eq b.toRat a.toRat
    · have hb : b.unscaled = 0 := by
        rwa [ha, Int.sign_zero, eq_comm, Int.sign_eq_zero_iff_zero] at hSigns
      rw [if_pos ha, toRat_eq_zero_iff.mpr ha, toRat_eq_zero_iff.mpr hb, cmp_self_eq_eq]
    · have hb : 0 < b.unscaled := by
        rwa [Int.sign_eq_one_of_pos ha, eq_comm, Int.sign_eq_one_iff_pos] at hSigns
      rw [if_neg ha.ne', if_pos ha, compareAbs_eq_cmp ha.ne' hb.ne',
        abs_of_pos (toRat_pos_iff.mpr ha), abs_of_pos (toRat_pos_iff.mpr hb)]
  · rw [compare_of_sign_gt hSigns, (cmp_eq_gt_iff _ _).mpr (toRat_lt_of_sign_lt hSigns)]

end ProcLang.Decimal
