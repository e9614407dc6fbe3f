import ProcLang.Proofs.Decimal.Forms

/-! # Exact arithmetic

Sums, differences and powers of numbers are exact. A product of decimals is exact as long as its scale
has 64 bits. If it has not, the scale wraps around, and the product stands for another number.
-/

namespace ProcLang

set_option autoImplicit false

variable {n : Int}

theorem exponent?_eq_ok_iff {exponent : Nat} :
    exponent? n = .ok exponent ↔ n = exponent ∧ exponent ≤ maxExponent := by
  unfold exponent?
  grind

namespace Decimal

variable {a b d : Decimal}

theorem toRat_addZero (d : Decimal) (zeroScale : Int) : (d.addZero zeroScale).toRat = d.toRat :=
  toRat_extend _ _

theorem scaleFits_addZero {zeroScale : Int} (h : scaleFits d.scale) (hZero : scaleFits zeroScale) :
    scaleFits (d.addZero zeroScale).scale := by
  simp only [scaleFits_iff, addZero, extend] at *
  omega

theorem toRat_of_isZero (h : d.isZero = true) : d.toRat = 0 := by
  simpa [isZero, toRat_eq_zero_iff] using h

theorem toRat_add (a b : Decimal) : (a.add b).toRat = a.toRat + b.toRat := by
  unfold add
  split
  · rename_i hZero
    rw [toRat_addZero, toRat_of_isZero hZero, add_zero]
  · split
    · rename_i hZero
      rw [toRat_addZero, toRat_of_isZero hZero, zero_add]
    · rw [toRat_eq_unscaledAt (le_max_left a.scale b.scale),
        toRat_eq_unscaledAt (le_max_right a.scale b.scale), toRat, Int.cast_add, add_mul]

theorem scaleFits_add (ha : scaleFits a.scale) (hb : scaleFits b.scale) :
    scaleFits (a.add b).scale := by
  unfold add
  split
  · exact scaleFits_addZero ha hb
  · split
    · exact scaleFits_addZero hb ha
    · simp only [scaleFits_iff] at *
      omega

theorem toRat_subtract (a b : Decimal) : (a.subtract b).toRat = a.toRat - b.toRat := by
  rw [toRat_eq_unscaledAt (le_max_left a.scale b.scale),
    toRat_eq_unscaledAt (le_max_right a.scale b.scale), subtract, toRat, Int.cast_sub, sub_mul]

theorem scaleFits_subtract (ha : scaleFits a.scale) (hb : scaleFits b.scale) :
    scaleFits (a.subtract b).scale := by
  simp only [scaleFits_iff, subtract] at *
  omega

/-- The scale that a product would have if scales were not bounded. -/
def productScale (a b : Decimal) : Int :=
  if a.isOne then b.normalScale
  else if b.isOne then a.normalScale
  else a.scale + b.scale

/-- A product is off by the places that its scale loses. -/
theorem toRat_multiply (a b : Decimal) :
    (a.multiply b).toRat =
      a.toRat * b.toRat * 10 ^ (a.productScale b - wrapScale (a.productScale b)) := by
  unfold multiply productScale
  by_cases hLeft : a.isOne = true
  · simp only [hLeft, if_true]
    rw [toRat_normalize, toRat_of_isOne hLeft, one_mul]
  by_cases hRight : b.isOne = true
  · simp only [hLeft, hRight, Bool.false_eq_true, if_true, if_false]
    rw [toRat_normalize, toRat_of_isOne hRight, mul_one]
  simp only [hLeft, hRight, Bool.false_eq_true, if_false]
  have hPlaces : (10 : ℚ) ^ (-wrapScale (a.scale + b.scale)) = 10 ^ (-a.scale) * 10 ^ (-b.scale) *
      10 ^ (a.scale + b.scale - wrapScale (a.scale + b.scale)) := by
    rw [← zpow_add₀ (by norm_num), ← zpow_add₀ (by norm_num)]
    congr 1
    omega
  rw [toRat, toRat, toRat, hPlaces, Int.cast_mul]
  ring

theorem tenZpow_eq_one_iff : (10 : ℚ) ^ n = 1 ↔ n = 0 :=
  zpow_eq_one_iff_right₀ (by norm_num) (by norm_num)

theorem wrapScale_eq_self_iff : wrapScale n = n ↔ scaleFits n :=
  ⟨fun h => h ▸ scaleFits_wrapScale n, wrapScale_of_scaleFits⟩

theorem toRat_multiply_eq_iff : (a.multiply b).toRat = a.toRat * b.toRat ↔
    a.toRat * b.toRat = 0 ∨ scaleFits (a.productScale b) := by
  rw [toRat_multiply, mul_right_eq_self₀, tenZpow_eq_one_iff, sub_eq_zero, eq_comm,
    wrapScale_eq_self_iff, or_comm]

theorem scaleFits_multiply (a b : Decimal) : scaleFits (a.multiply b).scale := by
  unfold multiply
  split
  · exact scaleFits_normalize b
  · split
    · exact scaleFits_normalize a
    · exact scaleFits_wrapScale _

theorem of_power (h : a.power n = .ok d) : d.toRat = a.toRat ^ n ∧ scaleFits d.scale := by
  unfold power at h
  cases hExponent : exponent? n with
  | error error => simp [hExponent, bind, Except.bind] at h
  | ok exponent =>
    have hn := (exponent?_eq_ok_iff.mp hExponent).1
    simp only [hExponent, bind, Except.bind] at h
    split at h
    · rename_i hFits
      cases h
      refine ⟨?_, hFits⟩
      simp only [toRat, hn, zpow_natCast, mul_pow, Int.pow_eq, Int.cast_pow]
      rw [← zpow_natCast, ← zpow_natCast, ← zpow_mul, neg_mul]
    · cases h

end Decimal

theorem Integer.of_power {a n b : Int} (h : Integer.power a n = .ok b) : (b : ℚ) = a ^ n := by
  unfold Integer.power at h
  cases hExponent : exponent? n with
  | error error => simp [hExponent, bind, Except.bind] at h
  | ok exponent =>
    have hn := (exponent?_eq_ok_iff.mp hExponent).1
    simp only [hExponent, bind, Except.bind] at h
    cases h
    simp [hn]

end ProcLang
