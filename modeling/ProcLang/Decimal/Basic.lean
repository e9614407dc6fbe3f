/-! # Decimal numbers

A decimal is an integer, its unscaled value, and a scale: together they stand for
`unscaled · 10 ^ (-scale)`. One number has many such forms; `compare` orders numbers whatever their
forms, and never writes out more digits than the two forms have. Scales have 64 bits, and those of
products and normal forms wrap around.
-/

namespace ProcLang

set_option autoImplicit false

structure Decimal where
  unscaled : Int
  scale : Int
deriving DecidableEq, Repr

namespace Decimal

def tenPow (k : Nat) : Nat :=
  Nat.pow 10 k

def digitCount (n : Nat) : Nat :=
  if n < 10 then 1 else digitCount (n / 10) + 1
termination_by n
decreasing_by omega

/-- How often ten divides a number other than zero. -/
def trailingZeros (n : Nat) : Nat :=
  if 0 < n ∧ n % 10 = 0 then trailingZeros (n / 10) + 1 else 0
termination_by n
decreasing_by omega

/-- `n · 10 ^ k`, where zero costs nothing whatever `k` is. -/
def shift (n : Int) (k : Nat) : Int :=
  if n = 0 then 0 else n * tenPow k

def isZero (d : Decimal) : Bool :=
  d.unscaled = 0

/-- The unscaled value at a scale that is at least the decimal's own. -/
def unscaledAt (d : Decimal) (scale : Int) : Int :=
  shift d.unscaled (scale - d.scale).toNat

/-- The same number with `k` more places. -/
def extend (d : Decimal) (k : Nat) : Decimal :=
  ⟨shift d.unscaled k, d.scale + k⟩

/-- Whether a scale has 64 bits, as those that are stored do. -/
def scaleFits (scale : Int) : Bool :=
  -9223372036854775808 ≤ scale && scale < 9223372036854775808

/-- The scale of 64 bits that is left of a scale modulo `2 ^ 64`. -/
def wrapScale (scale : Int) : Int :=
  scale.bmod 18446744073709551616

theorem scaleFits_iff {scale : Int} :
    scaleFits scale ↔ -9223372036854775808 ≤ scale ∧ scale < 9223372036854775808 := by
  simp [scaleFits]

theorem scaleFits_wrapScale (scale : Int) : scaleFits (wrapScale scale) := by
  have lower := Int.le_bmod (x := scale) (m := 18446744073709551616) (by decide)
  have upper := Int.bmod_lt (x := scale) (m := 18446744073709551616) (by decide)
  rw [scaleFits_iff, wrapScale]
  omega

theorem wrapScale_of_scaleFits {scale : Int} (h : scaleFits scale) : wrapScale scale = scale := by
  rw [scaleFits_iff] at h
  exact Int.bmod_eq_of_le_mul_two (by omega) (by omega)

/-- The same number without trailing zeros, as long as the scale fits; zero at scale zero. -/
def normalize (d : Decimal) : Decimal :=
  if d.isZero then ⟨0, 0⟩
  else
    let zeros := trailingZeros d.unscaled.natAbs
    ⟨d.unscaled.tdiv (tenPow zeros), wrapScale (d.scale - zeros)⟩

/-- The number of digits before the point: a number other than zero is at least
`10 ^ (magnitude - 1)` and less than `10 ^ magnitude` in absolute value. -/
def magnitude (d : Decimal) : Int :=
  digitCount d.unscaled.natAbs - d.scale

/-- The order of two absolute values other than zero. -/
def compareAbs (a b : Decimal) : Ordering :=
  if a.magnitude = b.magnitude then
    let scale := max a.scale b.scale
    Ord.compare (a.unscaledAt scale).natAbs (b.unscaledAt scale).natAbs
  else
    Ord.compare a.magnitude b.magnitude

def compare (a b : Decimal) : Ordering :=
  match Ord.compare a.unscaled.sign b.unscaled.sign with
  | .eq =>
    if a.unscaled = 0 then .eq
    else if 0 < a.unscaled then compareAbs a b
    else compareAbs b a
  | order => order

end Decimal

end ProcLang
