import ProcLang.Decimal.Basic
import ProcLang.Decimal.Rounding

/-! # The range of doubles

Which decimals have a finite double. The double of a decimal is the product of its digits and a power
of ten, each of them a double and each operation rounded, where of a long decimal only the leading
digits count. Doubles of at least one that are integers are written as natural numbers here; others
play no part, since what is small is always in range.
-/

namespace ProcLang

set_option autoImplicit false

namespace Double

/-- The nearest number with at most 53 significant bits. -/
def round (n : Nat) : Nat :=
  let excess := n.log2 + 1 - 53
  roundHalfEven n (1 <<< excess) <<< excess

/-- Whether a rounded number is a double, and not past the last one. -/
def isFinite (n : Nat) : Bool :=
  n < 1 <<< 1024

/-- `factor · base ^ k` by repeated squaring. -/
def scaleByPower (factor base k : Nat) : Nat :=
  let factor := if k % 2 = 1 then round (factor * base) else factor
  if k < 2 then factor else scaleByPower factor (round (base * base)) (k / 2)
termination_by k

def powerOfTen (k : Nat) : Nat :=
  scaleByPower 1 10 k

/-- The largest exponent of a power of ten that is finite. -/
def maxPowerOfTen : Nat := 308

end Double

namespace Decimal

/-- How many digits a number is taken to have when it is shortened: those of a power of two that is
larger. -/
def digitEstimate (n : Nat) : Nat :=
  digitCount (1 <<< (n.log2 + 2)) - 1

/-- The decimal without groups of nineteen last digits that leave at least 25. -/
def shorten (d : Decimal) : Decimal :=
  let dropped := (digitEstimate d.unscaled.natAbs - 25) / 19 * 19
  ⟨d.unscaled.tdiv (tenPow dropped), d.scale - dropped⟩

/-- Whether a shortened decimal has a finite double; its scale must have 32 bits. -/
def shortFitsDouble (d : Decimal) : Bool :=
  if d.scale < -2147483648 || 2147483648 ≤ d.scale then false
  else if 0 < d.scale then true
  else if Double.maxPowerOfTen < d.scale.natAbs then false
  else
    let digits := Double.round d.unscaled.natAbs
    Double.isFinite (Double.round (digits * Double.powerOfTen d.scale.natAbs))

/-- Whether a decimal has a finite double. -/
def fitsDouble (d : Decimal) : Bool :=
  if d.isZero then true
  else if d.scale = 0 then Double.isFinite (Double.round d.unscaled.natAbs)
  else d.shorten.shortFitsDouble

end Decimal

end ProcLang
