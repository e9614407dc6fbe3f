import ProcLang.Decimal.Basic
import ProcLang.Decimal.Rounding

/-! # Arithmetic

Operations on integers and decimals. All are exact but for division: that of integers truncates, and
that of decimals keeps the dividend's scale and takes the nearest quotient, an even one where two
are equally near. A power whose scale would not fit fails, but the scale of a product wraps around.
-/

namespace ProcLang

set_option autoImplicit false

/-- Why an arithmetic operation on numbers has no result. -/
inductive ArithmeticError where
  | divisionByZero
  | negativeExponent (exponent : Int)
  | exponentOutOfRange (exponent : Int)
deriving DecidableEq, Repr

def ArithmeticError.message : ArithmeticError → String
  | divisionByZero => "division by zero"
  | negativeExponent exponent => s!"negative exponent: {exponent}"
  | exponentOutOfRange exponent => s!"exponent too large: {exponent}"

/-- The largest exponent that a power or a shift can have: it has 32 bits. -/
def maxExponent : Nat := 4294967295

def exponent? (n : Int) : Except ArithmeticError Nat :=
  if n < 0 then .error (.negativeExponent n)
  else if maxExponent < n then .error (.exponentOutOfRange n)
  else .ok n.toNat

/-- Rounds a quotient of integers, without regard to their signs. -/
def divideHalfEven (n d : Int) : Int :=
  let quotient : Int := roundHalfEven n.natAbs d.natAbs
  if n < 0 ↔ d < 0 then quotient else -quotient

namespace Integer

/-- The quotient of two integers, truncated toward zero. -/
def divide (a b : Int) : Except ArithmeticError Int :=
  if b = 0 then .error .divisionByZero else .ok (a.tdiv b)

def power (a n : Int) : Except ArithmeticError Int := do
  let exponent ← exponent? n
  return Int.pow a exponent

end Integer

namespace Decimal

/-- The most places that a sum gains from an operand that is zero. -/
def maxPlacesFromZero : Nat := 15

/-- A sum whose other operand is a zero of this scale. -/
def addZero (d : Decimal) (zeroScale : Int) : Decimal :=
  d.extend (min maxPlacesFromZero (zeroScale - d.scale).toNat)

def add (a b : Decimal) : Decimal :=
  if b.isZero then a.addZero b.scale
  else if a.isZero then b.addZero a.scale
  else
    let scale := max a.scale b.scale
    ⟨a.unscaledAt scale + b.unscaledAt scale, scale⟩

def subtract (a b : Decimal) : Decimal :=
  let scale := max a.scale b.scale
  ⟨a.unscaledAt scale - b.unscaledAt scale, scale⟩

/-- The forms of one that a product recognizes. -/
def isOne (d : Decimal) : Bool :=
  0 ≤ d.scale && d.scale ≤ 38 && d.unscaled = tenPow d.scale.toNat

/-- A product by one is the other operand without trailing zeros. -/
def multiply (a b : Decimal) : Decimal :=
  if a.isOne then b.normalize
  else if b.isOne then a.normalize
  else ⟨a.unscaled * b.unscaled, wrapScale (a.scale + b.scale)⟩

/-- The quotient at the dividend's scale. The divisor's scale becomes a shift by its absolute value,
which for the least scale of 64 bits is that scale again. -/
def divide (a b : Decimal) : Except ArithmeticError Decimal :=
  if b.isZero then .error .divisionByZero
  else if maxExponent < b.scale.natAbs then .error (.exponentOutOfRange (wrapScale b.scale.natAbs))
  else if 0 ≤ b.scale then
    .ok ⟨divideHalfEven (shift a.unscaled b.scale.natAbs) b.unscaled, a.scale⟩
  else
    .ok ⟨divideHalfEven a.unscaled (shift b.unscaled b.scale.natAbs), a.scale⟩

def power (a : Decimal) (n : Int) : Except ArithmeticError Decimal := do
  let exponent ← exponent? n
  if scaleFits (a.scale * exponent) then
    return ⟨Int.pow a.unscaled exponent, a.scale * exponent⟩
  else
    throw (.exponentOutOfRange n)

end Decimal

end ProcLang
