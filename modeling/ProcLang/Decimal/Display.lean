import ProcLang.Decimal.Basic

/-! # Decimal text

Digits stand in place while that needs few zeros. A number whose point would need more than five
leading zeros is written with an exponent `E` after its first digit; one whose digits end more than
fifteen places before the point keeps its digits and has an exponent `e+`.
-/

namespace ProcLang.Decimal

set_option autoImplicit false

def maxLeadingZeros : Int := 5

def maxTrailingZeros : Int := 15

def zeros (n : Int) : List Char :=
  List.replicate n.toNat '0'

/-- Digits with the point moved `scale` places to the left. -/
def withPoint (digits : List Char) (scale : Int) : List Char :=
  if scale ≤ 0 then
    digits ++ zeros (-scale)
  else if scale < digits.length then
    let whole := digits.length - scale.toNat
    digits.take whole ++ '.' :: digits.drop whole
  else
    '0' :: '.' :: zeros (scale - digits.length) ++ digits

/-- The first digit, the others behind a point, and the exponent. -/
def scientific (digits : List Char) (scale : Int) : List Char :=
  let fraction := digits.drop 1
  digits.take 1 ++ (if fraction.isEmpty then [] else '.' :: fraction) ++
    'E' :: (toString (digits.length - scale - 1)).toList

def displayAbs (digits : List Char) (scale : Int) : List Char :=
  if maxLeadingZeros < scale - digits.length then
    scientific digits scale
  else if maxTrailingZeros < -scale then
    digits ++ 'e' :: '+' :: (toString (-scale)).toList
  else
    withPoint digits scale

def display (d : Decimal) : String :=
  if d.isZero then "0"
  else
    let text := displayAbs (Nat.toDigits 10 d.unscaled.natAbs) d.scale
    String.ofList (if d.unscaled < 0 then '-' :: text else text)

end ProcLang.Decimal
