/-! # Rounding

Quotients rounded to the nearest integer, to the even one where two are equally near.
-/

namespace ProcLang

set_option autoImplicit false

def roundHalfEven (n d : Nat) : Nat :=
  let quotient := n / d
  let twiceRest := n % d * 2
  if d < twiceRest ∨ (twiceRest = d ∧ quotient % 2 = 1) then quotient + 1 else quotient

end ProcLang
