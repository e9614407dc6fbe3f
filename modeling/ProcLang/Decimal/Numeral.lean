import ProcLang.Decimal.Basic

/-! # Numerals

The texts that denote integers and decimals. Digits may be grouped by underscores, which count for
nothing; a decimal may have a point and an exponent.
-/

namespace ProcLang.Numeral

set_option autoImplicit false

def isDigit (c : Char) : Bool :=
  '0' ≤ c && c ≤ '9'

def digitValue (c : Char) : Nat :=
  c.toNat - '0'.toNat

def natural (digits : List Char) : Nat :=
  digits.foldl (fun n c => n * 10 + digitValue c) 0

def ungrouped (text : List Char) : List Char :=
  text.filter (· ≠ '_')

/-- Digits and underscores of which the first is a digit. -/
def unsigned? (text : List Char) : Option Nat :=
  if text.head?.any isDigit && text.all (fun c => isDigit c || c = '_') then
    some (natural (ungrouped text))
  else none

/-- An unsigned numeral after at most one sign. -/
def integer? : List Char → Option Int
  | '-' :: rest => (unsigned? rest).map fun n => -(n : Int)
  | '+' :: rest => (unsigned? rest).map fun n => (n : Int)
  | text => (unsigned? text).map fun n => (n : Int)

def isExponentMark (c : Char) : Bool :=
  c = 'e' || c = 'E'

/-- The exponent behind the mark: an integer without underscores, zero if there is no mark. -/
def exponent? : List Char → Option Int
  | [] => some 0
  | _ :: rest => if '_' ∈ rest then none else integer? rest

/-- The digits of a numeral without its point, and how many of them stand behind it. -/
def places (text : List Char) : List Char × Nat :=
  match text.span (· ≠ '.') with
  | (whole, []) => (whole, 0)
  | (whole, _ :: fraction) => (whole ++ fraction, (ungrouped fraction).length)

def decimal? (text : List Char) : Option Decimal := do
  let (mantissa, mark) := text.span fun c => !isExponentMark c
  let exponent ← exponent? mark
  let (digits, fractionLength) := places mantissa
  let unscaled ← integer? digits
  let scale := fractionLength - exponent
  if Decimal.scaleFits scale then some ⟨unscaled, scale⟩ else none

end ProcLang.Numeral
