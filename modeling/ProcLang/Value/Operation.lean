import ProcLang.Decimal.Arithmetic
import ProcLang.Operator
import ProcLang.Value

/-! # Operators on values

Operators are strict here: both operands have been evaluated. Equality applies to all values, and a
string on either side makes `+` join texts; otherwise an operator applies to operands of its kinds
only.
-/

namespace ProcLang

set_option autoImplicit false

/-- Why an operator has no result: its operands' kinds, or their values. -/
inductive OperationError where
  | invalidOperands (operator : Operator) (left right : Tag)
  | arithmetic (error : ArithmeticError)
deriving DecidableEq, Repr

def OperationError.message : OperationError → String
  | invalidOperands operator left right =>
    s!"invalid operand types for {operator.symbol}: {left.name} and {right.name}"
  | arithmetic error => error.message

namespace Operator

/-- The result of an operator on two values, `none` if it does not apply to their kinds. -/
def result? (operator : Operator) (left right : Value) : Option (Except ArithmeticError Value) :=
  match operator with
  | .equal => some (.ok (.boolean (left == right)))
  | .notEqual => some (.ok (.boolean (left != right)))
  | .less => (left.order? right).map fun order => .ok (.boolean (order = .lt))
  | .greater => (left.order? right).map fun order => .ok (.boolean (order = .gt))
  | .and =>
    match left, right with
    | .boolean a, .boolean b => some (.ok (.boolean (a && b)))
    | _, _ => none
  | .or =>
    match left, right with
    | .boolean a, .boolean b => some (.ok (.boolean (a || b)))
    | _, _ => none
  | .add =>
    if left.isString || right.isString then
      some (.ok (.string (left.display ++ right.display)))
    else
      match left, right with
      | .integer a, .integer b => some (.ok (.integer (a + b)))
      | .decimal a, .decimal b => some (.ok (.decimal (a.add b)))
      | _, _ => none
  | .subtract =>
    match left, right with
    | .integer a, .integer b => some (.ok (.integer (a - b)))
    | .decimal a, .decimal b => some (.ok (.decimal (a.subtract b)))
    | _, _ => none
  | .multiply =>
    match left, right with
    | .integer a, .integer b => some (.ok (.integer (a * b)))
    | .decimal a, .decimal b => some (.ok (.decimal (a.multiply b)))
    | _, _ => none
  | .divide =>
    match left, right with
    | .integer a, .integer b => some ((Integer.divide a b).map .integer)
    | .decimal a, .decimal b => some ((a.divide b).map .decimal)
    | _, _ => none
  | .power =>
    match left, right with
    | .integer a, .integer n => some ((Integer.power a n).map .integer)
    | .decimal a, .integer n => some ((a.power n).map .decimal)
    | _, _ => none

def evaluate (operator : Operator) (left right : Value) : Except OperationError Value :=
  match operator.result? left right with
  | none => .error (.invalidOperands operator left.tag right.tag)
  | some (.error error) => .error (.arithmetic error)
  | some (.ok value) => .ok value

end Operator

end ProcLang
