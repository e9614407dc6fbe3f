import ProcLang.Decimal.Display
import ProcLang.Operator
import ProcLang.Ty

/-! # Type errors

The rules of the language that a program can break.
-/

namespace ProcLang

set_option autoImplicit false

inductive SemanticError where
  | missingMain
  | unknownType (name : String)
  | undefinedVariable (name : String)
  | undefinedFunction (name : String) (arity : Nat)
  | typeMismatch (expected found : Ty)
  | missingTypeAndValue (name : String)
  | invalidReceiver
  | immutableAssignment (name : String)
  | expressionNotCall
  | emptyConsequent
  | defaultCaseCount (found : Nat)
  | integerOutOfRange (value : Int)
  | decimalOutOfRange (value : Decimal)
  | invalidGroup
  | invalidOperands (operator : Operator) (left right : Ty)
deriving DecidableEq, Repr

namespace SemanticError

def message : SemanticError → String
  | missingMain =>
    "missing entry point: expected `main` with no parameters returning Integer"
  | unknownType name => s!"unknown type: {name}"
  | undefinedVariable name => s!"undefined variable: {name}"
  | undefinedFunction name arity => s!"undefined function: {name}/{arity}"
  | typeMismatch expected found =>
    s!"type mismatch: expected {expected.name}, found {found.name}"
  | missingTypeAndValue name => s!"variable {name} needs a type or an initial value"
  | invalidReceiver => "assignment target must be a variable or list element"
  | immutableAssignment name => s!"cannot assign to immutable variable: {name}"
  | expressionNotCall => "expression statement must be a function call"
  | emptyConsequent => "IF statement must have at least one statement before ELSE or END"
  | defaultCaseCount found => s!"SWITCH must have exactly one DEFAULT case, found {found}"
  | integerOutOfRange value => s!"integer literal {value} does not fit in 32 bits"
  | decimalOutOfRange value => s!"decimal literal {value.display} is out of range"
  | invalidGroup => "only binary expressions may be grouped"
  | invalidOperands operator left right =>
    s!"operator {operator.symbol} cannot be applied to {left.name} and {right.name}"

end SemanticError

/-- Refuses a value of type `source` where one of type `target` is expected. -/
def requireAssignable (target source : Ty) : Except SemanticError Unit :=
  if target.accepts source then .ok () else .error (.typeMismatch target source)

end ProcLang
