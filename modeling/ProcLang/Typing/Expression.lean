import ProcLang.Decimal.Double
import ProcLang.Tree
import ProcLang.Typing.Error
import ProcLang.Typing.Scopes

/-! # Types of expressions

An expression's type follows from the types of its parts and of the names it mentions. Checking an
expression returns its type together with the expression whose slots are filled; what the slots held
before does not matter.
-/

namespace ProcLang

set_option autoImplicit false

namespace Literal

/-- Integer literals have 32 bits, and decimal literals lie in the range of doubles. -/
def check : Literal → Except SemanticError Ty
  | nil => .ok .nil
  | boolean _ => .ok .boolean
  | integer n =>
    if -2147483648 ≤ n ∧ n < 2147483648 then .ok .integer else .error (.integerOutOfRange n)
  | decimal d => if d.fitsDouble then .ok .decimal else .error (.decimalOutOfRange d)
  | character _ => .ok .character
  | string _ => .ok .string

end Literal

/-- The type of an operator's result on operands of two types. -/
def Operator.check (operator : Operator) (left right : Ty) : Except SemanticError Ty :=
  match operator with
  | .and | .or => do
    requireAssignable .boolean left
    requireAssignable .boolean right
    return .boolean
  | .less | .greater | .equal | .notEqual => do
    requireAssignable .comparable left
    requireAssignable .comparable right
    requireAssignable left right
    requireAssignable right left
    return .boolean
  | .add =>
    if left = .string ∨ right = .string then .ok .string
    else if left.isNumeric ∧ left = right then .ok left
    else .error (.invalidOperands operator left right)
  | .subtract | .multiply | .divide =>
    if left.isNumeric ∧ left = right then .ok left
    else .error (.invalidOperands operator left right)
  | .power =>
    if left.isNumeric ∧ right = .integer then .ok left
    else .error (.invalidOperands operator left right)

namespace Scopes

def requireVariable (scopes : Scopes) (name : String) : Except SemanticError Variable :=
  match scopes.lookupVariable name with
  | some symbol => .ok symbol
  | none => .error (.undefinedVariable name)

def requireFunction (scopes : Scopes) (name : String) (arity : Nat) :
    Except SemanticError Signature :=
  match scopes.lookupFunction name arity with
  | some signature => .ok signature
  | none => .error (.undefinedFunction name arity)

end Scopes

namespace Expr

mutual

/-- The type of an expression, and the expression with its slots filled. -/
def check (scopes : Scopes) : Expr → Except SemanticError (Ty × Expr)
  | literal value _ => do
    let ty ← value.check
    return (ty, literal value ty)
  | group inner _ => do
    unless inner.isBinary do
      throw .invalidGroup
    let (ty, inner) ← check scopes inner
    return (ty, group inner ty)
  | binary operator left right _ => do
    let (leftType, left) ← check scopes left
    let (rightType, right) ← check scopes right
    let ty ← operator.check leftType rightType
    return (ty, binary operator left right ty)
  | access name _ _ => do
    let symbol ← scopes.requireVariable name
    return (symbol.ty, access name symbol symbol.ty)
  | element name index _ _ => do
    let (indexType, index) ← check scopes index
    requireAssignable .integer indexType
    let symbol ← scopes.requireVariable name
    return (symbol.ty, element name index symbol symbol.ty)
  | call name arguments _ _ => do
    let signature ← scopes.requireFunction name arguments.length
    let arguments ← checkArguments scopes arguments signature.parameterTypes
    return (signature.returnType, call name arguments signature signature.returnType)
  | list items _ => do
    let items ← checkItems scopes items
    return (.any, list items (some .any))

/-- Arguments against the types of their parameters. -/
def checkArguments (scopes : Scopes) : List Expr → List Ty → Except SemanticError (List Expr)
  | argument :: arguments, parameterType :: parameterTypes => do
    let (ty, argument) ← check scopes argument
    requireAssignable parameterType ty
    let arguments ← checkArguments scopes arguments parameterTypes
    return argument :: arguments
  | arguments, _ => .ok arguments

/-- Items of a list of which no item type was declared. -/
def checkItems (scopes : Scopes) : List Expr → Except SemanticError (List Expr)
  | [] => .ok []
  | item :: items => do
    let (_, item) ← check scopes item
    let items ← checkItems scopes items
    return item :: items

end

/-- An initial value of declared type; the items of a list must each have that type. -/
def checkInitializer (scopes : Scopes) (declared : Ty) :
    Expr → Except SemanticError Expr
  | list items _ => do
    let items ← items.mapM fun item => do
      let (ty, item) ← check scopes item
      requireAssignable declared ty
      return item
    return list items declared
  | value => do
    let (ty, value) ← check scopes value
    requireAssignable declared ty
    return value

end Expr

end ProcLang
