import ProcLang.Ty.Registry
import ProcLang.Typing.Expression

/-! # Checking statements

Only declarations change what later statements of their block can mention. Each block inside a
statement has a frame of its own, which is left behind at its end.
-/

namespace ProcLang

set_option autoImplicit false

namespace TypeRegistry

def resolve (types : TypeRegistry) (name : String) : Except SemanticError Ty :=
  match types.lookup name with
  | some ty => .ok ty
  | none => .error (.unknownType name)

theorem resolve_eq_ok_iff {types : TypeRegistry} {name : String} {ty : Ty} :
    types.resolve name = .ok ty ↔ types.lookup name = some ty := by
  unfold resolve
  cases types.lookup name <;> simp

end TypeRegistry

/-- The type of a new variable and its checked initial value. The declared type counts if there is
one, otherwise that of the value. -/
def checkBinding (types : TypeRegistry) (scopes : Scopes) (name : String)
    (typeName : Option String) (value : Option Expr) : Except SemanticError (Ty × Option Expr) := do
  let declared ← typeName.mapM types.resolve
  match declared, value with
  | some declared, some value => do
    let value ← value.checkInitializer scopes declared
    return (declared, some value)
  | none, some value => do
    let (ty, value) ← value.check scopes
    return (ty, some value)
  | some declared, none => return (declared, none)
  | none, none => throw (.missingTypeAndValue name)

def checkCondition (scopes : Scopes) (condition : Expr) : Except SemanticError Expr := do
  let (ty, condition) ← condition.check scopes
  requireAssignable .boolean ty
  return condition

/-- An assignment's receiver and value; the value is looked at first. -/
def checkAssignment (scopes : Scopes) (receiver value : Expr) :
    Except SemanticError (Expr × Expr) := do
  unless receiver.isReceiver do
    throw .invalidReceiver
  let (valueType, value) ← value.check scopes
  let (receiverType, receiver) ← receiver.check scopes
  match receiver.receiverSymbol? with
  | some symbol =>
    unless symbol.isMutable do
      throw (.immutableAssignment symbol.name)
  | none => pure ()
  requireAssignable receiverType valueType
  return (receiver, value)

/-- The value of a case, which must fit the subject's type; the default case has none. -/
def checkCaseValue (scopes : Scopes) (subjectType : Ty) :
    Option Expr → Except SemanticError (Option Expr)
  | none => .ok none
  | some value => do
    let (ty, value) ← value.check scopes
    requireAssignable subjectType ty
    return some value

namespace Stmt

mutual

/-- A statement with its slots filled, and the scopes of the statements after it. -/
def check (types : TypeRegistry) (scopes : Scopes) : Stmt → Except SemanticError (Scopes × Stmt)
  | expression e => do
    unless e.isCall do
      throw .expressionNotCall
    let (_, e) ← e.check scopes
    return (scopes, expression e)
  | declaration name typeName value _ => do
    let (ty, value) ← checkBinding types scopes name typeName value
    let symbol := ⟨name, ty, true⟩
    return (scopes.defineVariable symbol, declaration name typeName value (some symbol))
  | assignment receiver value => do
    let (receiver, value) ← checkAssignment scopes receiver value
    return (scopes, assignment receiver value)
  | conditional condition consequent alternative => do
    let condition ← checkCondition scopes condition
    if consequent.isEmpty then
      throw .emptyConsequent
    let consequent ← checkBlock types scopes.push consequent
    let alternative ← checkBlock types scopes.push alternative
    return (scopes, conditional condition consequent alternative)
  | switch subject cases => do
    let (subjectType, subject) ← subject.check scopes
    let defaults := cases.countP Case.isDefault
    unless defaults = 1 do
      throw (.defaultCaseCount defaults)
    let cases ← checkCases types scopes subjectType cases
    return (scopes, switch subject cases)
  | loop condition body => do
    let condition ← checkCondition scopes condition
    let body ← checkBlock types scopes.push body
    return (scopes, loop condition body)
  | returns value => do
    let (ty, value) ← value.check scopes
    requireAssignable (scopes.returnType.getD .nil) ty
    return (scopes, returns value)

/-- The statements of a block in the frame that was entered for it. -/
def checkBlock (types : TypeRegistry) (scopes : Scopes) :
    List Stmt → Except SemanticError (List Stmt)
  | [] => .ok []
  | statement :: rest => do
    let (scopes, statement) ← check types scopes statement
    let rest ← checkBlock types scopes rest
    return statement :: rest

/-- The cases of a `SWITCH`, each in a frame of its own. -/
def checkCases (types : TypeRegistry) (scopes : Scopes) (subjectType : Ty) :
    List Case → Except SemanticError (List Case)
  | [] => .ok []
  | ⟨value, body⟩ :: rest => do
    let value ← checkCaseValue scopes.push subjectType value
    let body ← checkBlock types scopes.push body
    let rest ← checkCases types scopes subjectType rest
    return ⟨value, body⟩ :: rest

end

end Stmt

end ProcLang
