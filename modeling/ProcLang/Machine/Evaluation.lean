import ProcLang.Machine.Exec

/-! # Evaluation and execution

Expressions evaluate to values, and statements complete normally or return a value to the call
around them. The first argument bounds the steps: each nested evaluation and each round of a loop
has one less.
-/

namespace ProcLang

set_option autoImplicit false

/-- How a statement ends without an error. -/
inductive Completion where
  | normal
  | returned (value : Value)
deriving Inhabited, Repr

namespace Completion

/-- What a call is worth whose body completed. -/
def value : Completion → Value
  | normal => .nil
  | returned value => value

end Completion

namespace Value

def items (name : String) : Value → Except RuntimeError (List Value)
  | list items => .ok items
  | _ => .error (.notAList name)

/-- The position that an index means in a list of the given length. -/
def position (index : Value) (length : Nat) : Except RuntimeError Nat :=
  match index with
  | integer n =>
    if 0 ≤ n ∧ n < length then .ok n.toNat else .error (.indexOutOfBounds n length)
  | _ => .error (.typeMismatch .integer index.tag)

def condition : Value → Except RuntimeError Bool
  | boolean b => .ok b
  | value => .error (.typeMismatch .boolean value.tag)

/-- The item of a list at an index; the name is the list's. -/
def item (name : String) (list index : Value) : Except RuntimeError Value := do
  let items ← list.items name
  let position ← index.position items.length
  return items.getD position .nil

end Value

/-- The body of the first default case. -/
def defaultBody? (cases : List Case) : Option (List Stmt) :=
  (cases.find? Case.isDefault).map Case.body

namespace Exec

mutual

def evaluate : Nat → Expr → Exec Value
  | 0, _ => exhausted
  | n + 1, expr =>
    match expr with
    | .literal literal _ => pure literal.value
    | .group inner _ => evaluate n inner
    | .binary .and left right _ => do
      if (← evaluate n left).isTrue then
        return .boolean (← evaluate n right).isTrue
      else
        return .boolean false
    | .binary .or left right _ => do
      if (← evaluate n left).isTrue then
        return .boolean true
      else
        return .boolean (← evaluate n right).isTrue
    | .binary operator left right _ => do
      let left ← evaluate n left
      let right ← evaluate n right
      ofExcept ((operator.evaluate left right).mapError .operation)
    | .access name _ _ => lookup name
    | .element name index _ _ => do
      let list ← lookup name
      let index ← evaluate n index
      ofExcept (Value.item name list index)
    | .call name arguments _ _ => do
      let arguments ← evaluateAll n arguments
      call n name arguments
    | .list items _ => do
      let items ← evaluateAll n items
      return .list items

def evaluateAll : Nat → List Expr → Exec (List Value)
  | 0, _ => exhausted
  | n + 1, exprs =>
    match exprs with
    | [] => pure []
    | expr :: exprs => do
      let value ← evaluate n expr
      let values ← evaluateAll n exprs
      return value :: values

/-- Calls the function of the given name that takes so many arguments. -/
def call : Nat → String → List Value → Exec Value
  | 0, _, _ => exhausted
  | n + 1, name, arguments => do
    match ← lookupFunction name arguments.length with
    | .print =>
      print arguments
      return .nil
    | .user function closure =>
      let completion ←
        inFrame closure (function.parameters.zip arguments) (executeBlock n function.body)
      return completion.value

def execute : Nat → Stmt → Exec Completion
  | 0, _ => exhausted
  | n + 1, statement =>
    match statement with
    | .expression e => do
      let _ ← evaluate n e
      return .normal
    | .declaration name _ none _ => do
      define name .nil true
      return .normal
    | .declaration name _ (some value) _ => do
      let value ← evaluate n value
      define name value true
      return .normal
    | .assignment (.access name _ _) value => do
      let value ← evaluate n value
      assign name value
      return .normal
    | .assignment (.element name index _ _) value => do
      let items ← ofExcept ((← lookup name).items name)
      let position ← ofExcept ((← evaluate n index).position items.length)
      let value ← evaluate n value
      assign name (.list (items.set position value))
      return .normal
    | .assignment _ _ => fail .invalidReceiver
    | .conditional condition consequent alternative => do
      if ← ofExcept (← evaluate n condition).condition then
        inScope (executeBlock n consequent)
      else
        inScope (executeBlock n alternative)
    | .switch subject cases => do
      let subject ← evaluate n subject
      executeCases n subject (defaultBody? cases) cases
    | .loop condition body => executeLoop n condition body
    | .returns value => do
      let value ← evaluate n value
      return .returned value

/-- Executes statements in the current scope up to the first that returns. -/
def executeBlock : Nat → List Stmt → Exec Completion
  | 0, _ => exhausted
  | n + 1, statements =>
    match statements with
    | [] => pure .normal
    | statement :: rest => do
      match ← execute n statement with
      | .normal => executeBlock n rest
      | .returned value => return .returned value

/-- Executes the body of the first case whose value equals the subject, or else the default. -/
def executeCases : Nat → Value → Option (List Stmt) → List Case → Exec Completion
  | 0, _, _, _ => exhausted
  | n + 1, subject, default?, cases =>
    match cases with
    | [] =>
      match default? with
      | some body => inScope (executeBlock n body)
      | none => pure .normal
    | ⟨none, _⟩ :: rest => executeCases n subject default? rest
    | ⟨some value, body⟩ :: rest => do
      if (← evaluate n value) == subject then
        inScope (executeBlock n body)
      else
        executeCases n subject default? rest

def executeLoop : Nat → Expr → List Stmt → Exec Completion
  | 0, _, _ => exhausted
  | n + 1, condition, body => do
    if ← ofExcept (← evaluate n condition).condition then
      match ← inScope (executeBlock n body) with
      | .normal => executeLoop n condition body
      | .returned value => return .returned value
    else
      return .normal

end

end Exec

end ProcLang
