import ProcLang.Value.Operation

/-! # Errors of running programs

A running program checks the kinds of its values itself, whether or not its types were checked.
-/

namespace ProcLang

set_option autoImplicit false

inductive RuntimeError where
  | typeMismatch (expected got : Tag)
  | operation (error : OperationError)
  | immutableAssignment (name : String)
  | indexOutOfBounds (index : Int) (length : Nat)
  | undefinedVariable (name : String)
  | undefinedFunction (name : String) (arity : Nat)
  | notAList (name : String)
  | invalidReceiver
  | stackOverflow (limit : Nat)
deriving DecidableEq, Repr

def RuntimeError.message : RuntimeError → String
  | typeMismatch expected got => s!"type mismatch: expected {expected.name}, got {got.name}"
  | operation error => error.message
  | immutableAssignment name => s!"cannot assign to immutable variable: {name}"
  | indexOutOfBounds index length =>
    s!"index {index} out of bounds for list of length {length}"
  | undefinedVariable name => s!"undefined variable: {name}"
  | undefinedFunction name arity => s!"undefined function: {name}/{arity}"
  | notAList name => s!"{name} is not a list"
  | invalidReceiver => "assignment target must be a variable or list element"
  | stackOverflow limit => s!"maximum call depth of {limit} exceeded"

end ProcLang
