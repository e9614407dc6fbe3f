import ProcLang.Machine.Environment
import ProcLang.Machine.Error
import ProcLang.Printer

/-! # Machines and what they execute

A machine is the state of a running program. What it executes ends with a result or an error, in
either case with a machine, or is given up because the number of steps it was allowed is exhausted.
Scopes and calls are left on every way out of them.
-/

namespace ProcLang

set_option autoImplicit false

structure Machine where
  store : Store
  env : Environment
  printer : Printer
  /-- How many calls of user functions are under way. -/
  callDepth : Nat
  /-- How many calls of user functions may be under way. -/
  callLimit : Nat

namespace Machine

def pushScope (machine : Machine) : Machine :=
  let (env, store) := machine.env.push machine.store
  { machine with env, store }

def popScope (machine : Machine) : Machine :=
  { machine with env := machine.env.pop }

/-- Enters the body of a function: an environment of its own that holds the arguments, inside the
scope in which the function was defined. -/
def enterFrame (machine : Machine) (closure : ScopeId) (arguments : List (String × Value)) :
    Machine :=
  let (env, store) := Environment.enclosed machine.store closure
  let store := arguments.foldl
    (fun store (name, value) => store.define env.current name value false) store
  { machine with env, store, callDepth := machine.callDepth + 1 }

def leaveFrame (machine : Machine) (caller : Environment) : Machine :=
  { machine with env := caller, callDepth := machine.callDepth - 1 }

end Machine

inductive Outcome (α : Type) where
  | done (result : α) (machine : Machine)
  | failed (error : RuntimeError) (machine : Machine)
  | exhausted
deriving Inhabited

namespace Outcome

variable {α : Type}

/-- Changes the machine that was left. -/
@[inline] def mapMachine (f : Machine → Machine) : Outcome α → Outcome α
  | done result machine => done result (f machine)
  | failed error machine => failed error (f machine)
  | exhausted => exhausted

end Outcome

def Exec (α : Type) := Machine → Outcome α

namespace Exec

variable {α β : Type}

@[always_inline, inline] protected def pure (result : α) : Exec α :=
  fun machine => .done result machine

@[always_inline, inline] protected def bind (first : Exec α) (next : α → Exec β) : Exec β :=
  fun machine =>
    match first machine with
    | .done result machine => next result machine
    | .failed error machine => .failed error machine
    | .exhausted => .exhausted

@[always_inline] instance : Monad Exec where
  pure := Exec.pure
  bind := Exec.bind

/-- No result within the number of steps that was allowed. -/
@[inline] def exhausted : Exec α :=
  fun _ => .exhausted

@[inline] def fail (error : RuntimeError) : Exec α :=
  fun machine => .failed error machine

/-- A result that does not depend on the machine. -/
@[inline] def ofExcept : Except RuntimeError α → Exec α
  | .ok result => Exec.pure result
  | .error error => fail error

def lookup (name : String) : Exec Value :=
  fun machine =>
    match machine.store.lookup machine.env.current name with
    | some value => .done value machine
    | none => .failed (.undefinedVariable name) machine

def lookupFunction (name : String) (arity : Nat) : Exec Callable :=
  fun machine =>
    match machine.store.lookupFunction machine.env.current name arity with
    | some callable => .done callable machine
    | none => .failed (.undefinedFunction name arity) machine

def define (name : String) (value : Value) (isMutable : Bool) : Exec Unit :=
  fun machine =>
    .done () { machine with
      store := machine.store.define machine.env.current name value isMutable }

def assign (name : String) (value : Value) : Exec Unit :=
  fun machine =>
    match machine.store.assignmentTarget machine.env.current name with
    | .ok owner =>
      .done () { machine with store := machine.store.define owner name value true }
    | .error .immutable => .failed (.immutableAssignment name) machine
    | .error .undefined => .failed (.undefinedVariable name) machine

def print (values : List Value) : Exec Unit :=
  fun machine =>
    .done () { machine with
      printer := values.foldl (fun printer value => printer.printLine value.display)
        machine.printer }

/-- Executes something inside a new scope. -/
@[inline] def inScope (body : Exec α) : Exec α :=
  fun machine => (body machine.pushScope).mapMachine Machine.popScope

/-- Executes the body of a function, unless the limit of calls is reached. -/
@[inline] def inFrame (closure : ScopeId) (arguments : List (String × Value)) (body : Exec α) :
    Exec α :=
  fun machine =>
    if machine.callLimit ≤ machine.callDepth then
      .failed (.stackOverflow machine.callLimit) machine
    else
      let caller := machine.env
      (body (machine.enterFrame closure arguments)).mapMachine fun machine =>
        machine.leaveFrame caller

end Exec

end ProcLang
