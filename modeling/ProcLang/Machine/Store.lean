import ProcLang.Table
import ProcLang.Tree

/-! # Stores

A store holds all scopes of a running program. Scopes are numbered in the order in which they were
made and are never removed, so that functions can keep the scope in which they were defined; each
scope knows the scopes around it. A name means its innermost binding.
-/

namespace ProcLang

set_option autoImplicit false

abbrev ScopeId := Nat

structure Binding where
  value : Value
  isMutable : Bool
deriving Inhabited

/-- What a call can reach: the printing function, or a program's function with the scope in which it
was defined. -/
inductive Callable where
  | print
  | user (function : Function) (closure : ScopeId)

@[ext] structure Scope where
  bindings : Table String Binding := ∅
  callables : Table (String × Nat) Callable := ∅
  /-- The scopes around it, innermost first. -/
  outer : List ScopeId := []
deriving Inhabited

inductive AssignError where
  | immutable
  | undefined
deriving DecidableEq, Repr

structure Store where
  scopes : Array Scope := #[]
deriving Inhabited

namespace Store

def scope (store : Store) (id : ScopeId) : Scope :=
  store.scopes[id]?.getD {}

/-- A scope and those around it, innermost first. -/
def chain (store : Store) (id : ScopeId) : List ScopeId :=
  id :: (store.scope id).outer

def modify (store : Store) (id : ScopeId) (f : Scope → Scope) : Store :=
  ⟨store.scopes.modify id f⟩

def newRoot (store : Store) : ScopeId × Store :=
  (store.scopes.size, ⟨store.scopes.push {}⟩)

def newInside (store : Store) (parent : ScopeId) : ScopeId × Store :=
  (store.scopes.size, ⟨store.scopes.push { outer := store.chain parent }⟩)

/-- The innermost binding of a name, and the scope that holds it. -/
def resolve (store : Store) (id : ScopeId) (name : String) : Option (ScopeId × Binding) :=
  (store.chain id).findSome? fun id =>
    ((store.scope id).bindings.get? name).map fun binding => (id, binding)

def lookup (store : Store) (id : ScopeId) (name : String) : Option Value :=
  (store.resolve id name).map fun (_, binding) => binding.value

def lookupFunction (store : Store) (id : ScopeId) (name : String) (arity : Nat) :
    Option Callable :=
  (store.chain id).findSome? fun id => (store.scope id).callables.get? (name, arity)

/-- Binds a name in a scope, in place of what that scope bound it to. -/
def define (store : Store) (id : ScopeId) (name : String) (value : Value) (isMutable : Bool) :
    Store :=
  store.modify id fun scope =>
    { scope with bindings := scope.bindings.insert name ⟨value, isMutable⟩ }

def defineFunction (store : Store) (id : ScopeId) (name : String) (arity : Nat)
    (callable : Callable) : Store :=
  store.modify id fun scope =>
    { scope with callables := scope.callables.insert (name, arity) callable }

/-- The scope that holds the innermost binding of a name, which must be mutable. -/
def assignmentTarget (store : Store) (id : ScopeId) (name : String) :
    Except AssignError ScopeId :=
  match store.resolve id name with
  | none => .error .undefined
  | some (owner, binding) => if binding.isMutable then .ok owner else .error .immutable

/-- Gives the innermost binding of a name another value. -/
def assign (store : Store) (id : ScopeId) (name : String) (value : Value) :
    Except AssignError Store :=
  (store.assignmentTarget id name).map fun owner => store.define owner name value true

def clear (store : Store) (id : ScopeId) : Store :=
  store.modify id fun scope => { scope with bindings := ∅, callables := ∅ }

end Store

end ProcLang
