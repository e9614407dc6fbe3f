import ProcLang.Machine.Store

/-! # Environments

The scopes that running code has entered, each inside the one before. The first, the root, is the
global scope or the scope of a function's parameters; it is never left.
-/

namespace ProcLang

set_option autoImplicit false

structure Environment where
  root : ScopeId
  /-- The scopes entered since, innermost first. -/
  entered : List ScopeId := []
deriving DecidableEq, Repr, Inhabited

namespace Environment

/-- The scope in which definitions are made. -/
def current (env : Environment) : ScopeId :=
  env.entered.head?.getD env.root

def depth (env : Environment) : Nat :=
  env.entered.length + 1

/-- An environment with an empty scope that has nothing around it. -/
def new (store : Store) : Environment × Store :=
  let (root, store) := store.newRoot
  ({ root }, store)

/-- An environment with an empty scope inside a given one. -/
def enclosed (store : Store) (parent : ScopeId) : Environment × Store :=
  let (root, store) := store.newInside parent
  ({ root }, store)

def push (env : Environment) (store : Store) : Environment × Store :=
  let (id, store) := store.newInside env.current
  ({ env with entered := id :: env.entered }, store)

/-- Leaves the current scope unless it is the root. -/
def pop (env : Environment) : Environment :=
  { env with entered := env.entered.tail }

end Environment

end ProcLang
