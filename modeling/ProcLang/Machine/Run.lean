import ProcLang.Machine.Evaluation

/-! # Running programs

A run defines a program's globals in order, then its functions, and calls `main`. Machines outlive
runs: what was defined and printed stays.
-/

namespace ProcLang

set_option autoImplicit false

def defaultCallLimit : Nat := 1000

namespace Machine

/-- A machine whose global scope holds nothing but the printing function. -/
def new (destination : Destination) (callLimit : Nat) : Machine :=
  let (env, store) := Environment.new {}
  { store := store.defineFunction env.current "print" 1 .print
    env
    printer := { destination }
    callDepth := 0
    callLimit }

end Machine

namespace Exec

/-- Defines a function in the current scope, which becomes its closure. -/
def defineFunction (function : Function) : Exec Unit :=
  fun machine =>
    let scope := machine.env.current
    .done () { machine with
      store := machine.store.defineFunction scope function.name function.parameters.length
        (.user function scope) }

def defineGlobal (n : Nat) (global : Global) : Exec Unit := do
  match global.value with
  | none => define global.name .nil global.isMutable
  | some value =>
    let value ← evaluate n value
    define global.name value global.isMutable

def defineGlobals (n : Nat) : List Global → Exec Unit
  | [] => pure ()
  | global :: rest => do
    defineGlobal n global
    defineGlobals n rest

def defineFunctions : List Function → Exec Unit
  | [] => pure ()
  | function :: rest => do
    defineFunction function
    defineFunctions rest

def run (n : Nat) (source : Source) : Exec Value := do
  defineGlobals n source.globals
  defineFunctions source.functions
  call n "main" []

end Exec

end ProcLang
