import ProcLang.Typing.Statement

/-! # Checking programs

A checker knows some types, and keeps the globals and functions of the programs it has checked. What
a program defines before its first error is kept as well. Each function can be mentioned in its own
body and after it.
-/

namespace ProcLang

set_option autoImplicit false

/-- A computation that changes scopes, also when it fails. -/
abbrev Check (α : Type) := ExceptT SemanticError (StateM Scopes) α

namespace Global

def check (types : TypeRegistry) (global : Global) : Check Global := do
  let (ty, value) ←
    liftExcept (checkBinding types (← get) global.name global.typeName global.value)
  let symbol := ⟨global.name, ty, global.isMutable⟩
  modify fun scopes => scopes.defineVariable symbol
  return { global with value, symbol := some symbol }

end Global

namespace Function

/-- A missing return type means `nil`. -/
def checkReturnType (types : TypeRegistry) : Option String → Except SemanticError Ty
  | none => .ok .nil
  | some name => types.resolve name

def checkSignature (types : TypeRegistry) (function : Function) :
    Except SemanticError Signature := do
  let parameterTypes ← function.parameterTypes.mapM types.resolve
  let returnType ← checkReturnType types function.returnType
  return ⟨function.name, parameterTypes, returnType⟩

/-- The scopes of a function's body: a frame that holds its parameters. -/
def bodyScopes (function : Function) (signature : Signature) (scopes : Scopes) : Scopes :=
  (function.parameters.zip signature.parameterTypes).foldl
    (fun scopes (name, ty) => scopes.defineVariable ⟨name, ty, false⟩)
    (scopes.pushFunction signature.returnType)

def check (types : TypeRegistry) (function : Function) : Check Function := do
  let signature ← liftExcept (function.checkSignature types)
  modify fun scopes => scopes.defineFunction signature
  let scopes := function.bodyScopes signature (← get)
  let body ← liftExcept (Stmt.checkBlock types scopes function.body)
  return { function with body, signature := some signature }

end Function

namespace Source

/-- The function at which a run begins. -/
def main? (source : Source) : Option Function :=
  source.functions.find? fun function => function.name = "main" ∧ function.parameters.isEmpty

/-- There must be a `main` without parameters that returns an integer. -/
def checkMain (types : TypeRegistry) (source : Source) : Except SemanticError Unit :=
  match source.main? with
  | none => .error .missingMain
  | some main => do
    let returnType ← Function.checkReturnType types main.returnType
    unless Ty.integer.accepts returnType do
      throw .missingMain

def check (types : TypeRegistry) (source : Source) : Check Source := do
  liftExcept (source.checkMain types)
  let globals ← source.globals.mapM (Global.check types)
  let functions ← source.functions.mapM (Function.check types)
  return ⟨globals, functions⟩

end Source

structure Checker where
  scopes : Scopes
  types : TypeRegistry

namespace Checker

/-- The signature of the function that every program can call. -/
def print : Signature :=
  ⟨"print", [.any], .nil⟩

def ofTypes (types : TypeRegistry) : Checker :=
  ⟨({} : Scopes).defineFunction print, types⟩

/-- Checks a program; on success all slots of the resulting tree are filled. -/
def check (checker : Checker) (source : Source) : Except SemanticError Source × Checker :=
  let (result, scopes) := (source.check checker.types).run.run checker.scopes
  (result, { checker with scopes })

end Checker

/-- The checked form of a program that uses the built-in types only. -/
def checkProgram (source : Source) : Except SemanticError Source :=
  ((Checker.ofTypes {}).check source).1

end ProcLang
