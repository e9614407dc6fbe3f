import ProcLang.Ty

/-! # Symbols

What a name in a program stands for: a variable, or the signature of a function. Functions of one
name are told apart by their number of parameters.
-/

namespace ProcLang

set_option autoImplicit false

structure Variable where
  name : String
  ty : Ty
  isMutable : Bool
deriving DecidableEq, Repr

structure Signature where
  name : String
  parameterTypes : List Ty
  returnType : Ty
deriving DecidableEq, Repr

def Signature.arity (signature : Signature) : Nat :=
  signature.parameterTypes.length

end ProcLang
