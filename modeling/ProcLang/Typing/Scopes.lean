import ProcLang.Symbol
import ProcLang.Table

/-! # Scopes of the checker

Frames hold the symbols that a block, a function or the program itself defines. They are numbered in
the order in which they were made and are never removed, so that a number always means the same
frame; each knows the frames around it. Names mean their innermost symbol.
-/

namespace ProcLang

set_option autoImplicit false

structure Frame where
  symbols : Table String Variable := ∅
  signatures : Table (String × Nat) Signature := ∅
  /-- The return type of the function around it. -/
  returnType : Option Ty := none
  /-- The numbers of the frames around it, innermost first. -/
  outer : List Nat := []
deriving Inhabited

structure Scopes where
  frames : Array Frame := #[{}]
  /-- The number of the frame in which definitions are made. -/
  current : Nat := 0

namespace Scopes

def frame (scopes : Scopes) (number : Nat) : Frame :=
  scopes.frames[number]?.getD {}

def currentFrame (scopes : Scopes) : Frame :=
  scopes.frame scopes.current

/-- The numbers of the current frame and those around it, innermost first. -/
def chain (scopes : Scopes) : List Nat :=
  scopes.current :: scopes.currentFrame.outer

/-- The return type of the function around the current frame. -/
def returnType (scopes : Scopes) : Option Ty :=
  scopes.currentFrame.returnType

/-- Enters a new frame inside the current one. -/
def pushFrame (scopes : Scopes) (returnType : Option Ty) : Scopes where
  frames := scopes.frames.push { returnType, outer := scopes.chain }
  current := scopes.frames.size

def push (scopes : Scopes) : Scopes :=
  scopes.pushFrame scopes.returnType

def pushFunction (scopes : Scopes) (returnType : Ty) : Scopes :=
  scopes.pushFrame (some returnType)

/-- Goes back to the frame around the current one; the outermost frame is never left. -/
def pop (scopes : Scopes) : Scopes :=
  match scopes.currentFrame.outer with
  | [] => scopes
  | number :: _ => { scopes with current := number }

def modifyCurrent (scopes : Scopes) (f : Frame → Frame) : Scopes :=
  { scopes with frames := scopes.frames.modify scopes.current f }

def defineVariable (scopes : Scopes) (symbol : Variable) : Scopes :=
  scopes.modifyCurrent fun frame =>
    { frame with symbols := frame.symbols.insert symbol.name symbol }

def defineFunction (scopes : Scopes) (signature : Signature) : Scopes :=
  scopes.modifyCurrent fun frame =>
    { frame with
      signatures := frame.signatures.insert (signature.name, signature.arity) signature }

def lookupVariable (scopes : Scopes) (name : String) : Option Variable :=
  scopes.chain.findSome? fun number => (scopes.frame number).symbols.get? name

def lookupFunction (scopes : Scopes) (name : String) (arity : Nat) : Option Signature :=
  scopes.chain.findSome? fun number => (scopes.frame number).signatures.get? (name, arity)

end Scopes

end ProcLang
