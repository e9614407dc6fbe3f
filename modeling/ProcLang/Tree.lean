import ProcLang.Literal
import ProcLang.Operator
import ProcLang.Symbol

/-! # Syntax trees

A program is a list of globals and a list of functions. Expressions have a slot for their type, and
whatever mentions or introduces a name has a slot for its symbol; reading a program leaves the slots
empty and checking it fills them.
-/

namespace ProcLang

set_option autoImplicit false

inductive Expr where
  | literal (literal : Literal) (ty : Option Ty)
  | group (inner : Expr) (ty : Option Ty)
  | binary (operator : Operator) (left right : Expr) (ty : Option Ty)
  | access (name : String) (symbol : Option Variable) (ty : Option Ty)
  /-- An item of a list, `name[index]`. -/
  | element (name : String) (index : Expr) (symbol : Option Variable) (ty : Option Ty)
  | call (name : String) (arguments : List Expr) (signature : Option Signature) (ty : Option Ty)
  | list (items : List Expr) (ty : Option Ty)
deriving Inhabited, Repr

namespace Expr

def ty : Expr → Option Ty
  | literal _ ty | group _ ty | binary _ _ _ ty | access _ _ ty | element _ _ _ ty
  | call _ _ _ ty | list _ ty => ty

def isBinary : Expr → Bool
  | binary .. => true
  | _ => false

def isCall : Expr → Bool
  | call .. => true
  | _ => false

def isList : Expr → Bool
  | list .. => true
  | _ => false

/-- Whether the expression can stand on the left of an assignment. -/
def isReceiver : Expr → Bool
  | access .. | element .. => true
  | _ => false

/-- The symbol of the variable that an access mentions. -/
def receiverSymbol? : Expr → Option Variable
  | access _ symbol _ | element _ _ symbol _ => symbol
  | _ => none

end Expr

mutual

inductive Stmt where
  | expression (e : Expr)
  /-- `LET`, with a type, an initial value or both. -/
  | declaration (name : String) (typeName : Option String) (value : Option Expr)
      (symbol : Option Variable)
  | assignment (receiver value : Expr)
  | conditional (condition : Expr) (consequent alternative : List Stmt)
  | switch (subject : Expr) (cases : List Case)
  | loop (condition : Expr) (body : List Stmt)
  | returns (value : Expr)
deriving Repr

/-- A case of a `SWITCH`; the default case has no value. -/
inductive Case where
  | mk (value : Option Expr) (body : List Stmt)
deriving Repr

end

instance : Inhabited Stmt :=
  ⟨.returns default⟩

namespace Case

def value : Case → Option Expr
  | mk value _ => value

def body : Case → List Stmt
  | mk _ body => body

def isDefault (case : Case) : Bool :=
  case.value.isNone

end Case

structure Global where
  name : String
  typeName : Option String
  isMutable : Bool
  value : Option Expr
  symbol : Option Variable := none
deriving Inhabited, Repr

structure Function where
  name : String
  parameters : List String
  /-- The names of the parameters' types, in the order of `parameters`. -/
  parameterTypes : List String
  returnType : Option String
  body : List Stmt
  signature : Option Signature := none
deriving Inhabited, Repr

structure Source where
  globals : List Global
  functions : List Function
deriving Inhabited, Repr

end ProcLang
