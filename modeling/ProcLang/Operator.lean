/-! # Binary operators

Each operator has a symbol of its own, and belongs to one of the four levels at which expressions
are read. All levels associate to the left; `^` binds like `*`.
-/

namespace ProcLang

set_option autoImplicit false

inductive Operator where
  | and
  | or
  | less
  | greater
  | equal
  | notEqual
  | add
  | subtract
  | multiply
  | divide
  | power
deriving DecidableEq, Repr

/-- The levels of binary expressions, loosest first. -/
inductive Level where
  | logical
  | comparison
  | additive
  | multiplicative
deriving DecidableEq, Repr

namespace Operator

def all : List Operator :=
  [and, or, less, greater, equal, notEqual, add, subtract, multiply, divide, power]

def symbol : Operator → String
  | and => "&&"
  | or => "||"
  | less => "<"
  | greater => ">"
  | equal => "=="
  | notEqual => "!="
  | add => "+"
  | subtract => "-"
  | multiply => "*"
  | divide => "/"
  | power => "^"

def ofSymbol? (symbol : String) : Option Operator :=
  all.find? fun operator => operator.symbol = symbol

def level : Operator → Level
  | and | or => .logical
  | less | greater | equal | notEqual => .comparison
  | add | subtract => .additive
  | multiply | divide | power => .multiplicative

def isLogical (operator : Operator) : Bool :=
  operator.level = .logical

def isComparison (operator : Operator) : Bool :=
  operator.level = .comparison

end Operator

end ProcLang
