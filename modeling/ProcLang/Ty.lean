/-! # Types

`any` lies above every type and `comparable` above the four ordered ones; all other types are
unrelated. Programs name types, so each type has a name; a nominal type is its name.
-/

namespace ProcLang

set_option autoImplicit false

inductive Ty where
  | any
  | nil
  | comparable
  | boolean
  | integer
  | decimal
  | character
  | string
  | named (name : String)
deriving DecidableEq, Repr

namespace Ty

def builtins : List Ty :=
  [any, nil, comparable, boolean, integer, decimal, character, string]

def name : Ty → String
  | any => "Any"
  | nil => "Nil"
  | comparable => "Comparable"
  | boolean => "Boolean"
  | integer => "Integer"
  | decimal => "Decimal"
  | character => "Character"
  | string => "String"
  | named name => name

/-- The types directly below `comparable`. -/
def isComparable : Ty → Bool
  | integer | decimal | character | string => true
  | _ => false

def isNumeric : Ty → Bool
  | integer | decimal => true
  | _ => false

/-- Whether a value of type `source` may stand where one of type `target` is expected. -/
def accepts (target source : Ty) : Bool :=
  match target with
  | any => true
  | comparable => source.isComparable || source = comparable
  | _ => target = source

def builtin? (name : String) : Option Ty :=
  builtins.find? fun ty => ty.name = name

end Ty

end ProcLang
