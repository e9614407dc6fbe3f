import ProcLang.Decimal.Display

/-! # Values

What expressions evaluate to. Equality is by value: decimals are equal if they are the same number,
whatever their scales, and lists if their items are.
-/

namespace ProcLang

set_option autoImplicit false

/-- The kinds of values that a running program tells apart. -/
inductive Tag where
  | nil
  | boolean
  | integer
  | decimal
  | character
  | string
  | list
deriving DecidableEq, Repr

def Tag.name : Tag → String
  | nil => "Nil"
  | boolean => "Boolean"
  | integer => "Integer"
  | decimal => "Decimal"
  | character => "Character"
  | string => "String"
  | list => "List"

inductive Value where
  | nil
  | boolean (b : Bool)
  | integer (n : Int)
  | decimal (d : Decimal)
  | character (c : Char)
  | string (s : String)
  | list (items : List Value)
deriving Inhabited, Repr

namespace Value

def tag : Value → Tag
  | nil => .nil
  | boolean _ => .boolean
  | integer _ => .integer
  | decimal _ => .decimal
  | character _ => .character
  | string _ => .string
  | list _ => .list

def isString (value : Value) : Bool :=
  value.tag = .string

/-- Whether the value is the truth value true; all others count as false. -/
def isTrue : Value → Bool
  | boolean b => b
  | _ => false

mutual

def equal : Value → Value → Bool
  | nil, nil => true
  | boolean a, boolean b => a = b
  | integer a, integer b => a = b
  | decimal a, decimal b => a.compare b = .eq
  | character a, character b => a = b
  | string a, string b => a = b
  | list as, list bs => equalItems as bs
  | _, _ => false

def equalItems : List Value → List Value → Bool
  | [], [] => true
  | a :: as, b :: bs => equal a b && equalItems as bs
  | _, _ => false

end

instance : BEq Value :=
  ⟨equal⟩

/-- The order of two values of one ordered kind. -/
def order? : Value → Value → Option Ordering
  | integer a, integer b => some (compare a b)
  | decimal a, decimal b => some (a.compare b)
  | character a, character b => some (compare a b)
  | string a, string b => some (compare a b)
  | _, _ => none

mutual

/-- The text of a value, as it is printed and joined to strings. -/
def display : Value → String
  | nil => "NIL"
  | boolean b => if b then "true" else "false"
  | integer n => toString n
  | decimal d => d.display
  | character c => String.singleton c
  | string s => s
  | list items => "[" ++ displayItems items ++ "]"

def displayItems : List Value → String
  | [] => ""
  | [item] => display item
  | item :: items => display item ++ ", " ++ displayItems items

end

end Value

end ProcLang
