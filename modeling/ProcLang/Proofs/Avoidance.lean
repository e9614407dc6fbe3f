import ProcLang.Proofs.Traversal

/-! # Names that are not mentioned

Code that avoids a name neither mentions nor declares a variable of this name.
-/

namespace ProcLang

set_option autoImplicit false

namespace Expr

variable {name other : String} {slot : Option Ty}

/-- The variable that an expression itself mentions. -/
def mentioned? : Expr → Option String
  | access name _ _ | element name _ _ _ => some name
  | _ => none

/-- Whether no part of an expression mentions a variable. -/
def avoids (e : Expr) (name : String) : Bool :=
  e.every fun part => part.mentioned? ≠ some name

theorem avoids_group {inner : Expr} : (group inner slot).avoids name ↔ inner.avoids name := by
  simp [avoids, every, mentioned?]

theorem avoids_binary {operator : Operator} {left right : Expr} :
    (binary operator left right slot).avoids name ↔ left.avoids name ∧ right.avoids name := by
  simp [avoids, every, mentioned?]

theorem avoids_access {symbol : Option Variable} :
    (access other symbol slot).avoids name ↔ other ≠ name := by
  simp [avoids, every, mentioned?]

theorem avoids_element {index : Expr} {symbol : Option Variable} :
    (element other index symbol slot).avoids name ↔ other ≠ name ∧ index.avoids name := by
  simp [avoids, every, mentioned?]

theorem avoids_call {arguments : List Expr} {signature : Option Signature} :
    (call other arguments signature slot).avoids name ↔ ∀ e ∈ arguments, e.avoids name := by
  simp [avoids, every, mentioned?, everyItem_iff]

theorem avoids_list {items : List Expr} :
    (list items slot).avoids name ↔ ∀ e ∈ items, e.avoids name := by
  simp [avoids, every, mentioned?, everyItem_iff]

end Expr

namespace Stmt

def declared? : Stmt → Option String
  | declaration name _ _ _ => some name
  | _ => none

def avoidsHere (name : String) (s : Stmt) : Bool :=
  s.declared? ≠ some name && s.expressions.all fun e => e.avoids name

/-- Whether no statement within this one mentions or declares a variable. -/
def avoids (s : Stmt) (name : String) : Bool :=
  s.every (avoidsHere name)

def blockAvoids (statements : List Stmt) (name : String) : Bool :=
  everyIn (avoidsHere name) statements

end Stmt

def Case.avoids (case : Case) (name : String) : Bool :=
  case.value.all (fun value => value.avoids name) && Stmt.blockAvoids case.body name

namespace Stmt

variable {name other : String}

theorem avoids_expression {e : Expr} : (expression e).avoids name ↔ e.avoids name := by
  simp [avoids, every, avoidsHere, declared?, expressions]

theorem avoids_declaration {typeName : Option String} {value : Option Expr}
    {symbol : Option Variable} : (declaration other typeName value symbol).avoids name ↔
      other ≠ name ∧ ∀ e ∈ value, e.avoids name := by
  simp [avoids, every, avoidsHere, declared?, expressions]

theorem avoids_assignment {receiver value : Expr} :
    (assignment receiver value).avoids name ↔ receiver.avoids name ∧ value.avoids name := by
  simp [avoids, every, avoidsHere, declared?, expressions]

theorem avoids_conditional {condition : Expr} {consequent alternative : List Stmt} :
    (conditional condition consequent alternative).avoids name ↔
      condition.avoids name ∧ blockAvoids consequent name ∧ blockAvoids alternative name := by
  simp [avoids, blockAvoids, every, avoidsHere, declared?, expressions, and_assoc]

theorem avoids_switch {subject : Expr} {cases : List Case} :
    (switch subject cases).avoids name ↔
      subject.avoids name ∧ ∀ case ∈ cases, case.avoids name := by
  have hCases : (∀ case ∈ cases, case.avoids name) ↔
      (∀ value ∈ cases.filterMap Case.value, value.avoids name) ∧
        ∀ case ∈ cases, blockAvoids case.body name := by
    simp only [Case.avoids, Bool.and_eq_true, List.mem_filterMap, Option.all_eq_true]
    grind
  rw [hCases]
  simp only [avoids, blockAvoids, every, avoidsHere, declared?, expressions, Bool.and_eq_true,
    List.all_cons, List.all_eq_true, everyInCases_iff, and_assoc]
  simp

theorem avoids_loop {condition : Expr} {body : List Stmt} :
    (loop condition body).avoids name ↔ condition.avoids name ∧ blockAvoids body name := by
  simp [avoids, blockAvoids, every, avoidsHere, declared?, expressions]

theorem avoids_returns {value : Expr} : (returns value).avoids name ↔ value.avoids name := by
  simp [avoids, every, avoidsHere, declared?, expressions]

theorem blockAvoids_cons {s : Stmt} {rest : List Stmt} :
    blockAvoids (s :: rest) name ↔ s.avoids name ∧ blockAvoids rest name := by
  simp [blockAvoids, avoids, everyIn]

end Stmt

theorem Case.avoids_iff {value : Option Expr} {body : List Stmt} {name : String} :
    (Case.mk value body).avoids name ↔
      (∀ e ∈ value, e.avoids name) ∧ Stmt.blockAvoids body name := by
  cases value <;> simp [avoids, Case.value, Case.body]

/-- Whether a function neither mentions a variable nor has a parameter of this name. -/
def Function.avoids (function : Function) (name : String) : Bool :=
  name ∉ function.parameters && Stmt.blockAvoids function.body name

theorem Function.avoids_iff {function : Function} {name : String} : function.avoids name ↔
    (∀ parameter ∈ function.parameters, parameter ≠ name) ∧ Stmt.blockAvoids function.body name := by
  simp only [avoids, Bool.and_eq_true, decide_eq_true_eq]
  grind

end ProcLang
