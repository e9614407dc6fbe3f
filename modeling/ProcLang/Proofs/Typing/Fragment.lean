import Mathlib.Tactic.MkIffOfInductiveProp
import ProcLang.Proofs.Declarations
import ProcLang.Proofs.Grammar.Shape

/-! # The fragment that the types cover

Some programs that are accepted can fail for the kinds of their values: items of lists have no type
of their own, variables without an initial value are nil whatever their type, `comparable` joins
values without a common order, and a function may end without the value that it promises. The
programs of the fragment have none of this. What belongs to it can be told before and after
checking.
-/

namespace ProcLang

set_option autoImplicit false

/-- No item of a list is accessed. -/
def Expr.isIndexFree (e : Expr) : Bool :=
  e.every fun e => !e.isElement

namespace Stmt

def isIndexFree (s : Stmt) : Bool :=
  s.expressions.all Expr.isIndexFree

def isInitialized : Stmt → Bool
  | declaration _ _ value _ => value.isSome
  | _ => true

/-- A declaration names no type but those of single kinds and `any`. -/
def isSpecific : Stmt → Bool
  | declaration _ typeName _ _ => typeName ≠ some "Comparable"
  | _ => true

/-- Whether the last of some statements returns a value. -/
def endsInReturn (statements : List Stmt) : Bool :=
  match statements.getLast? with
  | some (returns _) => true
  | _ => false

end Stmt

@[mk_iff]
structure Source.Covered (source : Source) : Prop where
  /-- There are no `LIST` globals. -/
  notLists : ∀ global ∈ source.globals, global.value.all (fun value => !value.isList) = true
  globalsIndexFree : ∀ global ∈ source.globals, global.value.all Expr.isIndexFree = true
  indexFree : ∀ function ∈ source.functions, Stmt.everyIn Stmt.isIndexFree function.body = true
  globalsInitialized : ∀ global ∈ source.globals, global.value.isSome = true
  initialized : ∀ function ∈ source.functions, Stmt.everyIn Stmt.isInitialized function.body = true
  globalAnnotations : ∀ global ∈ source.globals, global.typeName ≠ some "Comparable"
  annotations : ∀ function ∈ source.functions,
    Stmt.everyIn Stmt.isSpecific function.body = true
  parameterTypes : ∀ function ∈ source.functions, "Comparable" ∉ function.parameterTypes
  returnTypes : ∀ function ∈ source.functions, function.returnType ≠ some "Comparable"
  distinct : (source.functions.map Function.key).Nodup
  notPrint : ∀ function ∈ source.functions, function.key ≠ ("print", 1)
  /-- Functions that promise a value end in `RETURN`. -/
  returning : ∀ function ∈ source.functions,
    function.returnType ∈ [none, some "Nil", some "Any"] ∨ Stmt.endsInReturn function.body = true

instance (source : Source) : Decidable source.Covered :=
  decidable_of_iff' _ (source.covered_iff)

theorem Expr.isIndexFree_erase (e : Expr) : e.erase.isIndexFree = e.isIndexFree :=
  every_erase (fun e => congrArg (!·) e.isElement_erase) e

namespace Stmt

theorem isIndexFree_erase (s : Stmt) : s.erase.isIndexFree = s.isIndexFree := by
  rw [isIndexFree, expressions_erase, List.all_map]
  exact congrArg (List.all s.expressions) (funext Expr.isIndexFree_erase)

theorem isInitialized_erase (s : Stmt) : s.erase.isInitialized = s.isInitialized := by
  cases s with
  | declaration name typeName value symbol => cases value <;> rfl
  | expression | assignment | conditional | switch | loop | returns => rfl

theorem isSpecific_erase (s : Stmt) : s.erase.isSpecific = s.isSpecific := by
  cases s <;> rfl

theorem eraseBlock_eq_map (statements : List Stmt) : eraseBlock statements = statements.map erase := by
  induction statements with
  | nil => rfl
  | cons s statements ih => rw [eraseBlock, List.map_cons, ih]

theorem endsInReturn_eraseBlock (statements : List Stmt) :
    endsInReturn (eraseBlock statements) = endsInReturn statements := by
  unfold endsInReturn
  rw [eraseBlock_eq_map, List.getLast?_map]
  cases statements.getLast? with
  | none => rfl
  | some s => cases s <;> rfl

end Stmt

theorem Function.parsed_erase (function : Function) : function.erase.Parsed ↔ function.Parsed := by
  have hBody := Stmt.everyIn_eraseBlock Stmt.isPlain_erase function.body
  constructor
  · exact fun h => ⟨h.parameterTypes, hBody.symm.trans h.isPlain⟩
  · exact fun h => ⟨h.parameterTypes, hBody.trans h.isPlain⟩

theorem Source.covered_erase (source : Source) : source.erase.Covered ↔ source.Covered := by
  have hKey : Function.key ∘ Function.erase = Function.key := rfl
  simp only [covered_iff, erase, List.forall_mem_map, List.map_map, hKey, Global.erase,
    Function.erase, Option.all_map, Option.isSome_map, Expr.isList_erase,
    Expr.isIndexFree_erase, Stmt.everyIn_eraseBlock Stmt.isIndexFree_erase,
    Stmt.everyIn_eraseBlock Stmt.isInitialized_erase, Stmt.everyIn_eraseBlock Stmt.isSpecific_erase,
    Stmt.endsInReturn_eraseBlock]
  rfl

namespace Expr

variable {e left right index : Expr} {arguments items : List Expr}

theorem isIndexFree_group {inner : Expr} {ty : Option Ty} :
    (group inner ty).isIndexFree = true ↔ inner.isIndexFree = true := by
  simp [isIndexFree, every, isElement]

theorem isIndexFree_binary {operator : Operator} {ty : Option Ty} :
    (binary operator left right ty).isIndexFree = true ↔
      left.isIndexFree = true ∧ right.isIndexFree = true := by
  simp [isIndexFree, every, isElement]

theorem not_isIndexFree_element {name : String} {symbol : Option Variable} {ty : Option Ty} :
    (element name index symbol ty).isIndexFree = false := by
  simp [isIndexFree, every, isElement]

theorem isIndexFree_call {name : String} {signature : Option Signature} {ty : Option Ty} :
    (call name arguments signature ty).isIndexFree = true ↔
      ∀ argument ∈ arguments, argument.isIndexFree = true := by
  simp [isIndexFree, every, isElement, everyItem_iff]

theorem isIndexFree_list {ty : Option Ty} :
    (list items ty).isIndexFree = true ↔ ∀ item ∈ items, item.isIndexFree = true := by
  simp [isIndexFree, every, isElement, everyItem_iff]

end Expr

namespace Stmt

/-- A statement as it may stand in a function of the fragment. -/
def isTame (s : Stmt) : Bool :=
  s.isIndexFree && s.isInitialized && s.isSpecific && s.isPlain

mutual

theorem every_and (p q : Stmt → Bool) (s : Stmt) :
    s.every (fun s => p s && q s) = (s.every p && s.every q) := by
  cases s with
  | expression | declaration | assignment | returns => rfl
  | conditional condition consequent alternative =>
    simp only [every, everyIn_and p q consequent, everyIn_and p q alternative]
    ac_rfl
  | switch subject cases =>
    simp only [every, everyInCases_and p q cases]
    ac_rfl
  | loop condition body =>
    simp only [every, everyIn_and p q body]
    ac_rfl

theorem everyIn_and (p q : Stmt → Bool) (statements : List Stmt) :
    everyIn (fun s => p s && q s) statements = (everyIn p statements && everyIn q statements) := by
  cases statements with
  | nil => rfl
  | cons s statements =>
    simp only [everyIn, every_and p q s, everyIn_and p q statements]
    ac_rfl

theorem everyInCases_and (p q : Stmt → Bool) (cases : List Case) :
    everyInCases (fun s => p s && q s) cases = (everyInCases p cases && everyInCases q cases) := by
  cases cases with
  | nil => rfl
  | cons case cases =>
    obtain ⟨value, body⟩ := case
    simp only [everyInCases, everyIn_and p q body, everyInCases_and p q cases]
    ac_rfl

end

end Stmt

structure Function.Covered (function : Function) : Prop where
  body : Stmt.everyIn Stmt.isTame function.body = true
  parameterTypes : "Comparable" ∉ function.parameterTypes
  returnType : function.returnType ≠ some "Comparable"
  returning : function.returnType ∈ [none, some "Nil", some "Any"] ∨
    Stmt.endsInReturn function.body = true

theorem Source.Covered.function_covered {source : Source} (h : source.Covered) {function : Function}
    (hMem : function ∈ source.functions)
    (hPlain : Stmt.everyIn Stmt.isPlain function.body = true) : function.Covered where
  body := by
    have hTame : Stmt.isTame = fun s =>
        (s.isIndexFree && s.isInitialized && s.isSpecific) && s.isPlain := rfl
    rw [hTame, Stmt.everyIn_and, Stmt.everyIn_and, Stmt.everyIn_and, hPlain,
      h.indexFree function hMem, h.initialized function hMem, h.annotations function hMem]
    rfl
  parameterTypes := h.parameterTypes function hMem
  returnType := h.returnTypes function hMem
  returning := h.returning function hMem

end ProcLang
