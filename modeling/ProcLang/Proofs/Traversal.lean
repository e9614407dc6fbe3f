import ProcLang.Proofs.Typing.Erasure

/-! # Conditions on all parts of a tree

A condition on expressions is asked of an expression and all those inside it, a condition on
statements of the statements of a block and all those inside them. Conditions that read no slots do
not see the difference between a tree and what it is checked to.
-/

namespace ProcLang

set_option autoImplicit false

namespace Expr

def isElement : Expr → Bool
  | element .. => true
  | _ => false

mutual

def every (p : Expr → Bool) : Expr → Bool
  | literal value ty => p (literal value ty)
  | group inner ty => p (group inner ty) && every p inner
  | binary operator left right ty => p (binary operator left right ty) && every p left && every p right
  | access name symbol ty => p (access name symbol ty)
  | element name index symbol ty => p (element name index symbol ty) && every p index
  | call name arguments signature ty =>
    p (call name arguments signature ty) && everyItem p arguments
  | list items ty => p (list items ty) && everyItem p items

def everyItem (p : Expr → Bool) : List Expr → Bool
  | [] => true
  | e :: es => every p e && everyItem p es

end

theorem everyItem_iff {p : Expr → Bool} (es : List Expr) :
    everyItem p es = true ↔ ∀ e ∈ es, e.every p = true := by
  induction es with
  | nil => simp [everyItem]
  | cons e es ih => simp [everyItem, ih]

mutual

theorem every_of_forall {p : Expr → Bool} (hp : ∀ e, p e = true) (e : Expr) : e.every p = true := by
  cases e with
  | literal | access => exact hp _
  | group inner => simp only [every, hp, every_of_forall hp inner, Bool.and_self]
  | binary operator left right =>
    simp only [every, hp, every_of_forall hp left, every_of_forall hp right, Bool.and_self]
  | element name index => simp only [every, hp, every_of_forall hp index, Bool.and_self]
  | call name arguments => simp only [every, hp, everyItem_of_forall hp arguments, Bool.and_self]
  | list items => simp only [every, hp, everyItem_of_forall hp items, Bool.and_self]

theorem everyItem_of_forall {p : Expr → Bool} (hp : ∀ e, p e = true) (es : List Expr) :
    everyItem p es = true := by
  cases es with
  | nil => rfl
  | cons e es => simp only [everyItem, every_of_forall hp e, everyItem_of_forall hp es, Bool.and_self]

end

theorem isElement_erase (e : Expr) : e.erase.isElement = e.isElement := by
  cases e <;> rfl

mutual

theorem every_erase {p : Expr → Bool} (hp : ∀ e : Expr, p e.erase = p e) (e : Expr) :
    e.erase.every p = e.every p := by
  cases e with
  | literal value ty => exact hp (literal value ty)
  | access name symbol ty => exact hp (access name symbol ty)
  | group inner ty =>
    have hNode := hp (group inner ty)
    simp only [erase] at hNode
    simp only [erase, every, hNode, every_erase hp inner]
  | binary operator left right ty =>
    have hNode := hp (binary operator left right ty)
    simp only [erase] at hNode
    simp only [erase, every, hNode, every_erase hp left, every_erase hp right]
  | element name index symbol ty =>
    have hNode := hp (element name index symbol ty)
    simp only [erase] at hNode
    simp only [erase, every, hNode, every_erase hp index]
  | call name arguments signature ty =>
    have hNode := hp (call name arguments signature ty)
    simp only [erase] at hNode
    simp only [erase, every, hNode, everyItem_eraseAll hp arguments]
  | list items ty =>
    have hNode := hp (list items ty)
    simp only [erase] at hNode
    simp only [erase, every, hNode, everyItem_eraseAll hp items]

theorem everyItem_eraseAll {p : Expr → Bool} (hp : ∀ e : Expr, p e.erase = p e) (es : List Expr) :
    everyItem p (eraseAll es) = everyItem p es := by
  cases es with
  | nil => rfl
  | cons e es =>
    simp only [eraseAll, everyItem, every_erase hp e, everyItem_eraseAll hp es]

end

end Expr

namespace Stmt

mutual

def every (p : Stmt → Bool) : Stmt → Bool
  | expression e => p (expression e)
  | declaration name typeName value symbol => p (declaration name typeName value symbol)
  | assignment receiver value => p (assignment receiver value)
  | conditional condition consequent alternative =>
    p (conditional condition consequent alternative) && everyIn p consequent && everyIn p alternative
  | switch subject cases => p (switch subject cases) && everyInCases p cases
  | loop condition body => p (loop condition body) && everyIn p body
  | returns value => p (returns value)

def everyIn (p : Stmt → Bool) : List Stmt → Bool
  | [] => true
  | statement :: rest => every p statement && everyIn p rest

def everyInCases (p : Stmt → Bool) : List Case → Bool
  | [] => true
  | ⟨_, body⟩ :: rest => everyIn p body && everyInCases p rest

end

mutual

theorem every_erase {p : Stmt → Bool} (hp : ∀ s : Stmt, p s.erase = p s) (s : Stmt) :
    s.erase.every p = s.every p := by
  cases s with
  | expression e => exact hp (expression e)
  | declaration name typeName value symbol => exact hp (declaration name typeName value symbol)
  | assignment receiver value => exact hp (assignment receiver value)
  | returns value => exact hp (returns value)
  | conditional condition consequent alternative =>
    have hNode := hp (conditional condition consequent alternative)
    simp only [erase] at hNode
    simp only [erase, every, hNode, everyIn_eraseBlock hp consequent,
      everyIn_eraseBlock hp alternative]
  | switch subject cases =>
    have hNode := hp (switch subject cases)
    simp only [erase] at hNode
    simp only [erase, every, hNode, everyInCases_eraseCases hp cases]
  | loop condition body =>
    have hNode := hp (loop condition body)
    simp only [erase] at hNode
    simp only [erase, every, hNode, everyIn_eraseBlock hp body]

theorem everyIn_eraseBlock {p : Stmt → Bool} (hp : ∀ s : Stmt, p s.erase = p s)
    (statements : List Stmt) : everyIn p (eraseBlock statements) = everyIn p statements := by
  cases statements with
  | nil => rfl
  | cons statement rest =>
    simp only [eraseBlock, everyIn, every_erase hp statement, everyIn_eraseBlock hp rest]

theorem everyInCases_eraseCases {p : Stmt → Bool} (hp : ∀ s : Stmt, p s.erase = p s)
    (cases : List Case) : everyInCases p (eraseCases cases) = everyInCases p cases := by
  cases cases with
  | nil => rfl
  | cons case rest =>
    obtain ⟨value, body⟩ := case
    simp only [eraseCases, everyInCases, everyIn_eraseBlock hp body,
      everyInCases_eraseCases hp rest]

end

mutual

theorem every_of_forall {p : Stmt → Bool} (hp : ∀ s, p s = true) (s : Stmt) : s.every p = true := by
  cases s with
  | expression | declaration | assignment | returns => exact hp _
  | conditional condition consequent alternative =>
    simp only [every, hp, everyIn_of_forall hp consequent, everyIn_of_forall hp alternative,
      Bool.and_self]
  | switch subject cases => simp only [every, hp, everyInCases_of_forall hp cases, Bool.and_self]
  | loop condition body => simp only [every, hp, everyIn_of_forall hp body, Bool.and_self]

theorem everyIn_of_forall {p : Stmt → Bool} (hp : ∀ s, p s = true) (statements : List Stmt) :
    everyIn p statements = true := by
  cases statements with
  | nil => rfl
  | cons statement rest =>
    simp only [everyIn, every_of_forall hp statement, everyIn_of_forall hp rest, Bool.and_self]

theorem everyInCases_of_forall {p : Stmt → Bool} (hp : ∀ s, p s = true) (cases : List Case) :
    everyInCases p cases = true := by
  cases cases with
  | nil => rfl
  | cons case rest =>
    obtain ⟨value, body⟩ := case
    simp only [everyInCases, everyIn_of_forall hp body, everyInCases_of_forall hp rest,
      Bool.and_self]

end

theorem of_every {p : Stmt → Bool} {s : Stmt} (h : s.every p = true) : p s = true := by
  cases s <;> simp_all [every]

theorem everyIn_iff {p : Stmt → Bool} (statements : List Stmt) :
    everyIn p statements = true ↔ ∀ s ∈ statements, s.every p = true := by
  induction statements with
  | nil => simp [everyIn]
  | cons s statements ih => simp [everyIn, ih]

theorem everyInCases_iff {p : Stmt → Bool} (cases : List Case) :
    everyInCases p cases = true ↔ ∀ case ∈ cases, everyIn p case.body = true := by
  induction cases with
  | nil => simp [everyInCases]
  | cons case cases ih =>
    obtain ⟨value, body⟩ := case
    simp [everyInCases, ih, Case.body]

/-- The expressions that a statement evaluates itself. -/
def expressions : Stmt → List Expr
  | expression e => [e]
  | declaration _ _ value _ => value.toList
  | assignment receiver value => [receiver, value]
  | conditional condition _ _ => [condition]
  | switch subject cases => subject :: cases.filterMap Case.value
  | loop condition _ => [condition]
  | returns value => [value]

theorem filterMap_eraseCases (cases : List Case) :
    (eraseCases cases).filterMap Case.value = (cases.filterMap Case.value).map Expr.erase := by
  induction cases with
  | nil => rfl
  | cons case rest ih =>
    obtain ⟨value, body⟩ := case
    cases value with
    | none => exact ih
    | some value => exact congrArg (value.erase :: ·) ih

theorem expressions_erase (s : Stmt) : s.erase.expressions = s.expressions.map Expr.erase := by
  cases s with
  | declaration name typeName value symbol => cases value <;> rfl
  | switch subject cases => simp [erase, expressions, filterMap_eraseCases]
  | expression | assignment | conditional | loop | returns => rfl

end Stmt

end ProcLang
