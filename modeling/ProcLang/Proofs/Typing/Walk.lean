import ProcLang.Proofs.Typing.FrameStack
import ProcLang.Proofs.Typing.Success

/-! # Walking through one set of scopes

Statements are checked in scopes that are handed down, so that what a block defines is gone at its
end. A walk changes one set of scopes instead: it enters a frame before each block and leaves it
behind the block, also when an error ends the walk there. Both come to the same answer, and leave
the same stack of frames.
-/

namespace ProcLang

set_option autoImplicit false

/-- Computes in a frame of its own, which is left again whatever the outcome. -/
def Check.inFrame {α : Type} (enter : FrameAction) (computation : Check α) : Check α :=
  ExceptT.mk do
    modify fun scopes => scopes.step enter
    let result ← computation.run
    modify Scopes.pop
    return result

namespace Stmt

mutual

def walk (types : TypeRegistry) : Stmt → Check Stmt
  | expression e => do
    unless e.isCall do
      throw .expressionNotCall
    let (_, e) ← liftExcept (e.check (← get))
    return expression e
  | declaration name typeName value _ => do
    let (ty, value) ← liftExcept (checkBinding types (← get) name typeName value)
    let symbol := ⟨name, ty, true⟩
    modify fun scopes => scopes.defineVariable symbol
    return declaration name typeName value (some symbol)
  | assignment receiver value => do
    let (receiver, value) ← liftExcept (checkAssignment (← get) receiver value)
    return assignment receiver value
  | conditional condition consequent alternative => do
    let condition ← liftExcept (checkCondition (← get) condition)
    if consequent.isEmpty then
      throw .emptyConsequent
    let consequent ← Check.inFrame .push (walkBlock types consequent)
    let alternative ← Check.inFrame .push (walkBlock types alternative)
    return conditional condition consequent alternative
  | switch subject cases => do
    let (subjectType, subject) ← liftExcept (subject.check (← get))
    let defaults := cases.countP Case.isDefault
    unless defaults = 1 do
      throw (.defaultCaseCount defaults)
    let cases ← walkCases types subjectType cases
    return switch subject cases
  | loop condition body => do
    let condition ← liftExcept (checkCondition (← get) condition)
    let body ← Check.inFrame .push (walkBlock types body)
    return loop condition body
  | returns value => do
    let scopes ← get
    let (ty, value) ← liftExcept (value.check scopes)
    liftExcept (requireAssignable (scopes.returnType.getD .nil) ty)
    return returns value

def walkBlock (types : TypeRegistry) : List Stmt → Check (List Stmt)
  | [] => pure []
  | statement :: rest => do
    let statement ← walk types statement
    let rest ← walkBlock types rest
    return statement :: rest

def walkCases (types : TypeRegistry) (subjectType : Ty) : List Case → Check (List Case)
  | [] => pure []
  | ⟨value, body⟩ :: rest => do
    let (value, body) ← Check.inFrame .push do
      let value ← liftExcept (checkCaseValue (← get) subjectType value)
      let body ← walkBlock types body
      return (value, body)
    let rest ← walkCases types subjectType rest
    return ⟨value, body⟩ :: rest

end

end Stmt

namespace Function

def defineParameters (function : Function) (signature : Signature) (scopes : Scopes) : Scopes :=
  (function.parameters.zip signature.parameterTypes).foldl
    (fun scopes (name, ty) => scopes.defineVariable ⟨name, ty, false⟩) scopes

def walk (types : TypeRegistry) (function : Function) : Check Function := do
  let signature ← liftExcept (function.checkSignature types)
  modify fun scopes => scopes.defineFunction signature
  let body ← Check.inFrame (.pushFunction signature.returnType) do
    modify (function.defineParameters signature)
    Stmt.walkBlock types function.body
  return { function with body, signature := some signature }

end Function

def Source.walk (types : TypeRegistry) (source : Source) : Check Source := do
  liftExcept (source.checkMain types)
  let globals ← source.globals.mapM (Global.check types)
  let functions ← source.functions.mapM (Function.walk types)
  return ⟨globals, functions⟩

def Checker.walk (checker : Checker) (source : Source) : Except SemanticError Source × Checker :=
  let (result, scopes) := (source.walk checker.types).run.run checker.scopes
  (result, { checker with scopes })

/-- Scopes that may be numbered differently. -/
structure Scopes.SameStack (first second : Scopes) : Prop where
  left : first.Linked
  right : second.Linked
  stack_eq : first.stack = second.stack

namespace Scopes.SameStack

variable {first second : Scopes}

theorem step (h : first.SameStack second) (action : FrameAction) :
    (first.step action).SameStack (second.step action) where
  left := h.left.step action
  right := h.right.step action
  stack_eq := by
    rw [h.left.stack_step, h.right.stack_step, h.stack_eq]

theorem of_stack_eq (h : first.SameStack second) {scopes : Scopes} (hLinked : scopes.Linked)
    (hStack : scopes.stack = second.stack) : first.SameStack scopes :=
  ⟨h.left, hLinked, h.stack_eq.trans hStack.symm⟩

theorem lookupVariable_eq (h : first.SameStack second) (name : String) :
    first.lookupVariable name = second.lookupVariable name := by
  rw [first.answersAs_stack.lookupVariable, second.answersAs_stack.lookupVariable, h.stack_eq]

theorem lookupFunction_eq (h : first.SameStack second) (name : String) (arity : Nat) :
    first.lookupFunction name arity = second.lookupFunction name arity := by
  rw [first.answersAs_stack.lookupFunction, second.answersAs_stack.lookupFunction, h.stack_eq]

theorem returnType_eq (h : first.SameStack second) : first.returnType = second.returnType := by
  rw [first.answersAs_stack.returnType, second.answersAs_stack.returnType, h.stack_eq]

theorem requireVariable_eq (h : first.SameStack second) (name : String) :
    first.requireVariable name = second.requireVariable name := by
  rw [requireVariable, requireVariable, h.lookupVariable_eq]

theorem requireFunction_eq (h : first.SameStack second) (name : String) (arity : Nat) :
    first.requireFunction name arity = second.requireFunction name arity := by
  rw [requireFunction, requireFunction, h.lookupFunction_eq]

end Scopes.SameStack

section Same

variable {types : TypeRegistry} {first second : Scopes}

namespace Expr

mutual

theorem check_eq (h : first.SameStack second) (e : Expr) : e.check first = e.check second := by
  cases e with
  | literal value slot => rw [check, check]
  | group inner slot => rw [check, check, check_eq h inner]
  | binary operator left right slot => rw [check, check, check_eq h left, check_eq h right]
  | access name symbol slot => rw [check, check, h.requireVariable_eq]
  | element name index symbol slot => rw [check, check, check_eq h index, h.requireVariable_eq]
  | call name arguments signature slot =>
    rw [check, check, h.requireFunction_eq]
    simp only [checkArguments_eq h arguments]
  | list items slot => rw [check, check, checkItems_eq h items]

theorem checkArguments_eq (h : first.SameStack second) (arguments : List Expr)
    (parameterTypes : List Ty) :
    checkArguments first arguments parameterTypes =
      checkArguments second arguments parameterTypes := by
  cases arguments with
  | nil => rfl
  | cons argument arguments =>
    cases parameterTypes with
    | nil => rfl
    | cons parameterType parameterTypes =>
      rw [checkArguments, checkArguments, check_eq h argument, checkArguments_eq h arguments]

theorem checkItems_eq (h : first.SameStack second) (items : List Expr) :
    checkItems first items = checkItems second items := by
  cases items with
  | nil => rfl
  | cons item items => rw [checkItems, checkItems, check_eq h item, checkItems_eq h items]

end

theorem checkInitializer_eq (h : first.SameStack second) (declared : Ty) (value : Expr) :
    value.checkInitializer first declared = value.checkInitializer second declared := by
  cases value with
  | list items slot => simp only [checkInitializer, check_eq h]
  | literal | group | binary | access | element | call => simp only [checkInitializer, check_eq h]

end Expr

theorem checkBinding_eq (h : first.SameStack second) (name : String) (typeName : Option String)
    (value : Option Expr) :
    checkBinding types first name typeName value =
      checkBinding types second name typeName value := by
  simp only [checkBinding, Expr.check_eq h, Expr.checkInitializer_eq h]

theorem checkCondition_eq (h : first.SameStack second) (condition : Expr) :
    checkCondition first condition = checkCondition second condition := by
  rw [checkCondition, checkCondition, Expr.check_eq h]

theorem checkAssignment_eq (h : first.SameStack second) (receiver value : Expr) :
    checkAssignment first receiver value = checkAssignment second receiver value := by
  simp only [checkAssignment, Expr.check_eq h]

theorem checkCaseValue_eq (h : first.SameStack second) (subject : Ty) (value : Option Expr) :
    checkCaseValue first subject value = checkCaseValue second subject value := by
  cases value with
  | none => rfl
  | some value => rw [checkCaseValue, checkCaseValue, Expr.check_eq h]

end Same

/-- The frames around the current one stay as they are. -/
structure Scopes.KeepsBelow (scopes scopes' : Scopes) : Prop where
  linked : scopes'.Linked
  below_eq : scopes'.stack.below = scopes.stack.below

namespace Scopes.KeepsBelow

variable {scopes scopes₁ scopes₂ : Scopes}

theorem refl (h : scopes.Linked) : scopes.KeepsBelow scopes :=
  ⟨h, rfl⟩

theorem trans (h : scopes.KeepsBelow scopes₁) (h' : scopes₁.KeepsBelow scopes₂) :
    scopes.KeepsBelow scopes₂ :=
  ⟨h'.linked, h'.below_eq.trans h.below_eq⟩

theorem of_stack_eq (h : scopes₁.Linked) (hStack : scopes₁.stack = scopes.stack) :
    scopes.KeepsBelow scopes₁ :=
  ⟨h, congrArg FrameStack.below hStack⟩

theorem defineVariable (h : scopes.Linked) (symbol : Variable) :
    scopes.KeepsBelow (scopes.defineVariable symbol) where
  linked := h.step (.defineVariable symbol)
  below_eq := by
    have hBelow := congrArg FrameStack.below (h.stack_step (.defineVariable symbol))
    exact hBelow

/-- A frame that was entered is left for the frame in which that was done. -/
theorem pop {enter : FrameAction} (hEnter : enter.enters = true) (hScopes : scopes.Linked)
    (h : (scopes.step enter).KeepsBelow scopes₁) :
    scopes₁.pop.Linked ∧ scopes₁.pop.stack = scopes.stack := by
  refine ⟨h.linked.pop, ?_⟩
  have hBelow := h.below_eq
  rw [hScopes.stack_step, FrameStack.below_step_enters hEnter] at hBelow
  rw [h.linked.stack_pop]
  exact FrameStack.leave_of_below hBelow

end Scopes.KeepsBelow

theorem Scopes.SameStack.defineParameters {first second : Scopes} (h : first.SameStack second)
    (parameters : List (String × Ty)) :
    let define (scopes : Scopes) := parameters.foldl
      (fun scopes (name, ty) => scopes.defineVariable ⟨name, ty, false⟩) scopes
    (define first).SameStack (define second) ∧ second.KeepsBelow (define second) := by
  induction parameters generalizing first second with
  | nil => exact ⟨h, .refl h.right⟩
  | cons parameter parameters ih =>
    obtain ⟨hSame, hKeeps⟩ := ih (h.step (.defineVariable ⟨parameter.1, parameter.2, false⟩))
    exact ⟨hSame, (KeepsBelow.defineVariable h.right _).trans hKeeps⟩

namespace Check

variable {α β γ δ : Type}

theorem run_liftExcept (outcome : Except SemanticError α) (scopes : Scopes) :
    (liftExcept outcome : Check α).run.run scopes = (outcome, scopes) := by
  cases outcome <;> rfl

theorem run_bind_of_ok {first : Check α} {next : α → Check β} {scopes scopes' : Scopes} {a : α}
    (h : first.run.run scopes = (.ok a, scopes')) :
    (first >>= next).run.run scopes = (next a).run.run scopes' := by
  simp only [ExceptT.run_bind, StateT.run_bind, h]
  rfl

theorem run_bind_of_error {first : Check α} {next : α → Check β} {scopes scopes' : Scopes}
    {error : SemanticError} (h : first.run.run scopes = (.error error, scopes')) :
    (first >>= next).run.run scopes = (.error error, scopes') := by
  simp only [ExceptT.run_bind, StateT.run_bind, h]
  rfl

/-- A computation that succeeds or fails as expected, in the latter case with the same error. -/
inductive Follows (computation : Check β) (scopes : Scopes) (post : α → β → Scopes → Prop) :
    Except SemanticError α → Prop
  | ok {a b scopes'} (hRun : computation.run.run scopes = (.ok b, scopes'))
      (hKeeps : scopes.KeepsBelow scopes') (hPost : post a b scopes') :
    Follows computation scopes post (.ok a)
  | error {error scopes'} (hRun : computation.run.run scopes = (.error error, scopes'))
      (hKeeps : scopes.KeepsBelow scopes') :
    Follows computation scopes post (.error error)

variable {scopes : Scopes} {post : α → β → Scopes → Prop}

theorem follows_pure {a : α} {b : β} (h : scopes.Linked) (hPost : post a b scopes) :
    Follows (pure b) scopes post (pure a) :=
  .ok rfl (.refl h) hPost

theorem follows_liftExcept (h : scopes.Linked) (outcome : Except SemanticError α) :
    Follows (liftExcept outcome) scopes (fun a b scopes' => b = a ∧ scopes' = scopes) outcome := by
  cases outcome with
  | error error => exact .error rfl (.refl h)
  | ok a => exact .ok rfl (.refl h) ⟨rfl, rfl⟩

theorem Follows.bind {first : Check β} {outcome : Except SemanticError α} {next : β → Check δ}
    {next' : α → Except SemanticError γ} {post' : γ → δ → Scopes → Prop}
    (h : Follows first scopes post outcome)
    (hNext : ∀ {a b scopes'}, scopes.KeepsBelow scopes' → post a b scopes' →
      Follows (next b) scopes' post' (next' a)) :
    Follows (first >>= next) scopes post' (outcome >>= next') := by
  cases h with
  | error hRun hKeeps => exact .error (run_bind_of_error hRun) hKeeps
  | @ok a b scopes' hRun hKeeps hPost =>
    have hRest : (first >>= next).run.run scopes = (next b).run.run scopes' := run_bind_of_ok hRun
    have hFollows := hNext hKeeps hPost
    rw [except_ok_bind]
    generalize next' a = outcome' at hFollows ⊢
    cases hFollows with
    | error hRun' hKeeps' => exact .error (hRest.trans hRun') (hKeeps.trans hKeeps')
    | ok hRun' hKeeps' hPost' => exact .ok (hRest.trans hRun') (hKeeps.trans hKeeps') hPost'

theorem follows_get_bind {next : Scopes → Check β} {outcome : Except SemanticError α}
    (h : Follows (next scopes) scopes post outcome) :
    Follows (get >>= next) scopes post outcome := by
  cases h with
  | error hRun hKeeps => exact .error hRun hKeeps
  | ok hRun hKeeps hPost => exact .ok hRun hKeeps hPost

theorem follows_modify_bind {f : Scopes → Scopes} {next : Unit → Check β}
    {outcome : Except SemanticError α} (hKeeps : scopes.KeepsBelow (f scopes))
    (h : Follows (next ()) (f scopes) post outcome) :
    Follows (modify f >>= next) scopes post outcome := by
  cases h with
  | error hRun hRest => exact .error hRun (hKeeps.trans hRest)
  | ok hRun hRest hPost => exact .ok hRun (hKeeps.trans hRest) hPost

theorem follows_unless (h : scopes.Linked) {p : Prop} [Decidable p] {error : SemanticError}
    {next : Unit → Check β} {next' : Unit → Except SemanticError α}
    (hNext : Follows (next ()) scopes post (next' ())) :
    Follows (if p then next () else (throw error : Check Unit) >>= next) scopes post
      (if p then next' () else (throw error : Except SemanticError Unit) >>= next') := by
  split
  · exact hNext
  · exact .error rfl (.refl h)

theorem run_inFrame {enter : FrameAction} {computation : Check β} {inner : Scopes}
    {result : Except SemanticError β}
    (h : computation.run.run (scopes.step enter) = (result, inner)) :
    (inFrame enter computation).run.run scopes = (result, inner.pop) := by
  change ((computation.run.run (scopes.step enter)).1,
    (computation.run.run (scopes.step enter)).2.pop) = _
  rw [h]

theorem Follows.inFrame {enter : FrameAction} (hEnter : enter.enters = true)
    (hScopes : scopes.Linked) {computation : Check β} {outcome : Except SemanticError α}
    (h : Follows computation (scopes.step enter) post outcome) :
    Follows (Check.inFrame enter computation) scopes
      (fun a b scopes' => (∃ inner, post a b inner) ∧ scopes'.stack = scopes.stack) outcome := by
  cases h with
  | error hRun hKeeps =>
    obtain ⟨hLinked, hStack⟩ := hKeeps.pop hEnter hScopes
    exact .error (run_inFrame hRun) (.of_stack_eq hLinked hStack)
  | ok hRun hKeeps hPost =>
    obtain ⟨hLinked, hStack⟩ := hKeeps.pop hEnter hScopes
    exact .ok (run_inFrame hRun) (.of_stack_eq hLinked hStack) ⟨⟨_, hPost⟩, hStack⟩

end Check

section Statements

variable {types : TypeRegistry}

namespace Stmt

theorem case_follows {first second : Scopes} (h : first.SameStack second) (subject : Ty)
    (value : Option Expr) {body : List Stmt}
    (hBody : Check.Follows (walkBlock types body) second (fun checked walked _ => walked = checked)
      (checkBlock types first body)) :
    Check.Follows (do
        let value ← liftExcept (checkCaseValue (← get) subject value)
        let body ← walkBlock types body
        return (value, body)) second (fun checked walked _ => walked = checked) (do
        let value ← checkCaseValue first subject value
        let body ← checkBlock types first body
        return (value, body)) := by
  apply Check.follows_get_bind
  rw [← checkCaseValue_eq h]
  apply (Check.follows_liftExcept h.right _).bind
  rintro value' _ _ - ⟨rfl, rfl⟩
  apply hBody.bind
  rintro body' _ _ hKeeps rfl
  exact Check.follows_pure hKeeps.linked rfl

mutual

theorem walk_follows {first second : Scopes} (h : first.SameStack second) (s : Stmt) :
    Check.Follows (s.walk types) second
      (fun (checked : Scopes × Stmt) walked scopes =>
        walked = checked.2 ∧ checked.1.SameStack scopes)
      (s.check types first) := by
  cases s with
  | expression e =>
    rw [check, walk]
    refine Check.follows_unless h.right (Check.follows_get_bind ?_)
    rw [← Expr.check_eq h]
    apply (Check.follows_liftExcept h.right _).bind
    rintro ⟨ty, e'⟩ _ _ hKeeps ⟨rfl, rfl⟩
    exact Check.follows_pure hKeeps.linked ⟨rfl, h⟩
  | declaration name typeName value symbol =>
    rw [check, walk]
    apply Check.follows_get_bind
    rw [← checkBinding_eq h]
    apply (Check.follows_liftExcept h.right _).bind
    rintro ⟨ty, value'⟩ _ _ hKeeps ⟨rfl, rfl⟩
    have hDefined := h.step (.defineVariable ⟨name, ty, true⟩)
    exact .ok rfl (.defineVariable h.right _) ⟨rfl, hDefined⟩
  | assignment receiver value =>
    rw [check, walk]
    apply Check.follows_get_bind
    rw [← checkAssignment_eq h]
    apply (Check.follows_liftExcept h.right _).bind
    rintro ⟨receiver', value'⟩ _ _ hKeeps ⟨rfl, rfl⟩
    exact Check.follows_pure hKeeps.linked ⟨rfl, h⟩
  | conditional condition consequent alternative =>
    rw [check, walk]
    apply Check.follows_get_bind
    rw [← checkCondition_eq h]
    apply (Check.follows_liftExcept h.right _).bind
    rintro condition' _ _ - ⟨rfl, rfl⟩
    simp only
    split
    · exact .error rfl (.refl h.right)
    · apply ((walkBlock_follows (h.step .push) consequent).inFrame rfl h.right).bind
      rintro consequent' _ scopes hKeeps ⟨⟨_, rfl⟩, hStack⟩
      have hInner := h.of_stack_eq hKeeps.linked hStack
      apply ((walkBlock_follows (hInner.step .push) alternative).inFrame rfl hInner.right).bind
      rintro alternative' _ scopes' hKeeps' ⟨⟨_, rfl⟩, hStack'⟩
      exact Check.follows_pure hKeeps'.linked ⟨rfl, hInner.of_stack_eq hKeeps'.linked hStack'⟩
  | switch subject cases =>
    rw [check, walk]
    apply Check.follows_get_bind
    rw [← Expr.check_eq h]
    apply (Check.follows_liftExcept h.right _).bind
    rintro ⟨subjectType, subject'⟩ _ _ - ⟨rfl, rfl⟩
    apply Check.follows_unless h.right
    apply (walkCases_follows h subjectType cases).bind
    rintro cases' _ scopes hKeeps ⟨rfl, hStack⟩
    exact Check.follows_pure hKeeps.linked ⟨rfl, h.of_stack_eq hKeeps.linked hStack⟩
  | loop condition body =>
    rw [check, walk]
    apply Check.follows_get_bind
    rw [← checkCondition_eq h]
    apply (Check.follows_liftExcept h.right _).bind
    rintro condition' _ _ - ⟨rfl, rfl⟩
    apply ((walkBlock_follows (h.step .push) body).inFrame rfl h.right).bind
    rintro body' _ scopes hKeeps ⟨⟨_, rfl⟩, hStack⟩
    exact Check.follows_pure hKeeps.linked ⟨rfl, h.of_stack_eq hKeeps.linked hStack⟩
  | returns value =>
    rw [check, walk]
    apply Check.follows_get_bind
    rw [← Expr.check_eq h, ← h.returnType_eq]
    apply (Check.follows_liftExcept h.right _).bind
    rintro ⟨ty, value'⟩ _ _ - ⟨rfl, rfl⟩
    apply (Check.follows_liftExcept h.right _).bind
    rintro _ _ _ hKeeps ⟨rfl, rfl⟩
    exact Check.follows_pure hKeeps.linked ⟨rfl, h⟩

theorem walkBlock_follows {first second : Scopes} (h : first.SameStack second)
    (statements : List Stmt) :
    Check.Follows (walkBlock types statements) second (fun checked walked _ => walked = checked)
      (checkBlock types first statements) := by
  cases statements with
  | nil =>
    rw [checkBlock, walkBlock]
    exact Check.follows_pure h.right rfl
  | cons s rest =>
    rw [checkBlock, walkBlock]
    apply (walk_follows h s).bind
    rintro ⟨scopes, s'⟩ _ scopes' hKeeps ⟨rfl, hSame⟩
    apply (walkBlock_follows hSame rest).bind
    rintro rest' _ _ hKeeps' rfl
    exact Check.follows_pure hKeeps'.linked rfl

theorem walkCases_follows {first second : Scopes} (h : first.SameStack second) (subject : Ty)
    (cases : List Case) :
    Check.Follows (walkCases types subject cases) second
      (fun checked walked scopes => walked = checked ∧ scopes.stack = second.stack)
      (checkCases types first subject cases) := by
  cases cases with
  | nil =>
    rw [checkCases, walkCases]
    exact Check.follows_pure h.right ⟨rfl, rfl⟩
  | cons case cases =>
    obtain ⟨value, body⟩ := case
    -- The value and the body of the case are in one frame.
    have hCase : checkCases types first subject (⟨value, body⟩ :: cases) = ((do
        let value ← checkCaseValue first.push subject value
        let body ← checkBlock types first.push body
        return (value, body)) >>= fun (value, body) => do
          let rest ← checkCases types first subject cases
          return ⟨value, body⟩ :: rest) := by
      simp only [checkCases, bind_assoc, pure_bind]
    have hInner := h.step .push
    have hPair := case_follows hInner subject value (walkBlock_follows hInner body)
    rw [hCase, walkCases]
    apply (hPair.inFrame rfl h.right).bind
    rintro ⟨value', body'⟩ _ scopes hKeeps ⟨⟨_, rfl⟩, hStack⟩
    have hOuter := h.of_stack_eq hKeeps.linked hStack
    apply (walkCases_follows hOuter subject cases).bind
    rintro rest' _ scopes' hKeeps' ⟨rfl, hStack'⟩
    exact Check.follows_pure hKeeps'.linked ⟨rfl, hStack'.trans hStack⟩

end

end Stmt

end Statements

/-- Computations that have the same outcome and leave the same stack, also when they fail. -/
def Check.Mirrors {α : Type} (first second : Check α) : Prop :=
  ∀ scopes scopes' : Scopes, scopes.SameStack scopes' →
    (first.run.run scopes).1 = (second.run.run scopes').1 ∧
      (first.run.run scopes).2.SameStack (second.run.run scopes').2

namespace Check

variable {α β : Type}

theorem mirrors_pure (a : α) : Mirrors (pure a) (pure a) :=
  fun _ _ h => ⟨rfl, h⟩

theorem mirrors_liftExcept (outcome : Except SemanticError α) :
    Mirrors (liftExcept outcome) (liftExcept outcome) := by
  intro scopes scopes' h
  rw [run_liftExcept, run_liftExcept]
  exact ⟨rfl, h⟩

theorem mirrors_modify (action : FrameAction) :
    Mirrors (modify fun scopes => scopes.step action) (modify fun scopes => scopes.step action) :=
  fun _ _ h => ⟨rfl, h.step action⟩

theorem Mirrors.bind {first second : Check α} {next next' : α → Check β} (h : Mirrors first second)
    (hNext : ∀ a, Mirrors (next a) (next' a)) : Mirrors (first >>= next) (second >>= next') := by
  intro scopes scopes' hScopes
  obtain ⟨hSame, hLeft⟩ := h scopes scopes' hScopes
  rcases hFirst : first.run.run scopes with ⟨result, left⟩
  rcases hSecond : second.run.run scopes' with ⟨result', left'⟩
  rw [hFirst, hSecond] at hSame hLeft
  obtain rfl : result = result' := hSame
  cases result with
  | error error =>
    rw [run_bind_of_error hFirst, run_bind_of_error hSecond]
    exact ⟨rfl, hLeft⟩
  | ok a =>
    rw [run_bind_of_ok hFirst, run_bind_of_ok hSecond]
    exact hNext a left left' hLeft

theorem mirrors_get_bind {next next' : Scopes → Check β}
    (h : ∀ scopes scopes' : Scopes, scopes.SameStack scopes' →
      Mirrors (next scopes) (next' scopes')) : Mirrors (get >>= next) (get >>= next') :=
  fun scopes scopes' hScopes => h scopes scopes' hScopes scopes scopes' hScopes

/-- Whatever the computation does to its frame, and however it ends. -/
theorem mirrors_inFrame {enter : FrameAction} (hEnter : enter.enters = true)
    {outcome : Scopes → Except SemanticError α} {computation : Check α}
    (h : ∀ scopes scopes' : Scopes, scopes.SameStack scopes' →
      Follows computation (scopes'.step enter) (fun a b _ => b = a) (outcome scopes)) :
    Mirrors (get >>= fun scopes => liftExcept (outcome scopes)) (inFrame enter computation) := by
  intro scopes scopes' hScopes
  have hChecked : (get >>= fun scopes => liftExcept (outcome scopes) : Check α).run.run scopes =
      (outcome scopes, scopes) := run_liftExcept (outcome scopes) scopes
  have hFollows := h scopes scopes' hScopes
  rw [hChecked]
  generalize outcome scopes = expected at hFollows ⊢
  cases hFollows with
  | error hRun hKeeps =>
    obtain ⟨hLinked, hStack⟩ := hKeeps.pop hEnter hScopes.right
    rw [run_inFrame hRun]
    exact ⟨rfl, hScopes.of_stack_eq hLinked hStack⟩
  | ok hRun hKeeps hSame =>
    obtain ⟨hLinked, hStack⟩ := hKeeps.pop hEnter hScopes.right
    rw [run_inFrame hRun, hSame]
    exact ⟨rfl, hScopes.of_stack_eq hLinked hStack⟩

theorem mirrors_mapM {check walk : α → Check β} (h : ∀ a, Mirrors (check a) (walk a))
    (as : List α) : Mirrors (as.mapM check) (as.mapM walk) := by
  induction as with
  | nil => exact mirrors_pure []
  | cons a as ih =>
    rw [List.mapM_cons, List.mapM_cons]
    exact (h a).bind fun b => ih.bind fun bs => mirrors_pure (b :: bs)

end Check

section Programs

variable (types : TypeRegistry)

theorem Global.check_mirrors (global : Global) :
    Check.Mirrors (global.check types) (global.check types) := by
  refine Check.mirrors_get_bind fun scopes scopes' h => ?_
  rw [checkBinding_eq h]
  refine (Check.mirrors_liftExcept _).bind fun (ty, value) => ?_
  exact (Check.mirrors_modify (.defineVariable _)).bind fun _ => Check.mirrors_pure _

theorem Function.body_follows (function : Function) (signature : Signature)
    {scopes scopes' : Scopes} (h : scopes.SameStack scopes') :
    Check.Follows (do
        modify (function.defineParameters signature)
        Stmt.walkBlock types function.body)
      (scopes'.step (.pushFunction signature.returnType))
      (fun checked walked _ => walked = checked)
      (Stmt.checkBlock types (function.bodyScopes signature scopes) function.body) := by
  have hEntered := h.step (.pushFunction signature.returnType)
  obtain ⟨hDefined, hKeeps⟩ :=
    hEntered.defineParameters (function.parameters.zip signature.parameterTypes)
  exact Check.follows_modify_bind hKeeps (Stmt.walkBlock_follows hDefined function.body)

theorem Function.walk_mirrors (function : Function) :
    Check.Mirrors (function.check types) (function.walk types) := by
  refine (Check.mirrors_liftExcept _).bind fun signature => ?_
  refine (Check.mirrors_modify (.defineFunction signature)).bind fun _ => ?_
  have hBody := Check.mirrors_inFrame rfl fun scopes scopes' h =>
    function.body_follows types signature h
  have hWhole := hBody.bind fun body =>
    Check.mirrors_pure { function with body, signature := some signature }
  rw [bind_assoc] at hWhole
  exact hWhole

theorem Source.walk_mirrors (source : Source) :
    Check.Mirrors (source.check types) (source.walk types) := by
  refine (Check.mirrors_liftExcept _).bind fun _ => ?_
  refine (Check.mirrors_mapM (Global.check_mirrors types) source.globals).bind fun globals => ?_
  refine (Check.mirrors_mapM (Function.walk_mirrors types) source.functions).bind fun functions => ?_
  exact Check.mirrors_pure _

end Programs

/-- Two checkers for the same types that have the same stack. -/
structure Checker.Mirrors (checked walked : Checker) : Prop where
  types_eq : checked.types = walked.types
  scopes : checked.scopes.SameStack walked.scopes

theorem Checker.Mirrors.walk {checked walked : Checker} (h : checked.Mirrors walked)
    (source : Source) : (checked.check source).1 = (walked.walk source).1 ∧
      (checked.check source).2.Mirrors (walked.walk source).2 := by
  obtain ⟨scopes, types⟩ := checked
  obtain ⟨scopes', types'⟩ := walked
  obtain ⟨rfl, hScopes⟩ := h
  obtain ⟨hSame, hLeft⟩ := source.walk_mirrors types scopes scopes' hScopes
  rcases hChecked : (source.check types).run.run scopes with ⟨result, left⟩
  rcases hWalked : (source.walk types).run.run scopes' with ⟨result', left'⟩
  rw [hChecked, hWalked] at hSame hLeft
  simp only [Checker.check, Checker.walk, hChecked, hWalked]
  exact ⟨hSame, rfl, hLeft⟩

end ProcLang
