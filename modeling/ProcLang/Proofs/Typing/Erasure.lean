import ProcLang.Proofs.Typing.Success

/-! # Erasing slots

Erasing empties all slots of a tree. Checking fills slots and changes nothing else: what it returns
is what it was given, up to erasing.
-/

namespace ProcLang

set_option autoImplicit false

namespace Expr

mutual

def erase : Expr → Expr
  | literal value _ => literal value none
  | group inner _ => group (erase inner) none
  | binary operator left right _ => binary operator (erase left) (erase right) none
  | access name _ _ => access name none none
  | element name index _ _ => element name (erase index) none none
  | call name arguments _ _ => call name (eraseAll arguments) none none
  | list items _ => list (eraseAll items) none

def eraseAll : List Expr → List Expr
  | [] => []
  | e :: es => erase e :: eraseAll es

end

theorem length_eraseAll (es : List Expr) : (eraseAll es).length = es.length := by
  induction es with
  | nil => rfl
  | cons e es ih => rw [eraseAll, List.length_cons, List.length_cons, ih]

theorem isBinary_erase (e : Expr) : e.erase.isBinary = e.isBinary := by
  cases e <;> rfl

theorem isCall_erase (e : Expr) : e.erase.isCall = e.isCall := by
  cases e <;> rfl

theorem isReceiver_erase (e : Expr) : e.erase.isReceiver = e.isReceiver := by
  cases e <;> rfl

theorem isList_erase (e : Expr) : e.erase.isList = e.isList := by
  cases e <;> rfl

end Expr

namespace Stmt

mutual

def erase : Stmt → Stmt
  | expression e => expression e.erase
  | declaration name typeName value _ => declaration name typeName (value.map Expr.erase) none
  | assignment receiver value => assignment receiver.erase value.erase
  | conditional condition consequent alternative =>
    conditional condition.erase (eraseBlock consequent) (eraseBlock alternative)
  | switch subject cases => switch subject.erase (eraseCases cases)
  | loop condition body => loop condition.erase (eraseBlock body)
  | returns value => returns value.erase

def eraseBlock : List Stmt → List Stmt
  | [] => []
  | statement :: rest => erase statement :: eraseBlock rest

def eraseCases : List Case → List Case
  | [] => []
  | ⟨value, body⟩ :: rest => ⟨value.map Expr.erase, eraseBlock body⟩ :: eraseCases rest

end

theorem isDefault_eraseCases (cases : List Case) :
    (eraseCases cases).countP Case.isDefault = cases.countP Case.isDefault := by
  induction cases with
  | nil => rfl
  | cons case cases ih =>
    obtain ⟨value, body⟩ := case
    have hHead : (Case.mk (value.map Expr.erase) (eraseBlock body)).isDefault =
        (Case.mk value body).isDefault := by
      cases value <;> rfl
    rw [eraseCases, List.countP_cons, List.countP_cons, ih, hHead]

end Stmt

def Global.erase (global : Global) : Global :=
  { global with value := global.value.map Expr.erase, symbol := none }

def Function.erase (function : Function) : Function :=
  { function with body := Stmt.eraseBlock function.body, signature := none }

def Source.erase (source : Source) : Source :=
  ⟨source.globals.map Global.erase, source.functions.map Function.erase⟩

namespace Expr

variable {scopes : Scopes}

mutual

theorem erase_of_check (e : Expr) {ty : Ty} {e' : Expr} (h : e.check scopes = .ok (ty, e')) :
    e'.erase = e.erase := by
  cases e with
  | literal value slot =>
    rw [check] at h
    obtain ⟨_, _, h⟩ := except_bind_ok h
    cases h
    rfl
  | group inner slot =>
    rw [check] at h
    obtain ⟨_, h⟩ := except_unless_ok h
    obtain ⟨⟨_, inner'⟩, hInner, h⟩ := except_bind_ok h
    cases h
    rw [erase, erase, erase_of_check inner hInner]
  | binary operator left right slot =>
    rw [check] at h
    obtain ⟨⟨_, left'⟩, hLeft, h⟩ := except_bind_ok h
    obtain ⟨⟨_, right'⟩, hRight, h⟩ := except_bind_ok h
    obtain ⟨_, _, h⟩ := except_bind_ok h
    cases h
    rw [erase, erase, erase_of_check left hLeft, erase_of_check right hRight]
  | access name symbol slot =>
    rw [check] at h
    obtain ⟨_, _, h⟩ := except_bind_ok h
    cases h
    rfl
  | element name index symbol slot =>
    rw [check] at h
    obtain ⟨⟨_, index'⟩, hIndex, h⟩ := except_bind_ok h
    obtain ⟨_, _, h⟩ := except_bind_ok h
    obtain ⟨_, _, h⟩ := except_bind_ok h
    cases h
    rw [erase, erase, erase_of_check index hIndex]
  | call name arguments signature slot =>
    rw [check] at h
    obtain ⟨signature, _, h⟩ := except_bind_ok h
    obtain ⟨arguments', hArguments, h⟩ := except_bind_ok h
    cases h
    rw [erase, erase, erase_of_checkArguments arguments signature.parameterTypes hArguments]
  | list items slot =>
    rw [check] at h
    obtain ⟨items', hItems, h⟩ := except_bind_ok h
    cases h
    rw [erase, erase, erase_of_checkItems items hItems]

theorem erase_of_checkArguments (arguments : List Expr) (parameterTypes : List Ty)
    {arguments' : List Expr} (h : checkArguments scopes arguments parameterTypes = .ok arguments') :
    eraseAll arguments' = eraseAll arguments := by
  cases arguments with
  | nil =>
    rw [checkArguments] at h
    · cases h
      rfl
    · intro _ _ _ _ hNil
      cases hNil
  | cons argument arguments =>
    cases parameterTypes with
    | nil =>
      rw [checkArguments] at h
      · cases h
        rfl
      · intro _ _ _ _ _ hNil
        cases hNil
    | cons parameterType parameterTypes =>
      rw [checkArguments] at h
      obtain ⟨⟨_, argument'⟩, hArgument, h⟩ := except_bind_ok h
      obtain ⟨_, _, h⟩ := except_bind_ok h
      obtain ⟨arguments', hArguments, h⟩ := except_bind_ok h
      cases h
      rw [eraseAll, eraseAll, erase_of_check argument hArgument,
        erase_of_checkArguments arguments parameterTypes hArguments]

theorem erase_of_checkItems (items : List Expr) {items' : List Expr}
    (h : checkItems scopes items = .ok items') : eraseAll items' = eraseAll items := by
  cases items with
  | nil =>
    cases h
    rfl
  | cons item items =>
    rw [checkItems] at h
    obtain ⟨⟨_, item'⟩, hItem, h⟩ := except_bind_ok h
    obtain ⟨items', hItems, h⟩ := except_bind_ok h
    cases h
    rw [eraseAll, eraseAll, erase_of_check item hItem, erase_of_checkItems items hItems]

end

theorem eraseAll_of_mapM {declared : Ty} {items items' : List Expr}
    (h : List.Forall₂ (fun item item' => (do
      let (ty, item) ← check scopes item
      requireAssignable declared ty
      return item) = .ok item') items items') : eraseAll items' = eraseAll items := by
  induction h with
  | nil => rfl
  | cons hItem _ ih =>
    obtain ⟨⟨_, item'⟩, hCheck, hItem⟩ := except_bind_ok hItem
    obtain ⟨_, _, hItem⟩ := except_bind_ok hItem
    cases hItem
    rw [eraseAll, eraseAll, erase_of_check _ hCheck, ih]

theorem erase_of_checkInitializer {declared : Ty} {value value' : Expr}
    (h : value.checkInitializer scopes declared = .ok value') : value'.erase = value.erase := by
  have hPlain (h : (do
      let (ty, value) ← value.check scopes
      requireAssignable declared ty
      return value) = .ok value') : value'.erase = value.erase := by
    obtain ⟨⟨_, value'⟩, hValue, h⟩ := except_bind_ok h
    obtain ⟨_, _, h⟩ := except_bind_ok h
    cases h
    exact erase_of_check value hValue
  cases value with
  | list items slot =>
    obtain ⟨items', hItems, h⟩ := except_bind_ok h
    cases h
    rw [erase, erase, eraseAll_of_mapM (except_mapM_ok hItems)]
  | literal | group | binary | access | element | call => exact hPlain h

end Expr

section Statements

variable {types : TypeRegistry} {scopes : Scopes}

theorem erase_of_checkBinding {name : String} {typeName : Option String} {value value' : Option Expr}
    {ty : Ty} (h : checkBinding types scopes name typeName value = .ok (ty, value')) :
    value'.map Expr.erase = value.map Expr.erase := by
  unfold checkBinding at h
  obtain ⟨declared, _, h⟩ := except_bind_ok h
  cases declared with
  | none =>
    cases value with
    | none => cases h
    | some value =>
      obtain ⟨⟨_, value'⟩, hValue, h⟩ := except_bind_ok h
      cases h
      exact congrArg some (Expr.erase_of_check value hValue)
  | some declared =>
    cases value with
    | none =>
      cases h
      rfl
    | some value =>
      obtain ⟨value', hValue, h⟩ := except_bind_ok h
      cases h
      exact congrArg some (Expr.erase_of_checkInitializer hValue)

theorem erase_of_checkCondition {condition condition' : Expr}
    (h : checkCondition scopes condition = .ok condition') : condition'.erase = condition.erase := by
  unfold checkCondition at h
  obtain ⟨⟨_, condition'⟩, hCondition, h⟩ := except_bind_ok h
  obtain ⟨_, _, h⟩ := except_bind_ok h
  cases h
  exact Expr.erase_of_check condition hCondition

theorem erase_of_checkAssignment {receiver value receiver' value' : Expr}
    (h : checkAssignment scopes receiver value = .ok (receiver', value')) :
    receiver'.erase = receiver.erase ∧ value'.erase = value.erase := by
  unfold checkAssignment at h
  obtain ⟨_, h⟩ := except_unless_ok h
  obtain ⟨⟨valueType, filledValue⟩, hValue, h⟩ := except_bind_ok h
  obtain ⟨⟨receiverType, filledReceiver⟩, hReceiver, h⟩ := except_bind_ok h
  have hFilled : (do
      requireAssignable receiverType valueType
      return (filledReceiver, filledValue)) =
        (Except.ok (receiver', value') : Except SemanticError (Expr × Expr)) := by
    simp only at h
    split at h
    · exact (except_unless_ok h).2
    · exact h
  obtain ⟨_, _, hFilled⟩ := except_bind_ok hFilled
  cases hFilled
  exact ⟨Expr.erase_of_check receiver hReceiver, Expr.erase_of_check value hValue⟩

theorem erase_of_checkCaseValue {subject : Ty} {value value' : Option Expr}
    (h : checkCaseValue scopes subject value = .ok value') :
    value'.map Expr.erase = value.map Expr.erase := by
  cases value with
  | none =>
    cases h
    rfl
  | some value =>
    obtain ⟨⟨_, value'⟩, hValue, h⟩ := except_bind_ok h
    obtain ⟨_, _, h⟩ := except_bind_ok h
    cases h
    exact congrArg some (Expr.erase_of_check value hValue)

namespace Stmt

mutual

theorem erase_of_check {scopes : Scopes} (statement : Stmt) {scopes' : Scopes} {statement' : Stmt}
    (h : statement.check types scopes = .ok (scopes', statement')) :
    statement'.erase = statement.erase := by
  cases statement with
  | expression e =>
    rw [check] at h
    obtain ⟨_, h⟩ := except_unless_ok h
    obtain ⟨⟨_, e'⟩, hExpr, h⟩ := except_bind_ok h
    cases h
    rw [erase, erase, Expr.erase_of_check e hExpr]
  | declaration name typeName value symbol =>
    rw [check] at h
    obtain ⟨⟨_, value'⟩, hBinding, h⟩ := except_bind_ok h
    cases h
    rw [erase, erase, erase_of_checkBinding hBinding]
  | assignment receiver value =>
    rw [check] at h
    obtain ⟨⟨receiver', value'⟩, hAssignment, h⟩ := except_bind_ok h
    cases h
    obtain ⟨hReceiver, hValue⟩ := erase_of_checkAssignment hAssignment
    rw [erase, erase, hReceiver, hValue]
  | conditional condition consequent alternative =>
    rw [check] at h
    obtain ⟨condition', hCondition, h⟩ := except_bind_ok h
    simp only at h
    split at h
    · cases h
    · obtain ⟨consequent', hConsequent, h⟩ := except_bind_ok h
      obtain ⟨alternative', hAlternative, h⟩ := except_bind_ok h
      cases h
      rw [erase, erase, erase_of_checkCondition hCondition,
        erase_of_checkBlock consequent hConsequent, erase_of_checkBlock alternative hAlternative]
  | switch subject cases =>
    rw [check] at h
    obtain ⟨⟨_, subject'⟩, hSubject, h⟩ := except_bind_ok h
    obtain ⟨_, h⟩ := except_unless_ok h
    obtain ⟨cases', hCases, h⟩ := except_bind_ok h
    cases h
    rw [erase, erase, Expr.erase_of_check subject hSubject, erase_of_checkCases cases hCases]
  | loop condition body =>
    rw [check] at h
    obtain ⟨condition', hCondition, h⟩ := except_bind_ok h
    obtain ⟨body', hBody, h⟩ := except_bind_ok h
    cases h
    rw [erase, erase, erase_of_checkCondition hCondition, erase_of_checkBlock body hBody]
  | returns value =>
    rw [check] at h
    obtain ⟨⟨_, value'⟩, hValue, h⟩ := except_bind_ok h
    obtain ⟨_, _, h⟩ := except_bind_ok h
    cases h
    rw [erase, erase, Expr.erase_of_check value hValue]

theorem erase_of_checkBlock {scopes : Scopes} (statements : List Stmt) {statements' : List Stmt}
    (h : checkBlock types scopes statements = .ok statements') :
    eraseBlock statements' = eraseBlock statements := by
  cases statements with
  | nil =>
    cases h
    rfl
  | cons statement rest =>
    rw [checkBlock] at h
    obtain ⟨⟨scopes', statement'⟩, hStatement, h⟩ := except_bind_ok h
    obtain ⟨rest', hRest, h⟩ := except_bind_ok h
    cases h
    rw [eraseBlock, eraseBlock, erase_of_check statement hStatement, erase_of_checkBlock rest hRest]

theorem erase_of_checkCases {scopes : Scopes} {subject : Ty} (cases : List Case)
    {cases' : List Case} (h : checkCases types scopes subject cases = .ok cases') :
    eraseCases cases' = eraseCases cases := by
  cases cases with
  | nil =>
    cases h
    rfl
  | cons case cases =>
    obtain ⟨value, body⟩ := case
    rw [checkCases] at h
    obtain ⟨value', hValue, h⟩ := except_bind_ok h
    obtain ⟨body', hBody, h⟩ := except_bind_ok h
    obtain ⟨cases', hCases, h⟩ := except_bind_ok h
    cases h
    rw [eraseCases, eraseCases, erase_of_checkCaseValue hValue, erase_of_checkBlock body hBody,
      erase_of_checkCases cases hCases]

end

end Stmt

end Statements

section Programs

variable {types : TypeRegistry} {scopes scopes' : Scopes}

theorem Global.erase_of_check {global global' : Global}
    (h : Check.Yields (global.check types) scopes global' scopes') : global'.erase = global.erase := by
  obtain ⟨_, _, _, h⟩ := Check.yields_bind h
  obtain ⟨⟨ty, value'⟩, _, hBinding, h⟩ := Check.yields_bind h
  obtain ⟨_, _, _, h⟩ := Check.yields_bind h
  obtain ⟨rfl, _⟩ := Check.yields_pure h
  have hValue := erase_of_checkBinding (Check.yields_liftExcept hBinding).1
  simp only [erase, hValue]

theorem Function.erase_of_check {function function' : Function}
    (h : Check.Yields (function.check types) scopes function' scopes') :
    function'.erase = function.erase := by
  obtain ⟨signature, _, _, h⟩ := Check.yields_bind h
  obtain ⟨_, _, _, h⟩ := Check.yields_bind h
  obtain ⟨_, _, _, h⟩ := Check.yields_bind h
  obtain ⟨body', _, hBody, h⟩ := Check.yields_bind h
  obtain ⟨rfl, _⟩ := Check.yields_pure h
  have hBody := Stmt.erase_of_checkBlock function.body (Check.yields_liftExcept hBody).1
  simp only [erase, hBody]

theorem map_erase_of_mapM {α : Type} {erase : α → α} {check : α → Check α} {as as' : List α}
    (hCheck : ∀ {a a' scopes scopes'}, Check.Yields (check a) scopes a' scopes' → erase a' = erase a)
    (h : Check.Yields (as.mapM check) scopes as' scopes') : as'.map erase = as.map erase := by
  induction as generalizing as' scopes scopes' with
  | nil =>
    obtain ⟨rfl, _⟩ := Check.yields_pure h
    rfl
  | cons a as ih =>
    rw [List.mapM_cons] at h
    obtain ⟨a', _, hHead, h⟩ := Check.yields_bind h
    obtain ⟨as', _, hTail, h⟩ := Check.yields_bind h
    obtain ⟨rfl, _⟩ := Check.yields_pure h
    rw [List.map_cons, List.map_cons, hCheck hHead, ih hTail]

theorem Source.erase_of_check {source source' : Source}
    (h : Check.Yields (source.check types) scopes source' scopes') : source'.erase = source.erase := by
  obtain ⟨_, _, _, h⟩ := Check.yields_bind h
  obtain ⟨globals', _, hGlobals, h⟩ := Check.yields_bind h
  obtain ⟨functions', _, hFunctions, h⟩ := Check.yields_bind h
  obtain ⟨rfl, _⟩ := Check.yields_pure h
  simp only [erase, map_erase_of_mapM Global.erase_of_check hGlobals,
    map_erase_of_mapM Function.erase_of_check hFunctions]

theorem Source.main?_erase (source : Source) : source.erase.main? = source.main?.map Function.erase :=
  List.find?_map ..

theorem Source.main_of_erase_eq {source source' : Source} (h : source'.erase = source.erase)
    {main : Function} (hMain : source.main? = some main) :
    ∃ main', source'.main? = some main' ∧ main'.returnType = main.returnType := by
  have hSame := congrArg Source.main? h
  rw [main?_erase, main?_erase, hMain] at hSame
  obtain ⟨main', hMain', hErase⟩ := Option.map_eq_some_iff.mp hSame
  have hReturnType := congrArg Function.returnType hErase
  exact ⟨main', hMain', hReturnType⟩

theorem Source.function_of_erase_eq {source source' : Source} (h : source'.erase = source.erase)
    {function : Function} (hMem : function ∈ source'.functions) :
    ∃ original ∈ source.functions, original.erase = function.erase := by
  have hErased : function.erase ∈ source'.erase.functions := List.mem_map_of_mem hMem
  rw [h] at hErased
  exact List.mem_map.mp hErased

/-- Conditions on functions that read no slots hold before and after checking. -/
theorem Source.forall_functions_of_erase_eq {P : Function → Prop}
    (hP : ∀ function : Function, P function.erase ↔ P function) {source source' : Source}
    (h : source'.erase = source.erase) (hAll : ∀ function ∈ source.functions, P function) :
    ∀ function ∈ source'.functions, P function := by
  intro function hMem
  obtain ⟨original, hOriginal, hSame⟩ := function_of_erase_eq h hMem
  rw [← hP function, ← hSame, hP original]
  exact hAll original hOriginal

/-- The scopes in which every program is checked. -/
theorem yields_of_checkProgram {source checked : Source} (h : checkProgram source = .ok checked) :
    ∃ scopes', Check.Yields (source.check {}) (({} : Scopes).defineFunction Checker.print) checked
      scopes' :=
  ⟨_, Prod.ext h rfl⟩

theorem erase_of_checkProgram {source checked : Source} (h : checkProgram source = .ok checked) :
    checked.erase = source.erase := by
  obtain ⟨_, hYields⟩ := yields_of_checkProgram h
  exact Source.erase_of_check hYields

end Programs

end ProcLang
