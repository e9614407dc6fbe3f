import ProcLang.Proofs.Typing.Checked

/-! # Slots are not read

What the checker makes of a tree depends on the tree up to erasing only: whatever its slots hold, it
is checked like the erased tree.
-/

namespace ProcLang

set_option autoImplicit false

namespace Expr

variable {scopes : Scopes}

mutual

theorem check_erase (hScopes : scopes.Valid) (e : Expr) : e.erase.check scopes = e.check scopes := by
  cases e with
  | literal value slot => rw [erase, check, check]
  | access name symbol slot => rw [erase, check, check]
  | group inner slot => rw [erase, check, check, isBinary_erase, check_erase hScopes inner]
  | binary operator left right slot =>
    rw [erase, check, check, check_erase hScopes left]
    simp only [check_erase hScopes right]
  | element name index symbol slot => rw [erase, check, check, check_erase hScopes index]
  | list items slot => rw [erase, check, check, checkItems_eraseAll hScopes items]
  | call name arguments signature slot =>
    rw [erase, check, check, length_eraseAll]
    cases hFound : scopes.requireFunction name arguments.length with
    | error error => rfl
    | ok signature =>
      -- The arguments are as many as the parameters, so each of them is checked.
      have hKey := hScopes.key_of_lookupFunction (Scopes.lookup_of_requireFunction hFound)
      rw [except_ok_bind, except_ok_bind, checkArguments_eraseAll hScopes arguments hKey.2.symm]

theorem checkArguments_eraseAll (hScopes : scopes.Valid) (arguments : List Expr)
    {parameterTypes : List Ty} (hLength : arguments.length = parameterTypes.length) :
    checkArguments scopes (eraseAll arguments) parameterTypes =
      checkArguments scopes arguments parameterTypes := by
  cases arguments with
  | nil => rfl
  | cons argument arguments =>
    cases parameterTypes with
    | nil => cases hLength
    | cons parameterType parameterTypes =>
      rw [eraseAll, checkArguments, checkArguments, check_erase hScopes argument]
      simp only [checkArguments_eraseAll hScopes arguments (Nat.succ.inj hLength)]

theorem checkItems_eraseAll (hScopes : scopes.Valid) (items : List Expr) :
    checkItems scopes (eraseAll items) = checkItems scopes items := by
  cases items with
  | nil => rfl
  | cons item items =>
    rw [eraseAll, checkItems, checkItems, check_erase hScopes item]
    simp only [checkItems_eraseAll hScopes items]

end

theorem checkInitializer_of_isList {value : Expr} (hPlain : value.isList = false) (declared : Ty) :
    value.checkInitializer scopes declared = (do
      let (ty, value) ← value.check scopes
      requireAssignable declared ty
      return value) := by
  cases value with
  | list items slot => cases hPlain
  | literal | group | binary | access | element | call => rfl

theorem checkInitializer_erase (hScopes : scopes.Valid) (declared : Ty) (value : Expr) :
    value.erase.checkInitializer scopes declared = value.checkInitializer scopes declared := by
  cases value with
  | list items slot =>
    rw [erase, checkInitializer, checkInitializer]
    congr 1
    induction items with
    | nil => rfl
    | cons item items ih =>
      rw [eraseAll, List.mapM_cons, List.mapM_cons, ih, check_erase hScopes item]
  | literal | group | binary | access | element | call =>
    rw [checkInitializer_of_isList rfl, checkInitializer_of_isList rfl, check_erase hScopes]

end Expr

section Statements

variable {types : TypeRegistry} {scopes : Scopes}

theorem checkBinding_erase (hScopes : scopes.Valid) (name : String) (typeName : Option String)
    (value : Option Expr) :
    checkBinding types scopes name typeName (value.map Expr.erase) =
      checkBinding types scopes name typeName value := by
  cases value with
  | none => rfl
  | some value =>
    unfold checkBinding
    congr 1
    funext declared
    cases declared with
    | none => simp only [Option.map_some, Expr.check_erase hScopes]
    | some declared => simp only [Option.map_some, Expr.checkInitializer_erase hScopes]

theorem checkCondition_erase (hScopes : scopes.Valid) (condition : Expr) :
    checkCondition scopes condition.erase = checkCondition scopes condition := by
  rw [checkCondition, checkCondition, Expr.check_erase hScopes]

theorem checkAssignment_erase (hScopes : scopes.Valid) (receiver value : Expr) :
    checkAssignment scopes receiver.erase value.erase = checkAssignment scopes receiver value := by
  unfold checkAssignment
  simp only [Expr.isReceiver_erase, Expr.check_erase hScopes]

theorem checkCaseValue_erase (hScopes : scopes.Valid) (subject : Ty) (value : Option Expr) :
    checkCaseValue scopes subject (value.map Expr.erase) = checkCaseValue scopes subject value := by
  cases value with
  | none => rfl
  | some value =>
    simp only [Option.map_some, checkCaseValue, Expr.check_erase hScopes]

namespace Stmt

theorem isEmpty_eraseBlock (statements : List Stmt) :
    (eraseBlock statements).isEmpty = statements.isEmpty := by
  cases statements <;> rfl

mutual

theorem check_erase {scopes : Scopes} (hScopes : scopes.Valid) (s : Stmt) :
    s.erase.check types scopes = s.check types scopes := by
  cases s with
  | expression e => rw [erase, check, check, Expr.isCall_erase, Expr.check_erase hScopes]
  | declaration name typeName value symbol => rw [erase, check, check, checkBinding_erase hScopes]
  | assignment receiver value => rw [erase, check, check, checkAssignment_erase hScopes]
  | conditional condition consequent alternative =>
    rw [erase, check, check, checkCondition_erase hScopes, isEmpty_eraseBlock]
    simp only [checkBlock_eraseBlock hScopes.push consequent,
      checkBlock_eraseBlock hScopes.push alternative]
  | switch subject cases =>
    rw [erase, check, check, Expr.check_erase hScopes, isDefault_eraseCases]
    simp only [checkCases_eraseCases hScopes _ cases]
  | loop condition body =>
    rw [erase, check, check, checkCondition_erase hScopes]
    simp only [checkBlock_eraseBlock hScopes.push body]
  | returns value => rw [erase, check, check, Expr.check_erase hScopes]

theorem checkBlock_eraseBlock {scopes : Scopes} (hScopes : scopes.Valid) (statements : List Stmt) :
    checkBlock types scopes (eraseBlock statements) = checkBlock types scopes statements := by
  cases statements with
  | nil => rfl
  | cons s rest =>
    rw [eraseBlock, checkBlock, checkBlock, check_erase hScopes s]
    cases hChecked : s.check types scopes with
    | error error => rfl
    | ok result =>
      obtain ⟨scopes', s'⟩ := result
      simp only [except_ok_bind,
        checkBlock_eraseBlock (wellTyped_of_check hScopes s hChecked).1 rest]

theorem checkCases_eraseCases {scopes : Scopes} (hScopes : scopes.Valid) (subject : Ty)
    (cases : List Case) :
    checkCases types scopes subject (eraseCases cases) = checkCases types scopes subject cases := by
  cases cases with
  | nil => rfl
  | cons case cases =>
    obtain ⟨value, body⟩ := case
    rw [eraseCases, checkCases, checkCases, checkCaseValue_erase hScopes.push]
    simp only [checkBlock_eraseBlock hScopes.push body, checkCases_eraseCases hScopes subject cases]

end

end Stmt

end Statements

end ProcLang
