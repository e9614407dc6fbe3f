import ProcLang.Proofs.Typing.Unread

/-! # What obeys the rules is accepted

A tree that obeys the rules is what the checker makes of it, and of every tree that differs from it
in slots only. So the checker accepts the programs that have a derivation, and writes down the types
and symbols of that derivation, which is the only one.
-/

namespace ProcLang

set_option autoImplicit false

theorem requireAssignable_of_accepts {target source : Ty} (h : target.accepts source = true) :
    requireAssignable target source = .ok () :=
  if_pos h

theorem Literal.check_of_hasType {value : Literal} {ty : Ty} (h : value.HasType ty) :
    value.check = .ok ty := by
  cases h with
  | nil | boolean | character | string => rfl
  | integer hRange => exact if_pos hRange
  | decimal hRange => exact if_pos hRange

theorem Operator.check_of_hasType {operator : Operator} {left right ty : Ty}
    (h : operator.HasType left right ty) : operator.check left right = .ok ty := by
  cases h with
  | logical hLogical =>
    cases operator with
    | and | or => rfl
    | less | greater | equal | notEqual | add | subtract | multiply | divide | power =>
      cases hLogical
  | comparison hComparison hOrdered =>
    have hSelf := requireAssignable_of_accepts left.accepts_refl
    cases operator with
    | less | greater | equal | notEqual =>
      simp only [check, requireAssignable_of_accepts hOrdered, hSelf]
      rfl
    | and | or | add | subtract | multiply | divide | power => cases hComparison
  | join hString => exact if_pos hString
  | arithmetic hOperator hNumeric =>
    have hOperands : left.isNumeric = true ∧ left = left := ⟨hNumeric, rfl⟩
    have hNoString : ¬(left = .string ∨ left = .string) := by
      rintro (rfl | rfl) <;> cases hNumeric
    cases operator with
    | add => exact (if_neg hNoString).trans (if_pos hOperands)
    | subtract | multiply | divide => exact if_pos hOperands
    | and | or | less | greater | equal | notEqual | power => simp at hOperator
  | power hNumeric => exact if_pos ⟨hNumeric, rfl⟩

namespace Scopes

variable {scopes : Scopes} {name : String}

theorem requireVariable_of_lookup {symbol : Variable}
    (h : scopes.lookupVariable name = some symbol) : scopes.requireVariable name = .ok symbol := by
  rw [requireVariable, h]

theorem requireFunction_of_lookup {arity : Nat} {signature : Signature}
    (h : scopes.lookupFunction name arity = some signature) :
    scopes.requireFunction name arity = .ok signature := by
  rw [requireFunction, h]

end Scopes

namespace Expr

variable {scopes : Scopes}

mutual

theorem check_of_hasType (e : Expr) {ty : Ty} (h : e.HasType scopes.context ty) :
    e.check scopes = .ok (ty, e) := by
  cases e with
  | literal value slot =>
    cases h with
    | literal hValue =>
      rw [check, Literal.check_of_hasType hValue]
      rfl
  | group inner slot =>
    cases h with
    | group hBinary hInner =>
      rw [check, if_pos hBinary, check_of_hasType inner hInner]
      rfl
  | binary operator left right slot =>
    cases h with
    | binary hLeft hRight hOperator =>
      simp only [check, check_of_hasType left hLeft, check_of_hasType right hRight, except_ok_bind,
        Operator.check_of_hasType hOperator]
      rfl
  | access name symbol slot =>
    cases h with
    | access hSymbol =>
      rw [check, Scopes.requireVariable_of_lookup hSymbol]
      rfl
  | element name index symbol slot =>
    cases h with
    | element hIndex hSymbol =>
      rw [check, check_of_hasType index hIndex, Scopes.requireVariable_of_lookup hSymbol]
      rfl
  | call name arguments signature slot =>
    cases h with
    | call hSignature hArguments hAccepted =>
      simp only [check, Scopes.requireFunction_of_lookup hSignature, except_ok_bind,
        checkArguments_of_typed arguments hArguments hAccepted]
      rfl
  | list items slot =>
    cases h with
    | list hItems =>
      rw [check, checkItems_of_typed items hItems]
      rfl

theorem checkArguments_of_typed (arguments : List Expr) {tys parameterTypes : List Ty}
    (hArguments : List.Forall₂ (HasType scopes.context) arguments tys)
    (hAccepted : List.Forall₂ (fun target source => target.accepts source = true)
      parameterTypes tys) : checkArguments scopes arguments parameterTypes = .ok arguments := by
  cases arguments with
  | nil =>
    cases hArguments
    cases hAccepted
    rfl
  | cons argument arguments =>
    cases hArguments with
    | cons hArgument hArguments =>
      cases hAccepted with
      | cons hHead hTail =>
        simp only [checkArguments, check_of_hasType argument hArgument, except_ok_bind,
          requireAssignable_of_accepts hHead, checkArguments_of_typed arguments hArguments hTail]
        rfl

theorem checkItems_of_typed (items : List Expr) {tys : List Ty}
    (hItems : List.Forall₂ (HasType scopes.context) items tys) :
    checkItems scopes items = .ok items := by
  cases items with
  | nil => rfl
  | cons item items =>
    cases hItems with
    | cons hItem hItems =>
      simp only [checkItems, check_of_hasType item hItem, except_ok_bind,
        checkItems_of_typed items hItems]
      rfl

end

theorem exists_hasType_of_mem {Γ : Context} {items : List Expr} {tys : List Ty} {item : Expr}
    (h : List.Forall₂ (HasType Γ) items tys) (hMem : item ∈ items) :
    ∃ ty ∈ tys, item.HasType Γ ty := by
  induction h with
  | nil => cases hMem
  | @cons head ty items tys hHead _ ih =>
    rcases List.mem_cons.mp hMem with rfl | hMem
    · exact ⟨ty, List.mem_cons_self, hHead⟩
    · obtain ⟨ty', hTy, hItem⟩ := ih hMem
      exact ⟨ty', List.mem_cons_of_mem ty hTy, hItem⟩

theorem checkInitializer_of_initializes {declared : Ty} {value : Expr}
    (h : value.Initializes scopes.context declared) :
    value.checkInitializer scopes declared = .ok value := by
  cases h with
  | value hPlain hValue hAccepted =>
    simp only [checkInitializer_of_isList hPlain, check_of_hasType value hValue, except_ok_bind,
      requireAssignable_of_accepts hAccepted]
    rfl
  | @items items tys hItems hAccepted =>
    rw [checkInitializer, except_mapM_of_forall₂ (List.forall₂_same.mpr ?each)]
    · rfl
    intro item hMem
    obtain ⟨ty, hTy, hItem⟩ := exists_hasType_of_mem hItems hMem
    simp only [check_of_hasType item hItem, except_ok_bind,
      requireAssignable_of_accepts (hAccepted ty hTy)]
    rfl

end Expr

section Statements

variable {types : TypeRegistry} {scopes : Scopes}

theorem checkBinding_of_hasBindingType {name : String} {typeName : Option String}
    {value : Option Expr} {ty : Ty} (h : HasBindingType types scopes.context typeName value ty) :
    checkBinding types scopes name typeName value = .ok (ty, value) := by
  unfold checkBinding
  cases h with
  | declared hType =>
    simp only [Option.mapM_some, TypeRegistry.resolve_eq_ok_iff.mpr hType]
    rfl
  | inferred hValue =>
    simp only [Option.mapM_none, pure_bind, Expr.check_of_hasType _ hValue]
    rfl
  | @initialized typeName value ty hType hValue =>
    have hDeclared : (some typeName).mapM types.resolve = .ok (some ty) := by
      rw [Option.mapM_some, TypeRegistry.resolve_eq_ok_iff.mpr hType]
      rfl
    simp only [hDeclared, except_ok_bind, Expr.checkInitializer_of_initializes hValue]
    rfl

theorem checkCondition_of_hasType {condition : Expr}
    (h : condition.HasType scopes.context .boolean) :
    checkCondition scopes condition = .ok condition := by
  rw [checkCondition, Expr.check_of_hasType condition h]
  rfl

theorem checkAssignment_of_wellTyped {receiver value : Expr} {receiverType valueType : Ty}
    (hReceiver : receiver.isReceiver = true) (hType : receiver.HasType scopes.context receiverType)
    (hValue : value.HasType scopes.context valueType)
    (hMutable : ∀ symbol, receiver.receiverSymbol? = some symbol → symbol.isMutable = true)
    (hAccepted : receiverType.accepts valueType = true) :
    checkAssignment scopes receiver value = .ok (receiver, value) := by
  unfold checkAssignment
  simp only [hReceiver, Expr.check_of_hasType value hValue, Expr.check_of_hasType receiver hType,
    requireAssignable_of_accepts hAccepted, if_true, except_ok_bind]
  cases hSymbol : receiver.receiverSymbol? with
  | none => rfl
  | some symbol =>
    simp only [hMutable symbol hSymbol]
    rfl

namespace Stmt

mutual

theorem check_of_wellTyped {scopes : Scopes} (hScopes : scopes.Valid) (s : Stmt) {Γ : Context}
    (h : s.WellTyped types scopes.context Γ) :
    ∃ scopes', s.check types scopes = .ok (scopes', s) ∧ scopes'.Valid ∧ scopes'.context = Γ := by
  cases s with
  | expression e =>
    cases h with
    | expression hCall hExpr =>
      refine ⟨scopes, ?_, hScopes, rfl⟩
      rw [check, if_pos hCall, Expr.check_of_hasType e hExpr]
      rfl
  | declaration name typeName value symbol =>
    cases h with
    | declaration hBinding =>
      refine ⟨_, ?_, hScopes.defineVariable _, hScopes.context_defineVariable _⟩
      rw [check, checkBinding_of_hasBindingType hBinding]
      rfl
  | assignment receiver value =>
    cases h with
    | assignment hReceiver hType hValue hMutable hAccepted =>
      refine ⟨scopes, ?_, hScopes, rfl⟩
      rw [check, checkAssignment_of_wellTyped hReceiver hType hValue hMutable hAccepted]
      rfl
  | conditional condition consequent alternative =>
    cases h with
    | conditional hCondition hNonempty hConsequent hAlternative =>
      rw [← hScopes.context_push] at hConsequent hAlternative
      have hEmpty : consequent.isEmpty = false := List.isEmpty_eq_false_iff.mpr hNonempty
      refine ⟨scopes, ?_, hScopes, rfl⟩
      simp only [check, checkCondition_of_hasType hCondition, except_ok_bind, hEmpty,
        checkBlock_of_wellTyped hScopes.push consequent hConsequent,
        checkBlock_of_wellTyped hScopes.push alternative hAlternative]
      rfl
  | switch subject cases =>
    cases h with
    | switch hSubject hDefault hCases =>
      refine ⟨scopes, ?_, hScopes, rfl⟩
      simp only [check, Expr.check_of_hasType subject hSubject, except_ok_bind, if_pos hDefault,
        checkCases_of_wellTyped hScopes cases hCases]
      rfl
  | loop condition body =>
    cases h with
    | loop hCondition hBody =>
      rw [← hScopes.context_push] at hBody
      refine ⟨scopes, ?_, hScopes, rfl⟩
      simp only [check, checkCondition_of_hasType hCondition, except_ok_bind,
        checkBlock_of_wellTyped hScopes.push body hBody]
      rfl
  | returns value =>
    cases h with
    | returns hValue hAccepted =>
      refine ⟨scopes, ?_, hScopes, rfl⟩
      have hReturn := requireAssignable_of_accepts hAccepted
      simp only [check, Expr.check_of_hasType value hValue, except_ok_bind]
      exact congrArg (· >>= _) hReturn

theorem checkBlock_of_wellTyped {scopes : Scopes} (hScopes : scopes.Valid) (statements : List Stmt)
    (h : Block.WellTyped types scopes.context statements) :
    checkBlock types scopes statements = .ok statements := by
  cases statements with
  | nil => rfl
  | cons s rest =>
    cases h with
    | cons hStatement hRest =>
      obtain ⟨scopes', hChecked, hScopes', rfl⟩ := check_of_wellTyped hScopes s hStatement
      simp only [checkBlock, hChecked, except_ok_bind, checkBlock_of_wellTyped hScopes' rest hRest]
      rfl

theorem checkCases_of_wellTyped {scopes : Scopes} (hScopes : scopes.Valid) {subject : Ty}
    (cases : List Case) (h : Cases.WellTyped types scopes.context subject cases) :
    checkCases types scopes subject cases = .ok cases := by
  cases cases with
  | nil => rfl
  | cons case cases =>
    obtain ⟨value, body⟩ := case
    cases h with
    | default hBody hRest =>
      rw [← hScopes.context_push] at hBody
      simp only [checkCases, checkCaseValue, except_ok_bind,
        checkBlock_of_wellTyped hScopes.push body hBody, checkCases_of_wellTyped hScopes cases hRest]
      rfl
    | value hValue hAccepted hBody hRest =>
      rw [← hScopes.context_push] at hValue hBody
      simp only [checkCases, checkCaseValue, Expr.check_of_hasType _ hValue, except_ok_bind,
        requireAssignable_of_accepts hAccepted,
        checkBlock_of_wellTyped hScopes.push body hBody, checkCases_of_wellTyped hScopes cases hRest]
      rfl

end

end Stmt

end Statements

section Programs

variable {types : TypeRegistry} {scopes : Scopes}

theorem Global.eq_of_erase_eq {global global' : Global} (h : global'.erase = global.erase) :
    { global with value := global'.value, symbol := global'.symbol } = global' := by
  cases global
  cases global'
  simp_all [erase]

theorem Global.check_of_wellTyped (hScopes : scopes.Valid) {global global' : Global} {ty : Ty}
    (hErase : global'.erase = global.erase)
    (hBinding : HasBindingType types scopes.context global'.typeName global'.value ty)
    (hSymbol : global'.symbol = some ⟨global'.name, ty, global'.isMutable⟩) :
    Check.Yields (global.check types) scopes global'
      (scopes.defineVariable ⟨global'.name, ty, global'.isMutable⟩) := by
  have hSame := eq_of_erase_eq hErase
  obtain ⟨hName, hTypeName, hMutable, hValue, -⟩ := Global.mk.inj hErase
  have hChecked : checkBinding types scopes global.name global.typeName global.value =
      .ok (ty, global'.value) := by
    rw [← checkBinding_erase hScopes, ← hValue, checkBinding_erase hScopes, ← hTypeName]
    exact checkBinding_of_hasBindingType hBinding
  rw [hSymbol] at hSame
  rw [hName, hMutable] at hSame ⊢
  rw [← hSame]
  refine Check.yields_get.bind ?_
  exact (Check.yields_liftExcept_of_ok hChecked).bind ((Check.yields_modify _).bind rfl)

theorem Globals.mapM_of_wellTyped {Γ Γ' : Context} {globals' : List Global}
    (h : Globals.WellTyped types Γ globals' Γ') {globals : List Global}
    (hErase : globals'.map Global.erase = globals.map Global.erase) (hScopes : scopes.Valid)
    (hContext : scopes.context = Γ) :
    ∃ scopes', Check.Yields (globals.mapM (Global.check types)) scopes globals' scopes' ∧
      scopes'.Valid ∧ scopes'.context = Γ' := by
  induction h generalizing globals scopes with
  | nil =>
    obtain rfl := List.map_eq_nil_iff.mp hErase.symm
    exact ⟨scopes, rfl, hScopes, hContext⟩
  | @cons Γ Γ' global' globals' ty hBinding hSymbol _ ih =>
    cases globals with
    | nil => cases hErase
    | cons global globals =>
      obtain ⟨hHead, hTail⟩ := List.cons.inj hErase
      subst hContext
      have hGlobal := Global.check_of_wellTyped hScopes hHead hBinding hSymbol
      obtain ⟨scopes', hGlobals, hValid, hContext⟩ :=
        ih hTail (hScopes.defineVariable _) (hScopes.context_defineVariable _)
      refine ⟨scopes', ?_, hValid, hContext⟩
      rw [List.mapM_cons]
      exact hGlobal.bind (hGlobals.bind rfl)

theorem Function.eq_of_erase_eq {function function' : Function}
    (h : function'.erase = function.erase) :
    { function with body := function'.body, signature := function'.signature } = function' := by
  cases function
  cases function'
  simp_all [erase]

theorem Function.check_of_wellTyped (hScopes : scopes.Valid) {function function' : Function}
    {signature : Signature} (hErase : function'.erase = function.erase)
    (h : function'.WellTyped types scopes.context signature) :
    Check.Yields (function.check types) scopes function' (scopes.defineFunction signature) := by
  have hSame := eq_of_erase_eq hErase
  obtain ⟨-, hParameters, -, -, hBody, -⟩ := Function.mk.inj hErase
  have hSignature : function.checkSignature types = .ok signature := by
    rw [← h.checkSignature_eq, ← hSame]
    rfl
  have hDefined := hScopes.defineFunction signature
  obtain ⟨hInner, hContext⟩ := bodyScopes_valid hDefined function signature
  have hTyped := h.body
  rw [← hScopes.context_defineFunction, hParameters, ← hContext] at hTyped
  have hChecked : Stmt.checkBlock types
      (function.bodyScopes signature (scopes.defineFunction signature)) function.body =
        .ok function'.body := by
    rw [← Stmt.checkBlock_eraseBlock hInner, ← hBody, Stmt.checkBlock_eraseBlock hInner]
    exact Stmt.checkBlock_of_wellTyped hInner function'.body hTyped
  rw [h.slot] at hSame
  rw [← hSame]
  refine (Check.yields_liftExcept_of_ok hSignature).bind ?_
  refine (Check.yields_modify _).bind ?_
  refine Check.yields_get.bind ?_
  exact (Check.yields_liftExcept_of_ok hChecked).bind rfl

theorem Functions.mapM_of_wellTyped {Γ : Context} {functions' : List Function}
    (h : Functions.WellTyped types Γ functions') {functions : List Function}
    (hErase : functions'.map Function.erase = functions.map Function.erase)
    (hScopes : scopes.Valid) (hContext : scopes.context = Γ) :
    ∃ scopes', Check.Yields (functions.mapM (Function.check types)) scopes functions' scopes' := by
  induction h generalizing functions scopes with
  | nil =>
    obtain rfl := List.map_eq_nil_iff.mp hErase.symm
    exact ⟨scopes, rfl⟩
  | @cons Γ function' signature functions' hFunction _ ih =>
    cases functions with
    | nil => cases hErase
    | cons function functions =>
      obtain ⟨hHead, hTail⟩ := List.cons.inj hErase
      subst hContext
      have hChecked := Function.check_of_wellTyped hScopes hHead hFunction
      obtain ⟨scopes', hFunctions⟩ :=
        ih hTail (hScopes.defineFunction signature) (hScopes.context_defineFunction signature)
      refine ⟨scopes', ?_⟩
      rw [List.mapM_cons]
      exact hChecked.bind (hFunctions.bind rfl)

/-- A program whose slots can be filled as the rules ask is accepted, and they are filled so. -/
theorem Source.check_of_wellTypedIn (hScopes : scopes.Valid) {source derivation : Source}
    (hErase : derivation.erase = source.erase)
    (h : derivation.WellTypedIn types scopes.context) :
    ∃ scopes', Check.Yields (source.check types) scopes derivation scopes' := by
  obtain ⟨Γ, hGlobals, hFunctions⟩ := h.items
  obtain ⟨hGlobalsErase, hFunctionsErase⟩ := Source.mk.inj hErase
  obtain ⟨scopes₁, hCheckedGlobals, hScopes₁, hContext₁⟩ := Globals.mapM_of_wellTyped hGlobals
    hGlobalsErase hScopes rfl
  obtain ⟨scopes₂, hCheckedFunctions⟩ := Functions.mapM_of_wellTyped hFunctions hFunctionsErase
    hScopes₁ hContext₁
  have hCheckedMain : Check.Yields (liftExcept (source.checkMain types)) scopes () scopes :=
    Check.yields_liftExcept_of_ok (checkMain_eq_ok_iff.mpr (hasMain_of_erase_eq hErase h.main))
  exact ⟨scopes₂, hCheckedMain.bind (hCheckedGlobals.bind (hCheckedFunctions.bind rfl))⟩

/-- A derivation of a program is the program with its slots filled as the rules ask. -/
structure Source.Derivation (types : TypeRegistry) (source derivation : Source) : Prop where
  erase_eq : derivation.erase = source.erase
  wellTyped : derivation.WellTyped types

theorem Source.Derivation.check_yields {source derivation : Source}
    (h : source.Derivation types derivation) :
    ∃ scopes', Check.Yields (source.check types) (({} : Scopes).defineFunction Checker.print)
      derivation scopes' := by
  refine check_of_wellTypedIn (Scopes.Valid.empty.defineFunction Checker.print) h.erase_eq ?_
  rw [context_defineFunction_print]
  exact wellTypedIn_initial.mpr h.wellTyped

theorem Checker.check_eq_ok_iff_yields {source checked : Source} :
    ((ofTypes types).check source).1 = .ok checked ↔
      ∃ scopes', Check.Yields (source.check types) (({} : Scopes).defineFunction print) checked
        scopes' := by
  constructor
  · intro h
    exact ⟨_, Prod.ext h rfl⟩
  · rintro ⟨scopes', h⟩
    exact congrArg Prod.fst h

end Programs

/-- The checker accepts a program, whatever types were registered and whatever the slots of the tree
hold, if and only if the rules give it a derivation. The tree that it returns is the derivation, and
there is no other. -/
theorem Checker.accepts_iff_derivable (types : TypeRegistry) (source : Source) :
    (∀ checked, ((ofTypes types).check source).1 = .ok checked ↔ source.Derivation types checked) ∧
    (∀ first second, source.Derivation types first → source.Derivation types second →
      first = second) := by
  have hIff (checked : Source) :
      ((ofTypes types).check source).1 = .ok checked ↔ source.Derivation types checked := by
    rw [check_eq_ok_iff_yields]
    constructor
    · rintro ⟨scopes', h⟩
      exact ⟨Source.erase_of_check h, Source.wellTyped_of_check h⟩
    · exact Source.Derivation.check_yields
  refine ⟨hIff, fun first second hFirst hSecond => ?_⟩
  exact Except.ok.inj (((hIff first).mpr hFirst).symm.trans ((hIff second).mpr hSecond))

end ProcLang
