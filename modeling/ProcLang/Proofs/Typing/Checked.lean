import ProcLang.Proofs.Typing.Erasure
import ProcLang.Proofs.Typing.Values

/-! # What the checker accepts obeys the rules

The checker fills the slots of a tree from its frames, and the filled tree obeys the rules in the
context that the frames describe.
-/

namespace ProcLang

set_option autoImplicit false

theorem accepts_of_requireAssignable {target source : Ty} {result : Unit}
    (h : requireAssignable target source = .ok result) : target.accepts source = true := by
  unfold requireAssignable at h
  split at h
  · assumption
  · cases h

theorem Literal.hasType_of_check {value : Literal} {ty : Ty} (h : value.check = .ok ty) :
    value.HasType ty := by
  cases value with
  | nil =>
    cases h
    exact .nil
  | boolean b =>
    cases h
    exact .boolean
  | character c =>
    cases h
    exact .character
  | string s =>
    cases h
    exact .string
  | integer n =>
    rw [check] at h
    split at h
    · rename_i hRange
      cases h
      exact .integer hRange
    · cases h
  | decimal d =>
    rw [check] at h
    split at h
    · rename_i hRange
      cases h
      exact .decimal hRange
    · cases h

theorem eq_boolean_of_requireAssignable {ty : Ty} {result : Unit}
    (h : requireAssignable .boolean ty = .ok result) : ty = .boolean :=
  Ty.eq_of_accepts (accepts_of_requireAssignable h) (by decide) (by decide)

namespace Operator

variable {operator : Operator} {left right ty : Ty}

theorem hasType_of_logical (hLogical : operator.isLogical = true)
    (h : (do
      requireAssignable .boolean left
      requireAssignable .boolean right
      return .boolean) = Except.ok ty) : operator.HasType left right ty := by
  obtain ⟨_, hLeft, h⟩ := except_bind_ok h
  obtain ⟨_, hRight, h⟩ := except_bind_ok h
  cases h
  rw [eq_boolean_of_requireAssignable hLeft, eq_boolean_of_requireAssignable hRight]
  exact .logical hLogical

theorem hasType_of_comparison (hComparison : operator.isComparison = true)
    (h : (do
      requireAssignable .comparable left
      requireAssignable .comparable right
      requireAssignable left right
      requireAssignable right left
      return .boolean) = Except.ok ty) : operator.HasType left right ty := by
  obtain ⟨_, hLeft, h⟩ := except_bind_ok h
  obtain ⟨_, hRight, h⟩ := except_bind_ok h
  obtain ⟨_, hLeftRight, h⟩ := except_bind_ok h
  obtain ⟨_, hRightLeft, h⟩ := except_bind_ok h
  cases h
  have hOrdered := accepts_of_requireAssignable hLeft
  obtain rfl := Ty.eq_of_accepts_of_accepts hOrdered (accepts_of_requireAssignable hRight)
    (accepts_of_requireAssignable hLeftRight) (accepts_of_requireAssignable hRightLeft)
  exact .comparison hComparison hOrdered

theorem hasType_of_arithmetic (hOperator : operator ∈ [.add, .subtract, .multiply, .divide])
    (h : (if left.isNumeric ∧ left = right then .ok left
      else .error (.invalidOperands operator left right)) =
        (.ok ty : Except SemanticError Ty)) : operator.HasType left right ty := by
  split at h
  · rename_i hOperands
    obtain ⟨hNumeric, rfl⟩ := hOperands
    cases h
    exact .arithmetic hOperator hNumeric
  · cases h

theorem hasType_of_check (h : operator.check left right = .ok ty) :
    operator.HasType left right ty := by
  cases operator with
  | and | or => exact hasType_of_logical rfl h
  | less | greater | equal | notEqual => exact hasType_of_comparison rfl h
  | subtract | multiply | divide => exact hasType_of_arithmetic (by decide) h
  | add =>
    rw [check] at h
    split at h
    · rename_i hString
      cases h
      exact .join hString
    · exact hasType_of_arithmetic (by decide) h
  | power =>
    rw [check] at h
    split at h
    · rename_i hOperands
      obtain ⟨hNumeric, rfl⟩ := hOperands
      cases h
      exact .power hNumeric
    · cases h

end Operator

namespace Scopes

variable {scopes : Scopes} {name : String}

theorem lookup_of_requireVariable {symbol : Variable}
    (h : scopes.requireVariable name = .ok symbol) : scopes.lookupVariable name = some symbol := by
  unfold requireVariable at h
  split at h
  · rename_i found hFound
    cases h
    exact hFound
  · cases h

theorem lookup_of_requireFunction {arity : Nat} {signature : Signature}
    (h : scopes.requireFunction name arity = .ok signature) :
    scopes.lookupFunction name arity = some signature := by
  unfold requireFunction at h
  split at h
  · rename_i found hFound
    cases h
    exact hFound
  · cases h

end Scopes

namespace Expr

theorem kind_of_check {scopes : Scopes} {e e' : Expr} {ty : Ty} (h : e.check scopes = .ok (ty, e')) :
    e'.isBinary = e.isBinary ∧ e'.isCall = e.isCall ∧ e'.isReceiver = e.isReceiver := by
  have hErase := erase_of_check e h
  refine ⟨?_, ?_, ?_⟩
  · rw [← isBinary_erase, hErase, isBinary_erase]
  · rw [← isCall_erase, hErase, isCall_erase]
  · rw [← isReceiver_erase, hErase, isReceiver_erase]

variable {scopes : Scopes}

mutual

theorem hasType_of_check (hScopes : scopes.Valid) (e : Expr) {ty : Ty} {e' : Expr}
    (h : e.check scopes = .ok (ty, e')) : e'.HasType scopes.context ty := by
  cases e with
  | literal value slot =>
    rw [check] at h
    obtain ⟨ty, hValue, h⟩ := except_bind_ok h
    cases h
    exact .literal (Literal.hasType_of_check hValue)
  | group inner slot =>
    rw [check] at h
    obtain ⟨hBinary, h⟩ := except_unless_ok h
    obtain ⟨⟨ty, inner'⟩, hInner, h⟩ := except_bind_ok h
    cases h
    exact .group ((kind_of_check hInner).1.trans hBinary) (hasType_of_check hScopes inner hInner)
  | binary operator left right slot =>
    rw [check] at h
    obtain ⟨⟨leftType, left'⟩, hLeft, h⟩ := except_bind_ok h
    obtain ⟨⟨rightType, right'⟩, hRight, h⟩ := except_bind_ok h
    obtain ⟨ty, hOperator, h⟩ := except_bind_ok h
    cases h
    exact .binary (hasType_of_check hScopes left hLeft) (hasType_of_check hScopes right hRight)
      (Operator.hasType_of_check hOperator)
  | access name symbol slot =>
    rw [check] at h
    obtain ⟨symbol, hSymbol, h⟩ := except_bind_ok h
    cases h
    exact .access (Scopes.lookup_of_requireVariable hSymbol)
  | element name index symbol slot =>
    rw [check] at h
    obtain ⟨⟨indexType, index'⟩, hIndex, h⟩ := except_bind_ok h
    obtain ⟨_, hInteger, h⟩ := except_bind_ok h
    obtain ⟨symbol, hSymbol, h⟩ := except_bind_ok h
    cases h
    obtain rfl := Ty.eq_of_accepts (accepts_of_requireAssignable hInteger) (by decide) (by decide)
    exact .element (hasType_of_check hScopes index hIndex) (Scopes.lookup_of_requireVariable hSymbol)
  | call name arguments signature slot =>
    rw [check] at h
    obtain ⟨signature, hSignature, h⟩ := except_bind_ok h
    obtain ⟨arguments', hArguments, h⟩ := except_bind_ok h
    cases h
    have hSignature := Scopes.lookup_of_requireFunction hSignature
    obtain ⟨hLength, tys, hTyped, hAccepted⟩ := typed_of_checkArguments hScopes arguments
      (hScopes.key_of_lookupFunction hSignature).2.symm hArguments
    exact .call (hLength ▸ hSignature) hTyped hAccepted
  | list items slot =>
    rw [check] at h
    obtain ⟨items', hItems, h⟩ := except_bind_ok h
    cases h
    obtain ⟨tys, hTyped⟩ := typed_of_checkItems hScopes items hItems
    exact .list hTyped

theorem typed_of_checkArguments (hScopes : scopes.Valid) (arguments : List Expr)
    {parameterTypes : List Ty} (hLength : arguments.length = parameterTypes.length)
    {arguments' : List Expr} (h : checkArguments scopes arguments parameterTypes = .ok arguments') :
    arguments.length = arguments'.length ∧
      ∃ tys, List.Forall₂ (HasType scopes.context) arguments' tys ∧
        List.Forall₂ (fun target source => target.accepts source = true) parameterTypes tys := by
  cases arguments with
  | nil =>
    obtain rfl := List.length_eq_zero_iff.mp hLength.symm
    rw [checkArguments] at h
    · cases h
      exact ⟨rfl, [], .nil, .nil⟩
    · intro _ _ _ _ hNil
      cases hNil
  | cons argument arguments =>
    cases parameterTypes with
    | nil => cases hLength
    | cons parameterType parameterTypes =>
      rw [checkArguments] at h
      obtain ⟨⟨ty, argument'⟩, hArgument, h⟩ := except_bind_ok h
      obtain ⟨_, hAccepted, h⟩ := except_bind_ok h
      obtain ⟨arguments', hArguments, h⟩ := except_bind_ok h
      cases h
      obtain ⟨hLength, tys, hTyped, hOthers⟩ :=
        typed_of_checkArguments hScopes arguments (Nat.succ.inj hLength) hArguments
      exact ⟨congrArg Nat.succ hLength, ty :: tys,
        .cons (hasType_of_check hScopes argument hArgument) hTyped,
        .cons (accepts_of_requireAssignable hAccepted) hOthers⟩

theorem typed_of_checkItems (hScopes : scopes.Valid) (items : List Expr) {items' : List Expr}
    (h : checkItems scopes items = .ok items') :
    ∃ tys, List.Forall₂ (HasType scopes.context) items' tys := by
  cases items with
  | nil =>
    cases h
    exact ⟨[], .nil⟩
  | cons item items =>
    rw [checkItems] at h
    obtain ⟨⟨ty, item'⟩, hItem, h⟩ := except_bind_ok h
    obtain ⟨items', hItems, h⟩ := except_bind_ok h
    cases h
    obtain ⟨tys, hTyped⟩ := typed_of_checkItems hScopes items hItems
    exact ⟨ty :: tys, .cons (hasType_of_check hScopes item hItem) hTyped⟩

end

theorem typed_of_mapM (hScopes : scopes.Valid) {declared : Ty} {items items' : List Expr}
    (h : List.Forall₂ (fun item item' => (do
      let (ty, item) ← check scopes item
      requireAssignable declared ty
      return item) = .ok item') items items') :
    ∃ tys, List.Forall₂ (HasType scopes.context) items' tys ∧
      ∀ ty ∈ tys, declared.accepts ty = true := by
  induction h with
  | nil => exact ⟨[], .nil, by simp⟩
  | @cons item item' items items' hItem _ ih =>
    obtain ⟨⟨ty, item'⟩, hCheck, hItem⟩ := except_bind_ok hItem
    obtain ⟨_, hAccepted, hItem⟩ := except_bind_ok hItem
    cases hItem
    obtain ⟨tys, hTyped, hOthers⟩ := ih
    refine ⟨ty :: tys, .cons (hasType_of_check hScopes item hCheck) hTyped, ?_⟩
    intro other hOther
    rcases List.mem_cons.mp hOther with rfl | hOther
    · exact accepts_of_requireAssignable hAccepted
    · exact hOthers other hOther

theorem initializes_of_check (hScopes : scopes.Valid) {declared : Ty} {value value' : Expr}
    (h : value.checkInitializer scopes declared = .ok value') :
    value'.Initializes scopes.context declared := by
  have hPlain (hList : value.isList = false) (h : (do
      let (ty, value) ← value.check scopes
      requireAssignable declared ty
      return value) = .ok value') : value'.Initializes scopes.context declared := by
    obtain ⟨⟨ty, value'⟩, hValue, h⟩ := except_bind_ok h
    obtain ⟨_, hAccepted, h⟩ := except_bind_ok h
    cases h
    have hList' : value'.isList = false := by
      rw [← isList_erase, erase_of_check value hValue, isList_erase, hList]
    exact .value hList' (hasType_of_check hScopes value hValue)
      (accepts_of_requireAssignable hAccepted)
  cases value with
  | list items slot =>
    obtain ⟨items', hItems, h⟩ := except_bind_ok h
    cases h
    obtain ⟨tys, hTyped, hAccepted⟩ := typed_of_mapM hScopes (except_mapM_ok hItems)
    exact .items hTyped hAccepted
  | literal | group | binary | access | element | call => exact hPlain rfl h

end Expr

section Statements

variable {types : TypeRegistry} {scopes : Scopes}

theorem hasBindingType_of_check (hScopes : scopes.Valid) {name : String} {typeName : Option String}
    {value value' : Option Expr} {ty : Ty}
    (h : checkBinding types scopes name typeName value = .ok (ty, value')) :
    HasBindingType types scopes.context typeName value' ty := by
  unfold checkBinding at h
  obtain ⟨declared, hDeclared, h⟩ := except_bind_ok h
  cases typeName with
  | none =>
    cases hDeclared
    cases value with
    | none => cases h
    | some value =>
      obtain ⟨⟨ty, value'⟩, hValue, h⟩ := except_bind_ok h
      cases h
      exact .inferred (Expr.hasType_of_check hScopes value hValue)
  | some typeName =>
    obtain ⟨declared, hResolved, hDeclared⟩ := except_bind_ok hDeclared
    cases hDeclared
    have hType := TypeRegistry.resolve_eq_ok_iff.mp hResolved
    cases value with
    | none =>
      cases h
      exact .declared hType
    | some value =>
      obtain ⟨value', hValue, h⟩ := except_bind_ok h
      cases h
      exact .initialized hType (Expr.initializes_of_check hScopes hValue)

theorem hasType_of_checkCondition (hScopes : scopes.Valid) {condition condition' : Expr}
    (h : checkCondition scopes condition = .ok condition') :
    condition'.HasType scopes.context .boolean := by
  unfold checkCondition at h
  obtain ⟨⟨ty, condition'⟩, hCondition, h⟩ := except_bind_ok h
  obtain ⟨_, hBoolean, h⟩ := except_bind_ok h
  cases h
  obtain rfl := eq_boolean_of_requireAssignable hBoolean
  exact Expr.hasType_of_check hScopes condition hCondition

theorem wellTyped_of_checkAssignment (hScopes : scopes.Valid) {receiver value receiver' value' : Expr}
    (h : checkAssignment scopes receiver value = .ok (receiver', value')) :
    Stmt.WellTyped types scopes.context (.assignment receiver' value') scopes.context := by
  unfold checkAssignment at h
  obtain ⟨hReceiver, h⟩ := except_unless_ok h
  obtain ⟨⟨valueType, value'⟩, hValue, h⟩ := except_bind_ok h
  obtain ⟨⟨receiverType, receiver'⟩, hType, h⟩ := except_bind_ok h
  have hReceiver' := (Expr.kind_of_check hType).2.2.trans hReceiver
  have hType' := Expr.hasType_of_check hScopes receiver hType
  have hValue' := Expr.hasType_of_check hScopes value hValue
  have hSlot : ∃ symbol, receiver'.receiverSymbol? = some symbol := by
    cases hType' with
    | access | element => exact ⟨_, rfl⟩
    | literal | group | binary | call | list => cases hReceiver'
  obtain ⟨symbol, hSlot⟩ := hSlot
  simp only [hSlot] at h
  obtain ⟨hMutable, h⟩ := except_unless_ok h
  obtain ⟨_, hAccepted, h⟩ := except_bind_ok h
  cases h
  refine .assignment hReceiver' hType' hValue' ?_ (accepts_of_requireAssignable hAccepted)
  intro other hOther
  obtain rfl := Option.some.inj (hSlot.symm.trans hOther)
  exact hMutable

theorem isDefault_of_checkCases {subject : Ty} {cases cases' : List Case}
    (h : Stmt.checkCases types scopes subject cases = .ok cases') :
    cases'.countP Case.isDefault = cases.countP Case.isDefault := by
  rw [← Stmt.isDefault_eraseCases, Stmt.erase_of_checkCases cases h, Stmt.isDefault_eraseCases]

mutual

theorem wellTyped_of_check {scopes : Scopes} (hScopes : scopes.Valid) (statement : Stmt)
    {scopes' : Scopes} {statement' : Stmt}
    (h : statement.check types scopes = .ok (scopes', statement')) :
    scopes'.Valid ∧ Stmt.WellTyped types scopes.context statement' scopes'.context := by
  cases statement with
  | expression e =>
    rw [Stmt.check] at h
    obtain ⟨hCall, h⟩ := except_unless_ok h
    obtain ⟨⟨ty, e'⟩, hExpr, h⟩ := except_bind_ok h
    cases h
    exact ⟨hScopes, .expression ((Expr.kind_of_check hExpr).2.1.trans hCall)
      (Expr.hasType_of_check hScopes e hExpr)⟩
  | declaration name typeName value symbol =>
    rw [Stmt.check] at h
    obtain ⟨⟨ty, value'⟩, hBinding, h⟩ := except_bind_ok h
    cases h
    refine ⟨hScopes.defineVariable _, ?_⟩
    rw [hScopes.context_defineVariable]
    exact .declaration (hasBindingType_of_check hScopes hBinding)
  | assignment receiver value =>
    rw [Stmt.check] at h
    obtain ⟨⟨receiver', value'⟩, hAssignment, h⟩ := except_bind_ok h
    cases h
    exact ⟨hScopes, wellTyped_of_checkAssignment hScopes hAssignment⟩
  | conditional condition consequent alternative =>
    rw [Stmt.check] at h
    obtain ⟨condition', hCondition, h⟩ := except_bind_ok h
    simp only at h
    split at h
    · cases h
    · rename_i hNonempty
      obtain ⟨consequent', hConsequent, h⟩ := except_bind_ok h
      obtain ⟨alternative', hAlternative, h⟩ := except_bind_ok h
      cases h
      have hConsequent' := wellTyped_of_checkBlock hScopes.push consequent hConsequent
      have hAlternative' := wellTyped_of_checkBlock hScopes.push alternative hAlternative
      rw [hScopes.context_push] at hConsequent' hAlternative'
      refine ⟨hScopes, .conditional (hasType_of_checkCondition hScopes hCondition) ?_
        hConsequent' hAlternative'⟩
      rintro rfl
      have hErase := Stmt.erase_of_checkBlock consequent hConsequent
      cases consequent with
      | nil => exact hNonempty rfl
      | cons statement rest => cases hErase
  | switch subject cases =>
    rw [Stmt.check] at h
    obtain ⟨⟨ty, subject'⟩, hSubject, h⟩ := except_bind_ok h
    obtain ⟨hDefault, h⟩ := except_unless_ok h
    obtain ⟨cases', hCases, h⟩ := except_bind_ok h
    cases h
    exact ⟨hScopes, .switch (Expr.hasType_of_check hScopes subject hSubject)
      ((isDefault_of_checkCases hCases).trans hDefault)
      (wellTyped_of_checkCases hScopes cases hCases)⟩
  | loop condition body =>
    rw [Stmt.check] at h
    obtain ⟨condition', hCondition, h⟩ := except_bind_ok h
    obtain ⟨body', hBody, h⟩ := except_bind_ok h
    cases h
    have hBody' := wellTyped_of_checkBlock hScopes.push body hBody
    rw [hScopes.context_push] at hBody'
    exact ⟨hScopes, .loop (hasType_of_checkCondition hScopes hCondition) hBody'⟩
  | returns value =>
    rw [Stmt.check] at h
    obtain ⟨⟨ty, value'⟩, hValue, h⟩ := except_bind_ok h
    obtain ⟨_, hAccepted, h⟩ := except_bind_ok h
    cases h
    exact ⟨hScopes, .returns (Expr.hasType_of_check hScopes value hValue)
      (accepts_of_requireAssignable hAccepted)⟩

theorem wellTyped_of_checkBlock {scopes : Scopes} (hScopes : scopes.Valid) (statements : List Stmt)
    {statements' : List Stmt} (h : Stmt.checkBlock types scopes statements = .ok statements') :
    Block.WellTyped types scopes.context statements' := by
  cases statements with
  | nil =>
    cases h
    exact .nil
  | cons statement rest =>
    rw [Stmt.checkBlock] at h
    obtain ⟨⟨scopes', statement'⟩, hStatement, h⟩ := except_bind_ok h
    obtain ⟨rest', hRest, h⟩ := except_bind_ok h
    cases h
    obtain ⟨hScopes', hTyped⟩ := wellTyped_of_check hScopes statement hStatement
    exact .cons hTyped (wellTyped_of_checkBlock hScopes' rest hRest)

theorem wellTyped_of_checkCases {scopes : Scopes} (hScopes : scopes.Valid) {subject : Ty}
    (cases : List Case) {cases' : List Case}
    (h : Stmt.checkCases types scopes subject cases = .ok cases') :
    Cases.WellTyped types scopes.context subject cases' := by
  cases cases with
  | nil =>
    cases h
    exact .nil
  | cons case cases =>
    obtain ⟨value, body⟩ := case
    rw [Stmt.checkCases] at h
    obtain ⟨value', hSlot, h⟩ := except_bind_ok h
    obtain ⟨body', hBody, h⟩ := except_bind_ok h
    obtain ⟨cases', hCases, h⟩ := except_bind_ok h
    cases h
    have hBody' := wellTyped_of_checkBlock hScopes.push body hBody
    rw [hScopes.context_push] at hBody'
    have hRest := wellTyped_of_checkCases hScopes cases hCases
    cases value with
    | none =>
      cases hSlot
      exact .default hBody' hRest
    | some value =>
      obtain ⟨⟨ty, value'⟩, hValue, hSlot⟩ := except_bind_ok hSlot
      obtain ⟨_, hAccepted, hSlot⟩ := except_bind_ok hSlot
      cases hSlot
      have hValue' := Expr.hasType_of_check hScopes.push value hValue
      rw [hScopes.context_push] at hValue'
      exact .value hValue' (accepts_of_requireAssignable hAccepted) hBody' hRest

end

end Statements

section Programs

variable {types : TypeRegistry} {scopes scopes' : Scopes}

theorem Global.wellTyped_of_check (hScopes : scopes.Valid) {global global' : Global}
    (h : Check.Yields (global.check types) scopes global' scopes') :
    scopes'.Valid ∧ ∃ ty,
      HasBindingType types scopes.context global'.typeName global'.value ty ∧
      global'.symbol = some ⟨global'.name, ty, global'.isMutable⟩ ∧
      scopes'.context = scopes.context.bind ⟨global'.name, ty, global'.isMutable⟩ := by
  obtain ⟨_, _, hGet, h⟩ := Check.yields_bind h
  cases hGet
  obtain ⟨⟨ty, value'⟩, _, hLifted, h⟩ := Check.yields_bind h
  obtain ⟨hBinding, rfl⟩ := Check.yields_liftExcept hLifted
  obtain ⟨_, _, hModify, h⟩ := Check.yields_bind h
  cases hModify
  obtain ⟨rfl, rfl⟩ := Check.yields_pure h
  exact ⟨hScopes.defineVariable _, ty, hasBindingType_of_check hScopes hBinding, rfl,
    hScopes.context_defineVariable _⟩

theorem Globals.wellTyped_of_mapM (hScopes : scopes.Valid) {globals globals' : List Global}
    (h : Check.Yields (globals.mapM (Global.check types)) scopes globals' scopes') :
    scopes'.Valid ∧ Globals.WellTyped types scopes.context globals' scopes'.context := by
  induction globals generalizing globals' scopes with
  | nil =>
    obtain ⟨rfl, rfl⟩ := Check.yields_pure h
    exact ⟨hScopes, .nil⟩
  | cons global globals ih =>
    rw [List.mapM_cons] at h
    obtain ⟨global', scopes₁, hGlobal, h⟩ := Check.yields_bind h
    obtain ⟨globals', scopes₂, hGlobals, h⟩ := Check.yields_bind h
    obtain ⟨rfl, rfl⟩ := Check.yields_pure h
    obtain ⟨hScopes₁, ty, hBinding, hSymbol, hContext⟩ := Global.wellTyped_of_check hScopes hGlobal
    obtain ⟨hScopes₂, hRest⟩ := ih hScopes₁ hGlobals
    rw [hContext] at hRest
    exact ⟨hScopes₂, .cons hBinding hSymbol hRest⟩

theorem Scopes.Valid.defineParameters (hScopes : scopes.Valid) (parameters : List (String × Ty)) :
    let defined := parameters.foldl
      (fun scopes (name, ty) => scopes.defineVariable ⟨name, ty, false⟩) scopes
    defined.Valid ∧ defined.context =
      parameters.foldl (fun Γ (name, ty) => Γ.bind ⟨name, ty, false⟩) scopes.context := by
  induction parameters generalizing scopes with
  | nil => exact ⟨hScopes, rfl⟩
  | cons parameter parameters ih =>
    have hTail := ih (hScopes.defineVariable ⟨parameter.1, parameter.2, false⟩)
    rw [hScopes.context_defineVariable] at hTail
    exact hTail

theorem Function.bodyScopes_valid (hScopes : scopes.Valid) (function : Function)
    (signature : Signature) :
    (function.bodyScopes signature scopes).Valid ∧
      (function.bodyScopes signature scopes).context = scopes.context.enter
        (function.parameters.zip signature.parameterTypes) signature.returnType := by
  have hBody := (hScopes.pushFrame (some signature.returnType)).defineParameters
    (function.parameters.zip signature.parameterTypes)
  rw [hScopes.context_pushFrame] at hBody
  exact hBody

theorem Function.checkReturnType_eq_ok_iff {name : Option String} {ty : Ty} :
    checkReturnType types name = .ok ty ↔ HasReturnType types name ty := by
  constructor
  · intro h
    cases name with
    | none =>
      cases h
      exact .missing
    | some => exact .named (TypeRegistry.resolve_eq_ok_iff.mp h)
  · rintro (_ | hType)
    · rfl
    · exact TypeRegistry.resolve_eq_ok_iff.mpr hType

theorem Function.signature_of_check {function : Function} {signature : Signature}
    (h : function.checkSignature types = .ok signature) :
    signature.name = function.name ∧
      List.Forall₂ (fun name ty => types.lookup name = some ty) function.parameterTypes
        signature.parameterTypes ∧
      HasReturnType types function.returnType signature.returnType := by
  obtain ⟨parameterTypes, hParameters, h⟩ := except_bind_ok h
  obtain ⟨returnType, hReturn, h⟩ := except_bind_ok h
  cases h
  refine ⟨rfl, ?_, checkReturnType_eq_ok_iff.mp hReturn⟩
  exact (except_mapM_ok hParameters).imp fun _ _ => TypeRegistry.resolve_eq_ok_iff.mp

theorem Function.checkSignature_eq {function : Function} {signature : Signature}
    (hName : signature.name = function.name)
    (hParameters : List.Forall₂ (fun name ty => types.lookup name = some ty)
      function.parameterTypes signature.parameterTypes)
    (hReturn : HasReturnType types function.returnType signature.returnType) :
    function.checkSignature types = .ok signature := by
  have hResolved := hParameters.imp fun _ _ => TypeRegistry.resolve_eq_ok_iff.mpr
  unfold checkSignature
  rw [except_mapM_of_forall₂ hResolved, checkReturnType_eq_ok_iff.mpr hReturn, ← hName]
  rfl

theorem Function.WellTyped.checkSignature_eq {Γ : Context} {function : Function}
    {signature : Signature} (h : function.WellTyped types Γ signature) :
    function.checkSignature types = .ok signature :=
  Function.checkSignature_eq h.name_eq h.parameterTypes h.returnType

theorem Function.wellTyped_of_check (hScopes : scopes.Valid) {function function' : Function}
    (h : Check.Yields (function.check types) scopes function' scopes') :
    scopes'.Valid ∧ ∃ signature, function'.WellTyped types scopes.context signature ∧
      scopes'.context = scopes.context.declare signature := by
  obtain ⟨signature, _, hLifted, h⟩ := Check.yields_bind h
  obtain ⟨hSignature, rfl⟩ := Check.yields_liftExcept hLifted
  obtain ⟨_, _, hModify, h⟩ := Check.yields_bind h
  cases hModify
  obtain ⟨_, _, hGet, h⟩ := Check.yields_bind h
  cases hGet
  obtain ⟨body', _, hLiftedBody, h⟩ := Check.yields_bind h
  obtain ⟨hBody, rfl⟩ := Check.yields_liftExcept hLiftedBody
  obtain ⟨rfl, rfl⟩ := Check.yields_pure h
  have hDefined := hScopes.defineFunction signature
  have hContext := hScopes.context_defineFunction signature
  obtain ⟨hInner, hInnerContext⟩ := bodyScopes_valid hDefined function signature
  obtain ⟨hName, hParameters, hReturn⟩ := signature_of_check hSignature
  have hTyped := wellTyped_of_checkBlock hInner function.body hBody
  rw [hInnerContext, hContext] at hTyped
  exact ⟨hDefined, signature, ⟨rfl, hName, hParameters, hReturn, hTyped⟩, hContext⟩

theorem Functions.wellTyped_of_mapM (hScopes : scopes.Valid) {functions functions' : List Function}
    (h : Check.Yields (functions.mapM (Function.check types)) scopes functions' scopes') :
    Functions.WellTyped types scopes.context functions' := by
  induction functions generalizing functions' scopes with
  | nil =>
    obtain ⟨rfl, rfl⟩ := Check.yields_pure h
    exact .nil
  | cons function functions ih =>
    rw [List.mapM_cons] at h
    obtain ⟨function', scopes₁, hFunction, h⟩ := Check.yields_bind h
    obtain ⟨functions', scopes₂, hFunctions, h⟩ := Check.yields_bind h
    obtain ⟨rfl, rfl⟩ := Check.yields_pure h
    obtain ⟨hScopes₁, signature, hTyped, hContext⟩ := Function.wellTyped_of_check hScopes hFunction
    have hRest := ih hScopes₁ hFunctions
    rw [hContext] at hRest
    exact .cons hTyped hRest

/-- The function that a run begins with is the one that the rule finds. -/
theorem Source.hasMain_iff_main? {source : Source} :
    Functions.HasMain types source.functions ↔
      ∃ main, source.main? = some main ∧ HasReturnType types main.returnType .integer := by
  unfold main?
  induction source.functions with
  | nil =>
    constructor
    · nofun
    · rintro ⟨main, hMain, -⟩
      cases hMain
  | cons function rest ih =>
    rw [List.find?_cons]
    by_cases hMain : function.name = "main" ∧ function.parameters = []
    · simp only [hMain.1, hMain.2, List.isEmpty_nil, and_self, decide_true, Option.some.injEq,
        exists_eq_left']
      constructor
      · rintro (⟨-, -, hReturn⟩ | ⟨hOther, -⟩)
        · exact hReturn
        · exact absurd hMain.2 (hOther hMain.1)
      · exact .here hMain.1 hMain.2
    · have hFalse : decide (function.name = "main" ∧ function.parameters.isEmpty) = false := by
        simpa using hMain
      rw [hFalse, ← ih]
      constructor
      · rintro (⟨hName, hParameters, -⟩ | ⟨-, hRest⟩)
        · exact absurd ⟨hName, hParameters⟩ hMain
        · exact hRest
      · exact .later fun hName hParameters => hMain ⟨hName, hParameters⟩

theorem Source.checkMain_eq_ok_iff {source : Source} :
    source.checkMain types = .ok () ↔ Functions.HasMain types source.functions := by
  rw [hasMain_iff_main?]
  unfold checkMain
  constructor
  · intro h
    split at h
    · cases h
    · rename_i main hMain
      obtain ⟨returnType, hReturn, h⟩ := except_bind_ok h
      split at h
      · rename_i hInteger
        obtain rfl := Ty.eq_of_accepts hInteger (by decide) (by decide)
        exact ⟨main, hMain, Function.checkReturnType_eq_ok_iff.mp hReturn⟩
      · cases h
  · rintro ⟨main, hMain, hReturn⟩
    simp only [hMain, Function.checkReturnType_eq_ok_iff.mpr hReturn]
    rfl

/-- What slots hold does not count. -/
theorem Source.hasMain_of_erase_eq {source source' : Source} (h : source.erase = source'.erase)
    (hMain : Functions.HasMain types source.functions) :
    Functions.HasMain types source'.functions := by
  obtain ⟨main, hFound, hReturn⟩ := hasMain_iff_main?.mp hMain
  obtain ⟨main', hFound', hReturnType⟩ := main_of_erase_eq h.symm hFound
  exact hasMain_iff_main?.mpr ⟨main', hFound', hReturnType ▸ hReturn⟩

theorem context_defineFunction_print :
    (({} : Scopes).defineFunction Checker.print).context = .initial :=
  Scopes.Valid.empty.context_defineFunction Checker.print

/-- A program that was accepted obeys the rules. -/
theorem Source.wellTypedIn_of_check (hScopes : scopes.Valid) {source checked : Source}
    (h : Check.Yields (source.check types) scopes checked scopes') :
    checked.WellTypedIn types scopes.context := by
  have hErase := Source.erase_of_check h
  obtain ⟨_, _, hLifted, h⟩ := Check.yields_bind h
  obtain ⟨hMain, rfl⟩ := Check.yields_liftExcept hLifted
  obtain ⟨globals', scopes₁, hGlobals, h⟩ := Check.yields_bind h
  obtain ⟨functions', scopes₂, hFunctions, h⟩ := Check.yields_bind h
  obtain ⟨rfl, rfl⟩ := Check.yields_pure h
  obtain ⟨hScopes₁, hGlobals'⟩ := Globals.wellTyped_of_mapM hScopes hGlobals
  exact ⟨Source.hasMain_of_erase_eq hErase.symm (checkMain_eq_ok_iff.mp hMain), _, hGlobals',
    Functions.wellTyped_of_mapM hScopes₁ hFunctions⟩

theorem Source.wellTyped_of_check {source checked : Source}
    (h : Check.Yields (source.check types) (({} : Scopes).defineFunction Checker.print) checked
      scopes') : checked.WellTyped types := by
  have hTyped := wellTypedIn_of_check (Scopes.Valid.empty.defineFunction Checker.print) h
  rw [context_defineFunction_print] at hTyped
  exact wellTypedIn_initial.mp hTyped

theorem wellTyped_of_checkProgram {source checked : Source} (h : checkProgram source = .ok checked) :
    checked.WellTyped {} := by
  obtain ⟨scopes', hYields⟩ := yields_of_checkProgram h
  exact Source.wellTyped_of_check hYields

end Programs

end ProcLang
