import ProcLang.Proofs.Safety.Judged

/-! # Soundness of evaluation

Each expression is safe if the expressions and calls inside it are, which have one step less.
-/

namespace ProcLang

set_option autoImplicit false

variable {types : TypeRegistry} {typed : Prop} {W : World} {caller : Option Function}
  {Φ : StoreTyping} {Γ : Context} {machine : Machine} {n : Nat}

namespace Ready

theorem safe_lookup (h : Ready typed W caller Φ Γ machine.store machine.env.current) {name : String}
    {symbol : Variable} (hSymbol : Γ.symbol? name = some symbol) {margin : Nat} :
    (Exec.lookup name machine).Safe typed W.functions margin Φ machine
      fun value _ _ => typed → symbol.ty.admits value.tag = true := by
  obtain ⟨owner, binding, hResolve, -, -, hAgrees⟩ := h.resolve hSymbol
  have hLookup : machine.store.lookup machine.env.current name = some binding.value := by
    rw [Store.lookup, hResolve]
    rfl
  unfold Exec.lookup
  rw [hLookup]
  exact ⟨Φ, .refl h.conforms _, hAgrees.admits⟩

theorem lookupFunction_eq (h : Ready typed W caller Φ Γ machine.store machine.env.current)
    {name : String} {arity : Nat} {callable : Callable}
    (hCallable : callable? W.functions name arity = some callable) :
    Exec.lookupFunction name arity machine = .done callable machine := by
  unfold Exec.lookupFunction
  rw [h.conforms.lookupFunction_eq h.current_lt, hCallable]

end Ready

theorem Operator.HasType.eq_boolean {operator : Operator} {left right ty : Ty}
    (h : operator.HasType left right ty) (hLogical : operator = .and ∨ operator = .or) :
    ty = .boolean := by
  cases h with
  | logical | comparison => rfl
  | join | power => simp at hLogical
  | arithmetic hOperator => rcases hLogical with rfl | rfl <;> simp at hOperator

theorem Operator.tolerated_of_evaluate {operator : Operator} {left right : Value}
    {leftType rightType ty : Ty} (h : operator.HasType leftType rightType ty)
    (hOrdered : typed → leftType ≠ .comparable) (hLeft : typed → leftType.admits left.tag = true)
    (hRight : typed → rightType.admits right.tag = true) {error : OperationError}
    (hError : operator.evaluate left right = .error error) :
    (RuntimeError.operation error).Tolerated typed where
  isNaming := rfl
  isNumerical hTyped := by
    have hComputes := h.computes (hOrdered hTyped) (hLeft hTyped) (hRight hTyped)
    obtain ⟨reason, rfl⟩ := hComputes.evaluate_error hError
    rfl

namespace Value

variable {value index : Value} {name : String} {length : Nat} {error : RuntimeError}

theorem isNaming_of_items (h : value.items name = .error error) : error.isNaming = false := by
  rw [items_error h]
  rfl

theorem isNaming_of_position (h : index.position length = .error error) :
    error.isNaming = false := by
  obtain ⟨i, rfl⟩ | rfl := position_error h <;> rfl

theorem isNaming_of_item (h : value.item name index = .error error) : error.isNaming = false := by
  obtain hItems | ⟨length, hPosition⟩ := item_error h
  · exact isNaming_of_items hItems
  · exact isNaming_of_position hPosition

end Value

theorem admits_of_fits {arguments : List Expr} {tys parameterTypes : List Ty} {values : List Value}
    (hTypes : List.Forall₂ (Expr.HasType Γ) arguments tys)
    (hAccepted : List.Forall₂ (fun target source => target.accepts source = true) parameterTypes tys)
    (hFits : List.Forall₂ Expr.Fits arguments values) :
    List.Forall₂ (fun ty value => ty.admits value.tag = true) parameterTypes values := by
  induction hFits generalizing tys parameterTypes with
  | nil =>
    cases hTypes
    cases hAccepted
    exact .nil
  | cons hHead _ ih =>
    cases hTypes with
    | cons hType hTypes =>
      cases hAccepted with
      | cons hAccepts hAccepted =>
        exact .cons (Ty.admits_of_accepts hAccepts (hType.admits hHead)) (ih hTypes hAccepted)

theorem Ready.justified_call (hW : W.Valid types typed) {name : String} {arguments : List Expr}
    {signature : Signature} {tys : List Ty} {values : List Value}
    (hSignature : Γ.signature? name arguments.length = some signature)
    (hTypes : List.Forall₂ (Expr.HasType Γ) arguments tys)
    (hAccepted : List.Forall₂ (fun target source => target.accepts source = true)
      signature.parameterTypes tys)
    (hLength : values.length = arguments.length)
    (hFits : typed → List.Forall₂ Expr.Fits arguments values)
    (h : Ready typed W caller Φ Γ machine.store machine.env.current) :
    Justified types typed W caller Φ Γ (.call name (some signature) values) machine := by
  obtain ⟨callable, hCallable, hServed⟩ := hW.served h.sees hSignature
  rw [← hLength] at hCallable hSignature
  refine .of_outside ⟨?_, callable, hCallable, fun hTyped => ?_⟩ h rfl
  · rintro _ ⟨⟩
    exact hSignature
  · exact ⟨signature, hServed hTyped, admits_of_fits hTypes hAccepted (hFits hTyped)⟩

namespace Sound

theorem evaluate_logical (h : Sound types typed W n) {operator : Operator} {left right : Expr}
    {leftType rightType ty : Ty} (hLogical : operator = .and ∨ operator = .or)
    (hOperator : operator.HasType leftType rightType ty)
    (hLeft : Justified types typed W caller Φ Γ (.evaluate left) machine)
    (hRight : ∀ {Φ₁ machine₁}, Ready typed W caller Φ₁ Γ machine₁.store machine₁.env.current →
      Justified types typed W caller Φ₁ Γ (.evaluate right) machine₁) :
    (Exec.evaluate (n + 1) (.binary operator left right (some ty)) machine).Safe typed W.functions 1 Φ
      machine fun value _ _ => typed → (Expr.binary operator left right (some ty)).Fits value := by
  obtain rfl : ty = .boolean := hOperator.eq_boolean hLogical
  have hTail (Φ₁ : StoreTyping) (machine₁ : Machine)
      (hReady : Ready typed W caller Φ₁ Γ machine₁.store machine₁.env.current) :
      ((do return .boolean (← Exec.evaluate n right).isTrue : Exec Value) machine₁).Safe typed
        W.functions 1 Φ₁ machine₁
        fun value _ _ => typed → (Expr.binary operator left right (some .boolean)).Fits value := by
    refine Exec.safe_bind (h.evaluate (hRight hReady)) fun value Φ₂ machine₂ hLeaves _ => ?_
    exact Exec.safe_pure hLeaves.conforms fun _ => ⟨.boolean, rfl, rfl⟩
  rcases hLogical with rfl | rfl
  · refine Exec.safe_bind (h.evaluate hLeft) fun value Φ₁ machine₁ hLeaves _ => ?_
    split
    · exact hTail Φ₁ machine₁ (hLeft.ready.of_leaves hLeaves)
    · exact Exec.safe_pure hLeaves.conforms fun _ => ⟨.boolean, rfl, rfl⟩
  · refine Exec.safe_bind (h.evaluate hLeft) fun value Φ₁ machine₁ hLeaves _ => ?_
    split
    · exact Exec.safe_pure hLeaves.conforms fun _ => ⟨.boolean, rfl, rfl⟩
    · exact hTail Φ₁ machine₁ (hLeft.ready.of_leaves hLeaves)

theorem evaluate_strict (hW : W.Valid types typed) (h : Sound types typed W n) {operator : Operator}
    {left right : Expr} {leftType rightType ty : Ty} (hAnd : operator ≠ .and) (hOr : operator ≠ .or)
    (hOperator : operator.HasType leftType rightType ty) (hLeftType : left.HasType Γ leftType)
    (hRightType : right.HasType Γ rightType)
    (hLeft : Justified types typed W caller Φ Γ (.evaluate left) machine)
    (hRight : ∀ {Φ₁ machine₁}, Ready typed W caller Φ₁ Γ machine₁.store machine₁.env.current →
      Justified types typed W caller Φ₁ Γ (.evaluate right) machine₁) :
    (Exec.evaluate (n + 1) (.binary operator left right (some ty)) machine).Safe typed W.functions 1 Φ
      machine fun value _ _ => typed → (Expr.binary operator left right (some ty)).Fits value := by
  have hOrdered (hTyped : typed) : leftType ≠ .comparable :=
    hW.ty_ne hTyped hLeft.ready.sees (hLeft.ready.specific hTyped) left hLeftType
  rw [Exec.evaluate_binary hAnd hOr]
  refine Exec.safe_bind (h.evaluate hLeft) fun a Φ₁ machine₁ hLeaves₁ hFitsLeft => ?_
  have hReady₁ := hLeft.ready.of_leaves hLeaves₁
  refine Exec.safe_bind (h.evaluate (hRight hReady₁)) fun b Φ₂ machine₂ hLeaves₂ hFitsRight => ?_
  have hAdmitsLeft (hTyped : typed) := hLeftType.admits (hFitsLeft hTyped)
  have hAdmitsRight (hTyped : typed) := hRightType.admits (hFitsRight hTyped)
  refine Exec.safe_ofExcept hLeaves₂.conforms ?_ ?_
  · intro value hValue hTyped
    have hComputes := hOperator.computes (hOrdered hTyped) (hAdmitsLeft hTyped) (hAdmitsRight hTyped)
    cases hEvaluate : operator.evaluate a b with
    | error error =>
      rw [hEvaluate] at hValue
      cases hValue
    | ok result =>
      rw [hEvaluate] at hValue
      cases hValue
      exact ⟨ty, rfl, hComputes.evaluate_ok hEvaluate⟩
  · intro error hError
    cases hEvaluate : operator.evaluate a b with
    | error reason =>
      rw [hEvaluate] at hError
      cases hError
      exact Operator.tolerated_of_evaluate hOperator hOrdered hAdmitsLeft hAdmitsRight hEvaluate
    | ok result =>
      rw [hEvaluate] at hError
      cases hError

theorem evaluate_element (h : Sound types typed W n) {name : String} {index : Expr}
    {symbol : Variable} (hTyped : ¬typed) (hSymbol : Γ.symbol? name = some symbol)
    (hReady : Ready typed W caller Φ Γ machine.store machine.env.current)
    (hIndex : ∀ {Φ₁ machine₁}, Ready typed W caller Φ₁ Γ machine₁.store machine₁.env.current →
      Justified types typed W caller Φ₁ Γ (.evaluate index) machine₁) :
    (Exec.evaluate (n + 1) (.element name index (some symbol) (some symbol.ty)) machine).Safe typed
      W.functions 1 Φ machine fun value _ _ =>
        typed → (Expr.element name index (some symbol) (some symbol.ty)).Fits value := by
  refine Exec.safe_bind (hReady.safe_lookup hSymbol) fun list Φ₁ machine₁ hLeaves₁ _ => ?_
  have hReady₁ := hReady.of_leaves hLeaves₁
  refine Exec.safe_bind (h.evaluate (hIndex hReady₁)) fun i Φ₂ machine₂ hLeaves₂ _ => ?_
  refine Exec.safe_ofExcept hLeaves₂.conforms ?_ ?_
  · intro value _ hContra
    exact absurd hContra hTyped
  · intro error hError
    exact .of_untyped hTyped (Value.isNaming_of_item hError)

theorem evaluate_call (hW : W.Valid types typed) (h : Sound types typed W n) {name : String}
    {arguments : List Expr} {signature : Signature} {tys : List Ty}
    (hSignature : Γ.signature? name arguments.length = some signature)
    (hTypes : List.Forall₂ (Expr.HasType Γ) arguments tys)
    (hAccepted : List.Forall₂ (fun target source => target.accepts source = true)
      signature.parameterTypes tys)
    (hArguments : Justified types typed W caller Φ Γ (.evaluateAll arguments) machine) :
    (Exec.evaluate (n + 1) (.call name arguments (some signature) (some signature.returnType))
      machine).Safe typed W.functions 1 Φ machine fun value _ _ => typed →
        (Expr.call name arguments (some signature) (some signature.returnType)).Fits value := by
  obtain ⟨callable, hCallable, hServed⟩ := hW.served hArguments.ready.sees hSignature
  refine Exec.safe_bind (h.evaluateAll hArguments) ?_
  rintro values Φ₁ machine₁ hLeaves₁ ⟨hLength, hFits⟩
  have hCall := Ready.justified_call hW hSignature hTypes hAccepted hLength hFits
    (hArguments.ready.of_leaves hLeaves₁)
  rw [← hLength] at hCallable
  refine (h.call hCall).imp fun value Φ₂ machine₂ _ hValue hTyped => ?_
  exact ⟨_, rfl, hValue hTyped callable signature hCallable (hServed hTyped)⟩

theorem evaluate_of_hasType (hW : W.Valid types typed) (h : Sound types typed W n) {e : Expr}
    {ty : Ty} (hType : e.HasType Γ ty) (hFree : typed → e.isIndexFree = true)
    (hReady : Ready typed W caller Φ Γ machine.store machine.env.current) :
    (Exec.evaluate (n + 1) e machine).Safe typed W.functions 1 Φ machine
      fun value _ _ => typed → e.Fits value := by
  cases hType with
  | @literal value ty hValue =>
    exact Exec.safe_pure hReady.conforms fun _ => ⟨ty, rfl, hValue.admits⟩
  | @group inner ty hBinary hInner =>
    have hInnerFree (hTyped : typed) := Expr.isIndexFree_group.mp (hFree hTyped)
    refine (h.evaluate (.evaluate_typed hReady hInner hInnerFree)).imp ?_
    intro value Φ' machine' _ hFits hTyped
    exact ⟨ty, rfl, hInner.admits (hFits hTyped)⟩
  | @binary operator left right leftType rightType ty hLeft hRight hOperator =>
    have hParts (hTyped : typed) := Expr.isIndexFree_binary.mp (hFree hTyped)
    have hJustifiedLeft : Justified types typed W caller Φ Γ (.evaluate left) machine :=
      .evaluate_typed hReady hLeft fun hTyped => (hParts hTyped).1
    have hJustifiedRight {Φ₁ : StoreTyping} {machine₁ : Machine}
        (hReady₁ : Ready typed W caller Φ₁ Γ machine₁.store machine₁.env.current) :
        Justified types typed W caller Φ₁ Γ (.evaluate right) machine₁ :=
      .evaluate_typed hReady₁ hRight fun hTyped => (hParts hTyped).2
    by_cases hLogical : operator = .and ∨ operator = .or
    · exact h.evaluate_logical hLogical hOperator hJustifiedLeft hJustifiedRight
    · rw [not_or] at hLogical
      exact h.evaluate_strict hW hLogical.1 hLogical.2 hOperator hLeft hRight hJustifiedLeft
        hJustifiedRight
  | @access name symbol hSymbol =>
    refine (hReady.safe_lookup hSymbol).imp fun value Φ' machine' _ hAdmits hTyped => ?_
    exact ⟨symbol.ty, rfl, hAdmits hTyped⟩
  | @element name index symbol hIndex hSymbol =>
    have hUntyped (hTyped : typed) : False := by
      have hContra := hFree hTyped
      rw [Expr.not_isIndexFree_element] at hContra
      cases hContra
    refine h.evaluate_element hUntyped hSymbol hReady fun hReady₁ => ?_
    exact .evaluate_typed hReady₁ hIndex fun hTyped => (hUntyped hTyped).elim
  | @call name arguments signature tys hSignature hArguments hAccepted =>
    have hArgumentsFree (hTyped : typed) := Expr.isIndexFree_call.mp (hFree hTyped)
    exact h.evaluate_call hW hSignature hArguments hAccepted
      (.of_outside ⟨tys, hArguments, hArgumentsFree⟩ hReady rfl)
  | @list items tys hItems =>
    have hItemsFree (hTyped : typed) := Expr.isIndexFree_list.mp (hFree hTyped)
    refine Exec.safe_bind (h.evaluateAll (.of_outside ⟨tys, hItems, hItemsFree⟩ hReady rfl)) ?_
    intro values Φ₁ machine₁ hLeaves₁ _
    exact Exec.safe_pure hLeaves₁.conforms fun _ => ⟨.any, rfl, rfl⟩

theorem evaluate_succ (hW : W.Valid types typed) (h : Sound types typed W n) {e : Expr}
    (hJustified : Justified types typed W caller Φ Γ (.evaluate e) machine) :
    (Exec.evaluate (n + 1) e machine).Safe typed W.functions 1 Φ machine
      fun value _ _ => typed → e.Fits value := by
  obtain ⟨⟨ty, hType | ⟨hUntyped, hInitial⟩, hFree⟩, hReady, -⟩ := hJustified
  · exact h.evaluate_of_hasType hW hType hFree hReady
  · cases hInitial with
    | value hPlain hValue hAccepted => exact h.evaluate_of_hasType hW hValue hFree hReady
    | @items items tys hItems hAccepted =>
      refine Exec.safe_bind (h.evaluateAll (.of_outside ⟨tys, hItems, ?_⟩ hReady rfl)) ?_
      · exact fun hTyped => absurd hTyped hUntyped
      · intro values Φ₁ machine₁ hLeaves₁ _
        exact Exec.safe_pure hLeaves₁.conforms fun hTyped => absurd hTyped hUntyped

theorem evaluateAll_succ (h : Sound types typed W n) {es : List Expr}
    (hJustified : Justified types typed W caller Φ Γ (.evaluateAll es) machine) :
    (Exec.evaluateAll (n + 1) es machine).Safe typed W.functions 1 Φ machine
      fun values _ _ => values.length = es.length ∧ (typed → List.Forall₂ Expr.Fits es values) := by
  obtain ⟨⟨tys, hTypes, hFree⟩, hReady, -⟩ := hJustified
  cases hTypes with
  | nil => exact Exec.safe_pure hReady.conforms ⟨rfl, fun _ => .nil⟩
  | @cons e ty es tys hHead hTail =>
    have hHeadFree (hTyped : typed) := hFree hTyped e List.mem_cons_self
    have hTailFree (hTyped : typed) := fun e he => hFree hTyped e (List.mem_cons_of_mem _ he)
    refine Exec.safe_bind (h.evaluate (.evaluate_typed hReady hHead hHeadFree)) ?_
    intro value Φ₁ machine₁ hLeaves₁ hFits
    have hReady₁ := hReady.of_leaves hLeaves₁
    refine Exec.safe_bind (h.evaluateAll (.of_outside ⟨tys, hTail, hTailFree⟩ hReady₁ rfl)) ?_
    rintro values Φ₂ machine₂ hLeaves₂ ⟨hLength, hFitsTail⟩
    refine Exec.safe_pure hLeaves₂.conforms ⟨congrArg Nat.succ hLength, fun hTyped => ?_⟩
    exact .cons (hFits hTyped) (hFitsTail hTyped)

end Sound

end ProcLang
