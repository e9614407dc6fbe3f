import ProcLang.Proofs.Safety.Execution

/-! # Justified tasks go through justified tasks

One lemma for each kind of task says that what it goes through is justified as well. A call goes on
with the body of the function that it reaches.
-/

namespace ProcLang

set_option autoImplicit false

variable {types : TypeRegistry} {typed : Prop} {W : World} {caller : Option Function}
  {Φ : StoreTyping} {Γ : Context} {machine machine' : Machine} {n : Nat} {task : Task}

namespace Justified

theorem ready_of_evaluate (hW : W.Valid types typed) {e : Expr} {value : Value}
    (h : Justified types typed W caller Φ Γ (.evaluate e) machine)
    (hDone : Exec.evaluate n e machine = .done value machine') :
    ∃ Φ', Ready typed W caller Φ' Γ machine'.store machine'.env.current ∧
      machine'.env = machine.env ∧ (typed → e.Fits value) := by
  obtain ⟨Φ', hLeaves, hFits⟩ := ((sound hW n).evaluate h).of_done hDone
  exact ⟨Φ', h.ready.of_leaves hLeaves, hLeaves.env_eq, hFits⟩

theorem of_hasType (hW : W.Valid types typed) {e : Expr} {ty : Ty} (hType : e.HasType Γ ty)
    (hFree : typed → e.isIndexFree = true)
    (hReady : Ready typed W caller Φ Γ machine.store machine.env.current)
    (hEnters : Task.Enters n (.evaluate e) machine task machine') :
    ∃ Φ', Justified types typed W caller Φ' Γ task machine' := by
  cases hEnters with
  | group =>
    cases hType with
    | group hBinary hInner =>
      exact ⟨Φ, evaluate_typed hReady hInner fun hTyped => Expr.isIndexFree_group.mp (hFree hTyped)⟩
  | left =>
    cases hType with
    | binary hLeft hRight hOperator =>
      exact ⟨Φ, evaluate_typed hReady hLeft
        fun hTyped => (Expr.isIndexFree_binary.mp (hFree hTyped)).1⟩
  | right hDone hAnd hOr =>
    cases hType with
    | binary hLeft hRight hOperator =>
      have hParts (hTyped : typed) := Expr.isIndexFree_binary.mp (hFree hTyped)
      have hJustified : Justified types typed W caller Φ Γ _ machine :=
        evaluate_typed hReady hLeft fun hTyped => (hParts hTyped).1
      obtain ⟨Φ', hReady', -, -⟩ := hJustified.ready_of_evaluate hW hDone
      exact ⟨Φ', evaluate_typed hReady' hRight fun hTyped => (hParts hTyped).2⟩
  | access =>
    cases hType with
    | access hSymbol => exact ⟨Φ, .of_outside ⟨_, rfl, hSymbol⟩ hReady rfl⟩
  | element =>
    cases hType with
    | element hIndex hSymbol => exact ⟨Φ, .of_outside ⟨_, rfl, hSymbol⟩ hReady rfl⟩
  | index hList =>
    obtain rfl := Exec.lookup_machine hList
    cases hType with
    | element hIndex hSymbol =>
      refine ⟨Φ, evaluate_typed hReady hIndex fun hTyped => ?_⟩
      have hContra := hFree hTyped
      rw [Expr.not_isIndexFree_element] at hContra
      cases hContra
  | arguments =>
    cases hType with
    | call hSignature hArguments hAccepted =>
      have hArgumentsFree (hTyped : typed) := Expr.isIndexFree_call.mp (hFree hTyped)
      exact ⟨Φ, .of_outside ⟨_, hArguments, hArgumentsFree⟩ hReady rfl⟩
  | callee hDone =>
    cases hType with
    | call hSignature hArguments hAccepted =>
      have hFreeArguments (hTyped : typed) := Expr.isIndexFree_call.mp (hFree hTyped)
      have hJustified : Justified types typed W caller Φ Γ (.evaluateAll _) machine :=
        .of_outside ⟨_, hArguments, hFreeArguments⟩ hReady rfl
      obtain ⟨Φ', hLeaves, hLength, hFits⟩ := ((sound hW n).evaluateAll hJustified).of_done hDone
      exact ⟨Φ', Ready.justified_call hW hSignature hArguments hAccepted hLength hFits
        (hReady.of_leaves hLeaves)⟩
  | items =>
    cases hType with
    | list hItems =>
      have hItemsFree (hTyped : typed) := Expr.isIndexFree_list.mp (hFree hTyped)
      exact ⟨Φ, .of_outside ⟨_, hItems, hItemsFree⟩ hReady rfl⟩

theorem of_evaluate (hW : W.Valid types typed) {e : Expr}
    (h : Justified types typed W caller Φ Γ (.evaluate e) machine)
    (hEnters : Task.Enters n (.evaluate e) machine task machine') :
    ∃ Φ', Justified types typed W caller Φ' Γ task machine' := by
  obtain ⟨⟨ty, hType | ⟨hUntyped, hInitial⟩, hFree⟩, hReady, -⟩ := h
  · exact of_hasType hW hType hFree hReady hEnters
  · cases hInitial with
    | value hPlain hValue hAccepted => exact of_hasType hW hValue hFree hReady hEnters
    | items hItems hAccepted =>
      cases hEnters with
      | items => exact ⟨Φ, .of_outside ⟨_, hItems, fun hTyped => absurd hTyped hUntyped⟩ hReady rfl⟩

theorem of_evaluateAll (hW : W.Valid types typed) {es : List Expr}
    (h : Justified types typed W caller Φ Γ (.evaluateAll es) machine)
    (hEnters : Task.Enters n (.evaluateAll es) machine task machine') :
    ∃ Φ', Justified types typed W caller Φ' Γ task machine' := by
  obtain ⟨⟨tys, hTypes, hFree⟩, hReady, -⟩ := h
  cases hEnters with
  | head =>
    cases hTypes with
    | cons hHead hTail =>
      exact ⟨Φ, evaluate_typed hReady hHead fun hTyped => hFree hTyped _ List.mem_cons_self⟩
  | @tail e es _ value _ hDone =>
    cases hTypes with
    | cons hHead hTail =>
      have hJustified : Justified types typed W caller Φ Γ (.evaluate e) machine :=
        evaluate_typed hReady hHead fun hTyped => hFree hTyped _ List.mem_cons_self
      obtain ⟨Φ', hReady', -, -⟩ := hJustified.ready_of_evaluate hW hDone
      refine ⟨Φ', .of_outside ⟨_, hTail, ?_⟩ hReady' rfl⟩
      exact fun hTyped e he => hFree hTyped e (List.mem_cons_of_mem _ he)

theorem of_assignment (hW : W.Valid types typed) {receiver value : Expr} {receiverType valueType : Ty}
    (hType : receiver.HasType Γ receiverType) (hValue : value.HasType Γ valueType)
    (hMutable : ∀ symbol, receiver.receiverSymbol? = some symbol → symbol.isMutable = true)
    (hAccepted : receiverType.accepts valueType = true)
    (hReceiverFree : typed → receiver.isIndexFree = true)
    (hFree : typed → value.isIndexFree = true)
    (hReady : Ready typed W caller Φ Γ machine.store machine.env.current)
    (hEnters : Task.Enters n (.execute (.assignment receiver value)) machine task machine') :
    ∃ Φ', Justified types typed W caller Φ' Γ task machine' := by
  have hValueJustified {Φ₁ : StoreTyping} {machine₁ : Machine}
      (hReady₁ : Ready typed W caller Φ₁ Γ machine₁.store machine₁.env.current) :
      Justified types typed W caller Φ₁ Γ (.evaluate value) machine₁ :=
    evaluate_typed hReady₁ hValue hFree
  cases hType with
  | access hSymbol =>
    cases hEnters with
    | assigned => exact ⟨Φ, hValueJustified hReady⟩
    | assign hDone =>
      obtain ⟨Φ', hReady', -, hFits⟩ := (hValueJustified hReady).ready_of_evaluate hW hDone
      refine ⟨Φ', .of_outside ⟨_, rfl, hSymbol, hMutable _ rfl, fun hTyped => ?_⟩ hReady' rfl⟩
      exact Ty.admits_of_accepts hAccepted (hValue.admits (hFits hTyped))
  | element hIndex hSymbol =>
    have hUntyped (hTyped : typed) : False := by
      have hContra := hReceiverFree hTyped
      rw [Expr.not_isIndexFree_element] at hContra
      cases hContra
    have hIndexJustified {Φ₁ : StoreTyping} {machine₁ : Machine}
        (hReady₁ : Ready typed W caller Φ₁ Γ machine₁.store machine₁.env.current) :
        Justified types typed W caller Φ₁ Γ (.evaluate _) machine₁ :=
      evaluate_typed hReady₁ hIndex fun hTyped => (hUntyped hTyped).elim
    cases hEnters with
    | oldList => exact ⟨Φ, .of_outside ⟨_, rfl, hSymbol⟩ hReady rfl⟩
    | itemIndex hList =>
      obtain rfl := Exec.lookup_machine hList
      exact ⟨Φ, hIndexJustified hReady⟩
    | newItem hList hDone hPosition =>
      obtain rfl := Exec.lookup_machine hList
      obtain ⟨Φ', hReady', -, -⟩ := (hIndexJustified hReady).ready_of_evaluate hW hDone
      exact ⟨Φ', hValueJustified hReady'⟩
    | newList hList hDone hPosition hDone' =>
      obtain rfl := Exec.lookup_machine hList
      obtain ⟨Φ₁, hReady₁, -, -⟩ := (hIndexJustified hReady).ready_of_evaluate hW hDone
      obtain ⟨Φ₂, hReady₂, -, -⟩ := (hValueJustified hReady₁).ready_of_evaluate hW hDone'
      refine ⟨Φ₂, .of_outside ⟨_, rfl, hSymbol, hMutable _ rfl, ?_⟩ hReady₂ rfl⟩
      exact fun hTyped => (hUntyped hTyped).elim
  | literal | group | binary | call | list => cases hEnters

theorem of_execute (hW : W.Valid types typed) {s : Stmt}
    (h : Justified types typed W caller Φ Γ (.execute s) machine)
    (hEnters : Task.Enters n (.execute s) machine task machine') :
    ∃ Φ', Justified types typed W caller Φ' Γ task machine' := by
  obtain ⟨⟨Γ', hWellTyped, hTame⟩, hReady, hInside⟩ := h
  have hFree {e : Expr} (he : e ∈ s.expressions) (hTyped : typed) : e.isIndexFree = true :=
    Stmt.isIndexFree_of_tame (hTame hTyped) he
  cases hWellTyped with
  | expression hCall hExpr =>
    cases hEnters with
    | expression => exact ⟨Φ, evaluate_typed hReady hExpr (hFree List.mem_cons_self)⟩
  | declaration hBinding =>
    cases hEnters with
    | @initialValue name typeName value symbol machine =>
      have hPlain (hTyped : typed) : value.isList = false := by
        have hValue := Stmt.of_every (hTame hTyped)
        simp [Stmt.isTame, Stmt.isPlain] at hValue
        exact hValue.2
      obtain ⟨⟨found, hJudged⟩, -⟩ := hBinding.judged hPlain
      exact ⟨Φ, .of_outside ⟨found, hJudged, hFree List.mem_cons_self⟩ hReady rfl⟩
  | assignment hReceiver hType hValue hMutable hAccepted =>
    exact of_assignment hW hType hValue hMutable hAccepted (hFree List.mem_cons_self)
      (hFree (List.mem_cons_of_mem _ List.mem_cons_self)) hReady hEnters
  | @conditional _ condition consequent alternative hCondition hNonempty hConsequent hAlternative =>
    have hJustified : Justified types typed W caller Φ Γ (.evaluate condition) machine :=
      evaluate_typed hReady hCondition (hFree List.mem_cons_self)
    cases hEnters with
    | condition => exact ⟨Φ, hJustified⟩
    | branch hDone =>
      obtain ⟨Φ', hReady', -, -⟩ := hJustified.ready_of_evaluate hW hDone
      have hBlocks (hTyped : typed) := hTame hTyped
      simp only [Stmt.every, Bool.and_eq_true] at hBlocks
      refine ⟨Φ', ?_⟩
      split
      · exact hReady'.justified_scope hConsequent fun hTyped => (hBlocks hTyped).1.2
      · exact hReady'.justified_scope hAlternative fun hTyped => (hBlocks hTyped).2
  | @switch _ subject cases ty hSubject hDefault hCases =>
    have hJustified : Justified types typed W caller Φ Γ (.evaluate subject) machine :=
      evaluate_typed hReady hSubject (hFree List.mem_cons_self)
    cases hEnters with
    | subject => exact ⟨Φ, hJustified⟩
    | cases hDone =>
      obtain ⟨Φ', hReady', hEnv, -⟩ := hJustified.ready_of_evaluate hW hDone
      exact ⟨Φ', hReady'.justified_cases hCases hTame (hEnv ▸ hInside rfl)⟩
  | loop hCondition hBody =>
    cases hEnters with
    | loop => exact ⟨Φ, hReady.justified_loop hCondition hBody hTame (hInside rfl)⟩
  | returns hValue hAccepted =>
    cases hEnters with
    | returned => exact ⟨Φ, evaluate_typed hReady hValue (hFree List.mem_cons_self)⟩

/-- Only here the context may change: a declaration is followed by statements that know it. -/
theorem of_executeBlock (hW : W.Valid types typed) {statements : List Stmt}
    (h : Justified types typed W caller Φ Γ (.executeBlock statements) machine)
    (hEnters : Task.Enters n (.executeBlock statements) machine task machine') :
    ∃ Φ' Γ', Justified types typed W caller Φ' Γ' task machine' := by
  obtain ⟨⟨hBlock, hTame⟩, hReady, hInside⟩ := h
  cases hBlock with
  | nil => cases hEnters
  | @cons _ Γ' s rest hStatement hRest =>
    have hParts (hTyped : typed) := hTame hTyped
    simp only [Stmt.everyIn, Bool.and_eq_true] at hParts
    have hJustified : Justified types typed W caller Φ Γ (.execute s) machine :=
      ⟨⟨Γ', hStatement, fun hTyped => (hParts hTyped).1⟩, hReady, hInside⟩
    cases hEnters with
    | statement => exact ⟨Φ, Γ, hJustified⟩
    | rest hDone =>
      obtain ⟨Φ', hLeaves, hSettled⟩ := ((sound hW n).execute hStatement hJustified).of_done hDone
      exact ⟨Φ', Γ', ⟨hRest, fun hTyped => (hParts hTyped).2⟩, hSettled.ready rfl,
        fun _ => hLeaves.env_eq ▸ hInside rfl⟩

theorem of_executeCases (hW : W.Valid types typed) {subject : Value} {default? : Option (List Stmt)}
    {cases : List Case}
    (h : Justified types typed W caller Φ Γ (.executeCases subject default? cases) machine)
    (hEnters : Task.Enters n (.executeCases subject default? cases) machine task machine') :
    ∃ Φ', Justified types typed W caller Φ' Γ task machine' := by
  obtain ⟨⟨⟨ty, hCases⟩, hTame, hDefault⟩, hReady, hInside⟩ := h
  cases hCases with
  | nil =>
    cases hEnters with
    | defaultCase =>
      obtain ⟨hBody, hBodyTame⟩ := hDefault _ rfl
      exact ⟨Φ, hReady.justified_scope hBody hBodyTame⟩
  | default hBody hRest =>
    cases hEnters with
    | pastDefault =>
      exact ⟨Φ, ⟨⟨ty, hRest⟩, fun hTyped => (hTame hTyped).tail, hDefault⟩, hReady, hInside⟩
  | @value _ _ value valueType body rest hValue hAccepted hBody hRest =>
    have hJustified : Justified types typed W caller Φ Γ (.evaluate value) machine :=
      evaluate_typed hReady hValue fun hTyped => (hTame hTyped).value
    cases hEnters with
    | caseValue => exact ⟨Φ, hJustified⟩
    | caseBody hDone hEqual =>
      obtain ⟨Φ', hReady', -, -⟩ := hJustified.ready_of_evaluate hW hDone
      exact ⟨Φ', hReady'.justified_scope hBody fun hTyped => (hTame hTyped).body⟩
    | pastCase hDone hUnequal =>
      obtain ⟨Φ', hReady', hEnv, -⟩ := hJustified.ready_of_evaluate hW hDone
      exact ⟨Φ', ⟨⟨ty, hRest⟩, fun hTyped => (hTame hTyped).tail, hDefault⟩, hReady',
        fun _ => hEnv ▸ hInside rfl⟩

theorem of_executeLoop (hW : W.Valid types typed) {condition : Expr} {body : List Stmt}
    (h : Justified types typed W caller Φ Γ (.executeLoop condition body) machine)
    (hEnters : Task.Enters n (.executeLoop condition body) machine task machine') :
    ∃ Φ', Justified types typed W caller Φ' Γ task machine' := by
  obtain ⟨⟨hCondition, hBody, hTame⟩, hReady, hInside⟩ := h
  have hJustified : Justified types typed W caller Φ Γ (.evaluate condition) machine :=
    evaluate_typed hReady hCondition fun hTyped => (hTame hTyped).1
  cases hEnters with
  | loopCondition => exact ⟨Φ, hJustified⟩
  | round hDone =>
    obtain ⟨Φ', hReady', -, -⟩ := hJustified.ready_of_evaluate hW hDone
    exact ⟨Φ', hReady'.justified_scope hBody fun hTyped => (hTame hTyped).2⟩
  | again hDone hRound =>
    obtain ⟨Φ₁, hReady₁, hEnv₁, -⟩ := hJustified.ready_of_evaluate hW hDone
    have hScoped := (sound hW n).scopedBlock hReady₁ hBody fun hTyped => (hTame hTyped).2
    obtain ⟨Φ₂, hLeaves₂, -⟩ := hScoped.of_done hRound
    exact ⟨Φ₂, ⟨hCondition, hBody, hTame⟩, hReady₁.of_leaves hLeaves₂,
      fun _ => hLeaves₂.env_eq.trans hEnv₁ ▸ hInside rfl⟩

/-- What a justified task goes through is justified. -/
theorem of_enters (hW : W.Valid types typed) (h : Justified types typed W caller Φ Γ task machine)
    {task' : Task} (hEnters : Task.Enters n task machine task' machine') :
    ∃ Φ' Γ', Justified types typed W caller Φ' Γ' task' machine' := by
  cases task with
  | evaluate e =>
    obtain ⟨Φ', hJustified⟩ := h.of_evaluate hW hEnters
    exact ⟨Φ', Γ, hJustified⟩
  | evaluateAll es =>
    obtain ⟨Φ', hJustified⟩ := h.of_evaluateAll hW hEnters
    exact ⟨Φ', Γ, hJustified⟩
  | execute s =>
    obtain ⟨Φ', hJustified⟩ := h.of_execute hW hEnters
    exact ⟨Φ', Γ, hJustified⟩
  | executeBlock statements => exact h.of_executeBlock hW hEnters
  | executeCases subject default? cases =>
    obtain ⟨Φ', hJustified⟩ := h.of_executeCases hW hEnters
    exact ⟨Φ', Γ, hJustified⟩
  | executeLoop condition body =>
    obtain ⟨Φ', hJustified⟩ := h.of_executeLoop hW hEnters
    exact ⟨Φ', Γ, hJustified⟩
  | read | write | call => cases hEnters

theorem of_call (hW : W.Valid types typed) {name : String} {slot : Option Signature}
    {arguments : List Value}
    (h : Justified types typed W caller Φ Γ (.call name slot arguments) machine)
    {function : Function} {closure : ScopeId}
    (hFunction : Exec.lookupFunction name arguments.length machine =
      .done (.user function closure) machine') :
    ∃ Φ' Γ', Justified types typed W (some function) Φ' Γ' (.executeBlock function.body)
      (machine'.enterFrame closure (function.parameters.zip arguments)) := by
  obtain ⟨⟨-, callable, hCallable, hAdmits⟩, hReady, -⟩ := h
  cases (hReady.lookupFunction_eq hCallable).symm.trans hFunction
  obtain ⟨rfl, Γ', signature, hMem, hHolds, hArguments, hFit⟩ := hW.callee hCallable hAdmits
  obtain ⟨Φ', hBody, -⟩ := Sound.justified_body hW hMem hHolds hReady hArguments hFit
  exact ⟨Φ', _, hBody⟩

end Justified

end ProcLang
