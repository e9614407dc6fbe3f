import ProcLang.Proofs.Safety.Assignment
import ProcLang.Proofs.Safety.Call

/-! # Soundness of execution

Statements are safe if what they go through is. Only declarations change the context of what
follows; blocks inside a statement run in scopes of their own.
-/

namespace ProcLang

set_option autoImplicit false

variable {types : TypeRegistry} {typed : Prop} {W : World} {caller : Option Function}
  {Φ : StoreTyping} {Γ : Context} {machine : Machine} {n : Nat}

namespace Stmt

theorem isIndexFree_of_tame {s : Stmt} (h : s.every isTame = true) {e : Expr}
    (he : e ∈ s.expressions) : e.isIndexFree = true := by
  have hTame := of_every h
  simp only [isTame, Bool.and_eq_true] at hTame
  exact List.all_eq_true.mp hTame.1.1.1 e he

end Stmt

namespace Cases

variable {value? : Option Expr} {statements : List Stmt} {cases : List Case}

theorem Tame.body (h : Tame (⟨value?, statements⟩ :: cases)) :
    Stmt.everyIn Stmt.isTame statements = true := by
  have hBodies := h.bodies
  simp only [Stmt.everyInCases, Bool.and_eq_true] at hBodies
  exact hBodies.1

theorem Tame.tail (h : Tame (⟨value?, statements⟩ :: cases)) : Tame cases where
  bodies := by
    have hBodies := h.bodies
    simp only [Stmt.everyInCases, Bool.and_eq_true] at hBodies
    exact hBodies.2
  values found hFound := by
    refine h.values found ?_
    obtain ⟨case, hCase, hValue⟩ := List.mem_filterMap.mp hFound
    exact List.mem_filterMap.mpr ⟨case, List.mem_cons_of_mem _ hCase, hValue⟩

theorem Tame.value {value : Expr} (h : Tame (⟨some value, statements⟩ :: cases)) :
    value.isIndexFree = true :=
  h.values value (List.mem_filterMap.mpr ⟨_, List.mem_cons_self, rfl⟩)

theorem WellTyped.defaultBody {ty : Ty} (h : WellTyped types Γ ty cases)
    (hTame : typed → Tame cases) {default : List Stmt}
    (hDefault : defaultBody? cases = some default) :
    Block.WellTyped types Γ default ∧ (typed → Stmt.everyIn Stmt.isTame default = true) := by
  induction cases with
  | nil => cases hDefault
  | cons case cases ih =>
    cases h with
    | default hBody hRest =>
      cases hDefault
      exact ⟨hBody, fun hTyped => (hTame hTyped).body⟩
    | value hValue hAccepted hBody hRest =>
      exact ih hRest (fun hTyped => (hTame hTyped).tail) hDefault

end Cases

theorem Ready.justified_scope (h : Ready typed W caller Φ Γ machine.store machine.env.current)
    {statements : List Stmt} (hBlock : Block.WellTyped types Γ statements)
    (hTame : typed → Stmt.everyIn Stmt.isTame statements = true) :
    Justified types typed W caller Φ Γ (.executeBlock statements) machine.pushScope :=
  ⟨⟨hBlock, hTame⟩, h.enterScope, fun _ => Nat.zero_lt_of_lt h.current_lt⟩

theorem Ready.justified_cases (h : Ready typed W caller Φ Γ machine.store machine.env.current)
    {subject : Expr} {value : Value} {cases : List Case} {ty : Ty}
    (hCases : Cases.WellTyped types Γ ty cases)
    (hTame : typed → (Stmt.switch subject cases).every Stmt.isTame = true)
    (hInside : 0 < machine.env.current) :
    Justified types typed W caller Φ Γ (.executeCases value (defaultBody? cases) cases) machine := by
  have hCasesTame (hTyped : typed) : Cases.Tame cases := by
    have hAll := hTame hTyped
    simp only [Stmt.every, Bool.and_eq_true] at hAll
    exact ⟨hAll.2, fun found hFound =>
      Stmt.isIndexFree_of_tame (hTame hTyped) (List.mem_cons_of_mem _ hFound)⟩
  exact ⟨⟨⟨ty, hCases⟩, hCasesTame, fun body hBody => hCases.defaultBody hCasesTame hBody⟩, h,
    fun _ => hInside⟩

theorem Ready.justified_loop (h : Ready typed W caller Φ Γ machine.store machine.env.current)
    {condition : Expr} {body : List Stmt} (hCondition : condition.HasType Γ .boolean)
    (hBody : Block.WellTyped types Γ body)
    (hTame : typed → (Stmt.loop condition body).every Stmt.isTame = true)
    (hInside : 0 < machine.env.current) :
    Justified types typed W caller Φ Γ (.executeLoop condition body) machine := by
  refine ⟨⟨hCondition, hBody, fun hTyped => ⟨?_, ?_⟩⟩, h, fun _ => hInside⟩
  · exact Stmt.isIndexFree_of_tame (hTame hTyped) List.mem_cons_self
  · have hAll := hTame hTyped
    simp only [Stmt.every, Bool.and_eq_true] at hAll
    exact hAll.2

theorem Exec.safe_condition {value : Value}
    (hConforms : machine.store.Conforms typed W.functions Φ)
    (hAdmits : typed → Ty.boolean.admits value.tag = true) :
    (ofExcept value.condition machine).Safe typed W.functions 1 Φ machine fun _ _ _ => True := by
  refine safe_ofExcept hConforms (fun _ _ => trivial) ?_
  intro error hError
  refine ⟨?_, fun hTyped => ?_⟩
  · cases value <;> cases hError <;> rfl
  · obtain ⟨b, rfl⟩ := Value.eq_boolean_of_admits (hAdmits hTyped)
    cases hError

namespace Sound

theorem scopedBlock (h : Sound types typed W n) {statements : List Stmt}
    (hReady : Ready typed W caller Φ Γ machine.store machine.env.current)
    (hBlock : Block.WellTyped types Γ statements)
    (hTame : typed → Stmt.everyIn Stmt.isTame statements = true) :
    (Exec.inScope (Exec.executeBlock n statements) machine).Safe typed W.functions 1 Φ machine
      fun completion _ _ => completion.Kept typed Γ :=
  Exec.safe_inScope hReady (h.executeBlock (hReady.justified_scope hBlock hTame))

/-- A condition is evaluated to a truth value before anything else happens. -/
theorem safe_branch (h : Sound types typed W n) {condition : Expr} {next : Bool → Exec Completion}
    (hReady : Ready typed W caller Φ Γ machine.store machine.env.current)
    (hCondition : condition.HasType Γ .boolean) (hFree : typed → condition.isIndexFree = true)
    (hNext : ∀ b Φ₁ machine₁, Ready typed W caller Φ₁ Γ machine₁.store machine₁.env.current →
      machine₁.env = machine.env →
      (next b machine₁).Safe typed W.functions 1 Φ₁ machine₁
        fun completion _ _ => completion.Kept typed Γ) :
    ((do next (← Exec.ofExcept (← Exec.evaluate n condition).condition) : Exec Completion)
      machine).Safe typed W.functions 1 Φ machine fun completion _ _ => completion.Kept typed Γ := by
  refine Exec.safe_bind (h.evaluate (.evaluate_typed hReady hCondition hFree)) ?_
  intro value Φ₁ machine₁ hLeaves₁ hFits
  have hReady₁ := hReady.of_leaves hLeaves₁
  refine Exec.safe_bind (Exec.safe_condition hLeaves₁.conforms fun hTyped =>
    hCondition.admits (hFits hTyped)) ?_
  intro b Φ₂ machine₂ hLeaves₂ _
  exact hNext b Φ₂ machine₂ (hReady₁.of_leaves hLeaves₂)
    (hLeaves₂.env_eq.trans hLeaves₁.env_eq)

theorem execute_succ (hW : W.Valid types typed) (h : Sound types typed W n) {Γ' : Context} {s : Stmt}
    (hWellTyped : Stmt.WellTyped types Γ s Γ')
    (hJustified : Justified types typed W caller Φ Γ (.execute s) machine) :
    (Exec.execute (n + 1) s machine).Safe typed W.functions 0 Φ machine
      (Completion.Settled typed W caller Γ Γ') := by
  obtain ⟨⟨_, _, hTame⟩, hReady, hInside⟩ := hJustified
  have hFree {e : Expr} (he : e ∈ s.expressions) (hTyped : typed) : e.isIndexFree = true :=
    Stmt.isIndexFree_of_tame (hTame hTyped) he
  cases hWellTyped with
  | @expression _ e ty hCall hExpr =>
    refine Outcome.Safe.settled hReady ?_
    have hExprFree : typed → e.isIndexFree = true := hFree List.mem_cons_self
    refine Exec.safe_bind (h.evaluate (.evaluate_typed hReady hExpr hExprFree)) ?_
    intro value Φ₁ machine₁ hLeaves₁ _
    exact Exec.safe_pure hLeaves₁.conforms Completion.kept_normal
  | declaration hBinding =>
    exact h.execute_declaration hW hBinding (fun hTyped => Stmt.of_every (hTame hTyped)) hReady
      (hInside rfl)
  | assignment hReceiver hType hValue hMutable hAccepted =>
    refine Outcome.Safe.settled hReady ?_
    have hValueFree := hFree (List.mem_cons_of_mem _ List.mem_cons_self)
    have hReceiverFree := hFree List.mem_cons_self
    cases hType with
    | access hSymbol =>
      exact h.assign_variable hReady hSymbol (hMutable _ rfl) hValue hValueFree hAccepted
    | element hIndex hSymbol =>
      have hUntyped (hTyped : typed) : False := by
        have hContra := hReceiverFree hTyped
        rw [Expr.not_isIndexFree_element] at hContra
        cases hContra
      exact h.assign_element hUntyped hReady hSymbol (hMutable _ rfl) hIndex hValue
    | literal | group | binary | call | list => cases hReceiver
  | @conditional _ condition consequent alternative hCondition hNonempty hConsequent hAlternative =>
    refine Outcome.Safe.settled hReady ?_
    refine h.safe_branch hReady hCondition (hFree List.mem_cons_self) ?_
    intro b Φ₁ machine₁ hReady₁ _
    have hBlocks (hTyped : typed) := hTame hTyped
    simp only [Stmt.every, Bool.and_eq_true] at hBlocks
    split
    · exact h.scopedBlock hReady₁ hConsequent fun hTyped => (hBlocks hTyped).1.2
    · exact h.scopedBlock hReady₁ hAlternative fun hTyped => (hBlocks hTyped).2
  | @switch _ subject cases ty hSubject hDefault hCases =>
    refine Outcome.Safe.settled hReady ?_
    refine Exec.safe_bind (h.evaluate (.evaluate_typed hReady hSubject (hFree List.mem_cons_self))) ?_
    intro value Φ₁ machine₁ hLeaves₁ _
    refine h.executeCases ((hReady.of_leaves hLeaves₁).justified_cases hCases hTame ?_)
    exact hLeaves₁.env_eq ▸ hInside rfl
  | @loop _ condition body hCondition hBody =>
    refine Outcome.Safe.settled hReady ?_
    exact h.executeLoop (hReady.justified_loop hCondition hBody hTame (hInside rfl))
  | @returns _ value ty hValue hAccepted =>
    refine Outcome.Safe.settled hReady ?_
    refine Exec.safe_bind (h.evaluate (.evaluate_typed hReady hValue (hFree List.mem_cons_self))) ?_
    intro result Φ₁ machine₁ hLeaves₁ hFits
    refine Exec.safe_pure hLeaves₁.conforms ?_
    rintro _ ⟨⟩ hTyped
    exact Ty.admits_of_accepts hAccepted (hValue.admits (hFits hTyped))

theorem executeBlock_succ (h : Sound types typed W n) {statements : List Stmt}
    (hJustified : Justified types typed W caller Φ Γ (.executeBlock statements) machine) :
    (Exec.executeBlock (n + 1) statements machine).Safe typed W.functions 0 Φ machine
      fun completion _ _ => completion.Kept typed Γ := by
  obtain ⟨⟨hBlock, hTame⟩, hReady, hInside⟩ := hJustified
  cases hBlock with
  | nil => exact Exec.safe_pure hReady.conforms Completion.kept_normal
  | @cons _ Γ' s rest hStatement hRest =>
    have hParts (hTyped : typed) := hTame hTyped
    simp only [Stmt.everyIn, Bool.and_eq_true] at hParts
    have hExecute := h.execute hStatement
      ⟨⟨Γ', hStatement, fun hTyped => (hParts hTyped).1⟩, hReady, hInside⟩
    refine Exec.safe_bind hExecute ?_
    rintro (_ | value) Φ₁ machine₁ hLeaves₁ hSettled
    · have hNext := h.executeBlock ⟨⟨hRest, fun hTyped => (hParts hTyped).2⟩, hSettled.ready rfl,
        fun _ => hLeaves₁.env_eq ▸ hInside rfl⟩
      refine hNext.imp fun completion Φ₂ machine₂ _ hKept value hReturned hTyped => ?_
      exact hStatement.returnType_eq ▸ hKept value hReturned hTyped
    · exact Exec.safe_pure hLeaves₁.conforms hSettled.kept

theorem executeCases_succ (h : Sound types typed W n) {subject : Value}
    {default? : Option (List Stmt)} {cases : List Case}
    (hJustified : Justified types typed W caller Φ Γ (.executeCases subject default? cases) machine) :
    (Exec.executeCases (n + 1) subject default? cases machine).Safe typed W.functions 1 Φ machine
      fun completion _ _ => completion.Kept typed Γ := by
  obtain ⟨⟨⟨ty, hCases⟩, hTame, hDefault⟩, hReady, hInside⟩ := hJustified
  cases hCases with
  | nil =>
    cases default? with
    | none => exact Exec.safe_pure hReady.conforms Completion.kept_normal
    | some body =>
      obtain ⟨hBody, hBodyTame⟩ := hDefault body rfl
      exact h.scopedBlock hReady hBody hBodyTame
  | @default _ _ body rest hBody hRest =>
    have hRestTame (hTyped : typed) := (hTame hTyped).tail
    exact h.executeCases ⟨⟨⟨ty, hRest⟩, hRestTame, hDefault⟩, hReady, hInside⟩
  | @value _ _ value valueType body rest hValue hAccepted hBody hRest =>
    have hFree (hTyped : typed) := (hTame hTyped).value
    have hRestTame (hTyped : typed) := (hTame hTyped).tail
    refine Exec.safe_bind (h.evaluate (.evaluate_typed hReady hValue hFree)) ?_
    intro result Φ₁ machine₁ hLeaves₁ _
    have hReady₁ := hReady.of_leaves hLeaves₁
    split
    · exact h.scopedBlock hReady₁ hBody fun hTyped => (hTame hTyped).body
    · exact h.executeCases ⟨⟨⟨ty, hRest⟩, hRestTame, hDefault⟩, hReady₁,
        fun _ => hLeaves₁.env_eq ▸ hInside rfl⟩

theorem executeLoop_succ (h : Sound types typed W n) {condition : Expr} {body : List Stmt}
    (hJustified : Justified types typed W caller Φ Γ (.executeLoop condition body) machine) :
    (Exec.executeLoop (n + 1) condition body machine).Safe typed W.functions 1 Φ machine
      fun completion _ _ => completion.Kept typed Γ := by
  obtain ⟨⟨hCondition, hBody, hTame⟩, hReady, hInside⟩ := hJustified
  refine h.safe_branch hReady hCondition (fun hTyped => (hTame hTyped).1) ?_
  intro b Φ₁ machine₁ hReady₁ hEnv₁
  split
  · refine Exec.safe_bind (h.scopedBlock hReady₁ hBody fun hTyped => (hTame hTyped).2) ?_
    rintro (_ | value) Φ₂ machine₂ hLeaves₂ hKept
    · exact h.executeLoop ⟨⟨hCondition, hBody, hTame⟩, hReady₁.of_leaves hLeaves₂,
        fun _ => hLeaves₂.env_eq.trans hEnv₁ ▸ hInside rfl⟩
    · exact Exec.safe_pure hLeaves₂.conforms hKept
  · exact Exec.safe_pure hReady₁.conforms Completion.kept_normal

end Sound

/-- Whatever number of steps is allowed, justified tasks are safe. -/
theorem sound (hW : W.Valid types typed) (n : Nat) : Sound types typed W n := by
  induction n with
  | zero => constructor <;> intros <;> trivial
  | succ n ih =>
    exact {
      evaluate := ih.evaluate_succ hW
      evaluateAll := ih.evaluateAll_succ
      call := ih.call_succ hW
      execute := ih.execute_succ hW
      executeBlock := ih.executeBlock_succ
      executeCases := ih.executeCases_succ
      executeLoop := ih.executeLoop_succ }

end ProcLang
