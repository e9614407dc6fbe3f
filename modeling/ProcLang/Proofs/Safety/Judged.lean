import ProcLang.Proofs.Machine.Task
import ProcLang.Proofs.Safety.Outcome

/-! # Justified tasks

A task is justified where the rules allow it and the machine is ready for it. The evaluator is sound
if what a justified task ends with is safe: values that fit, and no error but tolerated ones.
-/

namespace ProcLang

set_option autoImplicit false

/-- A value of the type that stands in the slot of an expression. -/
def Expr.Fits (e : Expr) (value : Value) : Prop :=
  ∃ ty, e.ty = some ty ∧ ty.admits value.tag = true

theorem Expr.HasType.admits {Γ : Context} {e : Expr} {ty : Ty} {value : Value} (h : e.HasType Γ ty)
    (hFits : e.Fits value) : ty.admits value.tag = true := by
  obtain ⟨found, hFound, hAdmits⟩ := hFits
  rw [h.ty_eq] at hFound
  cases hFound
  exact hAdmits

structure Cases.Tame (cases : List Case) : Prop where
  bodies : Stmt.everyInCases Stmt.isTame cases = true
  values : ∀ value ∈ cases.filterMap Case.value, value.isIndexFree = true

namespace Task

/-- The statements of a function's body, which never run in the global scope. -/
def isInside : Task → Bool
  | execute _ | executeBlock _ | executeCases .. | executeLoop .. => true
  | _ => false

/-- Lists of declared types are left out as soon as types count. -/
def Judged (types : TypeRegistry) (typed : Prop) (W : World) (Γ : Context) : Task → Prop
  | evaluate e => ∃ ty, (e.HasType Γ ty ∨ ¬typed ∧ e.Initializes Γ ty) ∧
      (typed → e.isIndexFree = true)
  | evaluateAll es => ∃ tys, List.Forall₂ (Expr.HasType Γ) es tys ∧
      (typed → ∀ e ∈ es, e.isIndexFree = true)
  | read name slot => ∃ symbol, slot = some symbol ∧ Γ.symbol? name = some symbol
  | write name slot value => ∃ symbol, slot = some symbol ∧ Γ.symbol? name = some symbol ∧
      symbol.isMutable = true ∧ (typed → symbol.ty.admits value.tag = true)
  | call name slot arguments => (∀ signature, slot = some signature →
        Γ.signature? name arguments.length = some signature) ∧
      ∃ callable, callable? W.functions name arguments.length = some callable ∧
        (typed → ∃ signature, callable.signature? = some signature ∧
          List.Forall₂ (fun ty value => ty.admits value.tag = true) signature.parameterTypes arguments)
  | execute s => ∃ Γ', Stmt.WellTyped types Γ s Γ' ∧ (typed → s.every Stmt.isTame = true)
  | executeBlock statements => Block.WellTyped types Γ statements ∧
      (typed → Stmt.everyIn Stmt.isTame statements = true)
  | executeCases _ default? cases => (∃ ty, Cases.WellTyped types Γ ty cases) ∧
      (typed → Cases.Tame cases) ∧
      ∀ body, default? = some body → Block.WellTyped types Γ body ∧
        (typed → Stmt.everyIn Stmt.isTame body = true)
  | executeLoop condition body => condition.HasType Γ .boolean ∧ Block.WellTyped types Γ body ∧
      (typed → condition.isIndexFree = true ∧ Stmt.everyIn Stmt.isTame body = true)

end Task

structure Justified (types : TypeRegistry) (typed : Prop) (W : World) (caller : Option Function)
    (Φ : StoreTyping) (Γ : Context) (task : Task) (machine : Machine) : Prop where
  judged : task.Judged types typed W Γ
  ready : Ready typed W caller Φ Γ machine.store machine.env.current
  isInside : task.isInside = true → 0 < machine.env.current

namespace Justified

variable {types : TypeRegistry} {typed : Prop} {W : World} {caller : Option Function}
  {Φ : StoreTyping} {Γ : Context} {machine : Machine}

theorem of_outside {task : Task} (hJudged : task.Judged types typed W Γ)
    (hReady : Ready typed W caller Φ Γ machine.store machine.env.current)
    (hOutside : task.isInside = false) : Justified types typed W caller Φ Γ task machine where
  judged := hJudged
  ready := hReady
  isInside hInside := by
    rw [hOutside] at hInside
    cases hInside

theorem evaluate_typed {e : Expr} {ty : Ty}
    (hReady : Ready typed W caller Φ Γ machine.store machine.env.current) (hType : e.HasType Γ ty)
    (hFree : typed → e.isIndexFree = true) :
    Justified types typed W caller Φ Γ (.evaluate e) machine :=
  .of_outside ⟨ty, .inl hType, hFree⟩ hReady rfl

end Justified

/-- A statement that returns, returns what the function promises. -/
def Completion.Kept (typed : Prop) (Γ : Context) (completion : Completion) : Prop :=
  ∀ value, completion = .returned value → typed → Γ.returnType.admits value.tag = true

/-- What is left of a statement: one that completes normally makes the machine ready for the
statements after it. -/
structure Completion.Settled (typed : Prop) (W : World) (caller : Option Function) (Γ Γ' : Context)
    (completion : Completion) (Φ' : StoreTyping) (machine' : Machine) : Prop where
  kept : completion.Kept typed Γ
  ready : completion = .normal → Ready typed W caller Φ' Γ' machine'.store machine'.env.current

/-- All justified tasks are safe when `n` steps are allowed. -/
structure Sound (types : TypeRegistry) (typed : Prop) (W : World) (n : Nat) : Prop where
  evaluate : ∀ {caller Φ Γ e machine},
    Justified types typed W caller Φ Γ (.evaluate e) machine →
    (Exec.evaluate n e machine).Safe typed W.functions 1 Φ machine
      fun value _ _ => typed → e.Fits value
  evaluateAll : ∀ {caller Φ Γ es machine},
    Justified types typed W caller Φ Γ (.evaluateAll es) machine →
    (Exec.evaluateAll n es machine).Safe typed W.functions 1 Φ machine
      fun values _ _ => values.length = es.length ∧ (typed → List.Forall₂ Expr.Fits es values)
  call : ∀ {caller Φ Γ name slot arguments machine},
    Justified types typed W caller Φ Γ (.call name slot arguments) machine →
    (Exec.call n name arguments machine).Safe typed W.functions 1 Φ machine
      fun value _ _ => typed → ∀ callable signature,
        callable? W.functions name arguments.length = some callable →
        callable.signature? = some signature → signature.returnType.admits value.tag = true
  execute : ∀ {caller Φ Γ Γ' s machine}, Stmt.WellTyped types Γ s Γ' →
    Justified types typed W caller Φ Γ (.execute s) machine →
    (Exec.execute n s machine).Safe typed W.functions 0 Φ machine
      (Completion.Settled typed W caller Γ Γ')
  executeBlock : ∀ {caller Φ Γ statements machine},
    Justified types typed W caller Φ Γ (.executeBlock statements) machine →
    (Exec.executeBlock n statements machine).Safe typed W.functions 0 Φ machine
      fun completion _ _ => completion.Kept typed Γ
  executeCases : ∀ {caller Φ Γ subject default? cases machine},
    Justified types typed W caller Φ Γ (.executeCases subject default? cases) machine →
    (Exec.executeCases n subject default? cases machine).Safe typed W.functions 1 Φ machine
      fun completion _ _ => completion.Kept typed Γ
  executeLoop : ∀ {caller Φ Γ condition body machine},
    Justified types typed W caller Φ Γ (.executeLoop condition body) machine →
    (Exec.executeLoop n condition body machine).Safe typed W.functions 1 Φ machine
      fun completion _ _ => completion.Kept typed Γ

end ProcLang
