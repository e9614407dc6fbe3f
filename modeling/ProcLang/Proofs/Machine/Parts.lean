import ProcLang.Proofs.Machine.Outcome
import ProcLang.Proofs.Machine.Task
import ProcLang.Proofs.Traversal

/-! # The code of tasks

What a task goes through is code that stands in the task. So conditions on all parts of its code are
kept from task to task, and the code gets smaller, as long as there is no loop.
-/

namespace ProcLang

set_option autoImplicit false

variable {n : Nat} {machine machine' : Machine} {p : Expr → Bool} {q : Stmt → Bool}

theorem Exec.length_of_evaluateAll {es : List Expr} {values : List Value}
    (h : evaluateAll n es machine = .done values machine') : values.length = es.length := by
  induction n generalizing es values machine with
  | zero => cases h
  | succ n ih =>
    cases es with
    | nil =>
      cases h
      rfl
    | cons e es =>
      obtain ⟨value, machine₁, -, h⟩ := of_bind_done h
      obtain ⟨rest, machine₂, hRest, h⟩ := of_bind_done h
      cases h
      exact congrArg Nat.succ (ih hRest)

theorem mem_of_defaultBody? {cases : List Case} {body : List Stmt}
    (h : defaultBody? cases = some body) : ⟨none, body⟩ ∈ cases := by
  obtain ⟨⟨value, found⟩, hFound, rfl⟩ := Option.map_eq_some_iff.mp h
  obtain rfl : value = none := by
    simpa [Case.isDefault, Case.value] using List.find?_some hFound
  exact List.mem_of_find?_eq_some hFound

/-- A condition on statements that also asks one of the expressions that they evaluate and of all
those inside. -/
def Stmt.meets (p : Expr → Bool) (q : Stmt → Bool) (s : Stmt) : Bool :=
  q s && s.expressions.all (·.every p)

theorem Stmt.meets_iff {s : Stmt} :
    s.meets p q = true ↔ q s = true ∧ ∀ e ∈ s.expressions, e.every p = true := by
  rw [meets, Bool.and_eq_true, List.all_eq_true]

namespace Task

/-- All code of a task meets the conditions; a call comes from an expression that does. -/
def Every (p : Expr → Bool) (q : Stmt → Bool) : Task → Prop
  | evaluate e => e.every p = true
  | evaluateAll es => ∀ e ∈ es, e.every p = true
  | read .. | write .. => True
  | call name _ arguments => ∃ parts signature ty,
      parts.length = arguments.length ∧ p (.call name parts signature ty) = true
  | execute s => s.every (Stmt.meets p q) = true
  | executeBlock statements => Stmt.everyIn (Stmt.meets p q) statements = true
  | executeCases _ default? cases =>
    (∀ body, default? = some body → Stmt.everyIn (Stmt.meets p q) body = true) ∧
    ∀ case ∈ cases, (∀ e, case.value = some e → e.every p = true) ∧
      Stmt.everyIn (Stmt.meets p q) case.body = true
  | executeLoop condition body => (Stmt.loop condition body).every (Stmt.meets p q) = true

theorem Every.of_evaluate {e : Expr} {task : Task} (h : Every p q (.evaluate e))
    (hEnters : Enters n (.evaluate e) machine task machine') : task.Every p q := by
  cases hEnters with
  | access | element => trivial
  | group | left | right | index | arguments | callee | items =>
    simp only [Every, Expr.every, Expr.everyItem_iff, Bool.and_eq_true] at h
    first
      | exact h.2
      | exact h.1.2
      | exact ⟨_, _, _, (Exec.length_of_evaluateAll ‹_›).symm, h.1⟩

theorem Every.of_executeCases {subject : Value} {default? : Option (List Stmt)} {cases : List Case}
    {task : Task} (h : Every p q (.executeCases subject default? cases))
    (hEnters : Enters n (.executeCases subject default? cases) machine task machine') :
    task.Every p q := by
  obtain ⟨hDefault, hCases⟩ := h
  cases hEnters with
  | defaultCase => exact hDefault _ rfl
  | caseValue => exact (hCases _ List.mem_cons_self).1 _ rfl
  | caseBody => exact (hCases _ List.mem_cons_self).2
  | pastDefault | pastCase =>
    exact ⟨hDefault, fun case hCase => hCases case (List.mem_cons_of_mem _ hCase)⟩

theorem every_cases {subject : Expr} {cases : List Case} (value : Value)
    (h : (Stmt.switch subject cases).every (Stmt.meets p q) = true) :
    Every p q (.executeCases value (defaultBody? cases) cases) := by
  simp only [Stmt.every, Stmt.meets_iff, Bool.and_eq_true, Stmt.everyInCases_iff] at h
  obtain ⟨⟨-, hValues⟩, hBodies⟩ := h
  refine ⟨fun body hBody => hBodies _ (mem_of_defaultBody? hBody), fun case hCase => ⟨?_, ?_⟩⟩
  · intro e hValue
    exact hValues e (List.mem_cons_of_mem _ (List.mem_filterMap.mpr ⟨case, hCase, hValue⟩))
  · exact hBodies case hCase

theorem Every.of_execute {s : Stmt} {task : Task} (h : Every p q (.execute s))
    (hEnters : Enters n (.execute s) machine task machine') : task.Every p q := by
  obtain ⟨-, hExpressions⟩ := Stmt.meets_iff.mp (Stmt.of_every h)
  cases hEnters with
  | assign | oldList | newList => trivial
  | expression | initialValue | condition | subject | returned =>
    exact hExpressions _ List.mem_cons_self
  | assigned | newItem => exact hExpressions _ (List.mem_cons_of_mem _ List.mem_cons_self)
  | itemIndex =>
    have hReceiver := hExpressions _ List.mem_cons_self
    simp only [Expr.every, Bool.and_eq_true] at hReceiver
    exact hReceiver.2
  | @branch _ _ _ _ b =>
    simp only [Every, Stmt.every, Bool.and_eq_true] at h
    cases b with
    | false => exact h.2
    | true => exact h.1.2
  | cases => exact every_cases _ h
  | loop => exact h

/-- Conditions on all code are kept from task to task. -/
theorem Every.enters {task task' : Task} (h : task.Every p q)
    (hEnters : Enters n task machine task' machine') : task'.Every p q := by
  cases task with
  | read | write | call => cases hEnters
  | evaluate => exact h.of_evaluate hEnters
  | executeCases => exact h.of_executeCases hEnters
  | execute => exact h.of_execute hEnters
  | evaluateAll =>
    cases hEnters with
    | head => exact h _ List.mem_cons_self
    | tail => exact fun e he => h e (List.mem_cons_of_mem _ he)
  | executeBlock =>
    simp only [Every, Stmt.everyIn_iff] at h
    cases hEnters with
    | statement => exact h _ List.mem_cons_self
    | rest => exact (Stmt.everyIn_iff _).mpr fun s hs => h s (List.mem_cons_of_mem _ hs)
  | executeLoop =>
    cases hEnters with
    | loopCondition =>
      exact (Stmt.meets_iff.mp (Stmt.of_every h)).2 _ List.mem_cons_self
    | round =>
      simp only [Every, Stmt.every, Bool.and_eq_true] at h
      exact h.2
    | again => exact h

/-- The size of the code of a task. When all cases of a `SWITCH` have been passed, its default may
still be executed. -/
noncomputable def size : Task → Nat
  | evaluate e => sizeOf e
  | evaluateAll es => sizeOf es
  | read .. | write .. | call .. => 0
  | execute s => sizeOf s
  | executeBlock statements => sizeOf statements
  | executeCases _ default? cases => max (sizeOf cases) (cases.length + sizeOf default?)
  | executeLoop condition body => sizeOf condition + sizeOf body

def isLoop : Task → Bool
  | execute (.loop ..) | executeLoop .. => true
  | _ => false

theorem length_lt_sizeOf (cases : List Case) : cases.length < sizeOf cases := by
  induction cases with
  | nil => simp
  | cons case cases ih =>
    simp only [List.length_cons, List.cons.sizeOf_spec]
    omega

theorem length_add_lt_sizeOf {cases : List Case} {case : Case} (h : case ∈ cases) :
    cases.length + sizeOf case < sizeOf cases := by
  induction h with
  | head cases =>
    have hRest := length_lt_sizeOf cases
    simp only [List.length_cons, List.cons.sizeOf_spec]
    omega
  | tail other _ ih =>
    simp only [List.length_cons, List.cons.sizeOf_spec]
    omega

theorem size_cases_lt (subject : Expr) (cases : List Case) (value : Value) :
    (executeCases value (defaultBody? cases) cases).size < (execute (.switch subject cases)).size := by
  have hDefault : cases.length + sizeOf (defaultBody? cases) ≤ sizeOf cases := by
    cases hBody : defaultBody? cases with
    | none => exact length_lt_sizeOf cases
    | some body =>
      have hCase := length_add_lt_sizeOf (mem_of_defaultBody? hBody)
      simp only [Case.mk.sizeOf_spec, Option.none.sizeOf_spec] at hCase
      simp only [Option.some.sizeOf_spec]
      omega
  simp only [size, Stmt.switch.sizeOf_spec]
  omega

/-- Without loops, tasks get smaller. -/
theorem Enters.size_lt {task task' : Task} (h : Enters n task machine task' machine')
    (hLoop : task.isLoop = false) : task'.size < task.size := by
  cases h with
  | cases => exact size_cases_lt _ _ _
  | loop | loopCondition | round | again => cases hLoop
  | branch =>
    simp only [size, Stmt.conditional.sizeOf_spec]
    split <;> omega
  | _ => simp [size] <;> omega

end Task

end ProcLang
