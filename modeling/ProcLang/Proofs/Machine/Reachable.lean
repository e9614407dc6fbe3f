import ProcLang.Proofs.Machine.Balance
import ProcLang.Proofs.Machine.Task

/-! # Reachable machines

The machines that occur while programs are interpreted, in between two operations or in the middle of
one. However an operation on such a machine ends, it leaves the scopes and calls as it found them, and
nowhere are more calls under way than the limit allows.
-/

namespace ProcLang

set_option autoImplicit false

variable {R : Machine → Machine → Prop} {n : Nat}

/-- The machine that a task leaves, unless the steps are not enough. -/
def Task.left? (n : Nat) (machine : Machine) : Task → Option Machine
  | evaluate e => (Exec.evaluate n e machine).machine?
  | evaluateAll es => (Exec.evaluateAll n es machine).machine?
  | read name _ => (Exec.lookup name machine).machine?
  | write name _ value => (Exec.assign name value machine).machine?
  | call name _ arguments => (Exec.call n name arguments machine).machine?
  | execute s => (Exec.execute n s machine).machine?
  | executeBlock statements => (Exec.executeBlock n statements machine).machine?
  | executeCases subject default? cases =>
    (Exec.executeCases n subject default? cases machine).machine?
  | executeLoop condition body => (Exec.executeLoop n condition body machine).machine?

namespace Task

open Exec

variable [Std.Refl R] [IsTrans Machine R] (hR : Lasting R) {task task' : Task}
  {machine machine' left : Machine}
include hR

theorem kept_of_left? (h : task.left? n machine = some left) : R machine left := by
  have hAll : AllKeep R n := .all hR n
  cases task with
  | evaluate e => exact (hAll.evaluate e machine).of_machine? h
  | evaluateAll es => exact (hAll.evaluateAll es machine).of_machine? h
  | read name slot => exact (Keeps.of_lookup name machine).of_machine? h
  | write name slot value => exact (hR.assign name value machine).of_machine? h
  | call name slot arguments => exact (hAll.call name arguments machine).of_machine? h
  | execute s => exact (hAll.execute s machine).of_machine? h
  | executeBlock statements => exact (hAll.executeBlock statements machine).of_machine? h
  | executeCases subject default? cases =>
    exact (hAll.executeCases subject default? cases machine).of_machine? h
  | executeLoop condition body => exact (hAll.executeLoop condition body machine).of_machine? h

/-- A task within another one starts from what earlier ones left, possibly in a new scope. -/
theorem Enters.kept (h : Enters n task machine task' machine') :
    ∃ before, R machine before ∧ (machine' = before ∨ machine' = before.pushScope) := by
  have hAll : AllKeep R n := .all hR n
  have hEvaluate : ∀ {e value machine left}, Exec.evaluate n e machine = .done value left →
      R machine left := fun hDone => (hAll.evaluate _ _).of_done hDone
  have hLookup : ∀ {name value machine left}, Exec.lookup name machine = .done value left →
      R machine left := fun hDone => (Keeps.of_lookup _ _).of_done hDone
  -- The cases that are named have other tasks before them or enter a scope.
  cases h with
  | right hLeft => exact ⟨machine', hEvaluate hLeft, .inl rfl⟩
  | index hList => exact ⟨machine', hLookup hList, .inl rfl⟩
  | callee hArguments => exact ⟨machine', (hAll.evaluateAll _ _).of_done hArguments, .inl rfl⟩
  | tail hHead => exact ⟨machine', hEvaluate hHead, .inl rfl⟩
  | assign hValue => exact ⟨machine', hEvaluate hValue, .inl rfl⟩
  | itemIndex hList => exact ⟨machine', hLookup hList, .inl rfl⟩
  | newItem hList hIndex => exact ⟨machine', trans_of R (hLookup hList) (hEvaluate hIndex), .inl rfl⟩
  | newList hList hIndex hPosition hValue =>
    have hItem := trans_of R (hLookup hList) (hEvaluate hIndex)
    exact ⟨machine', trans_of R hItem (hEvaluate hValue), .inl rfl⟩
  | branch hCondition => exact ⟨_, hEvaluate hCondition, .inr rfl⟩
  | cases hSubject => exact ⟨machine', hEvaluate hSubject, .inl rfl⟩
  | rest hStatement => exact ⟨machine', (hAll.execute _ _).of_done hStatement, .inl rfl⟩
  | defaultCase => exact ⟨machine, refl_of R machine, .inr rfl⟩
  | caseBody hValue => exact ⟨_, hEvaluate hValue, .inr rfl⟩
  | pastCase hValue => exact ⟨machine', hEvaluate hValue, .inl rfl⟩
  | round hCondition => exact ⟨_, hEvaluate hCondition, .inr rfl⟩
  | again hCondition hRound =>
    have hScope := (hR.inScope (hAll.executeBlock _) _).of_done hRound
    exact ⟨machine', trans_of R (hEvaluate hCondition) hScope, .inl rfl⟩
  | _ => exact ⟨machine, refl_of R machine, .inl rfl⟩

end Task

/-- The machines that occur under a limit of calls: new ones, those with another scope or another
definition, those that an operation leaves, and those from which a part of an operation starts. -/
inductive Machine.Reachable (callLimit : Nat) : Machine → Prop
  | new (destination : Destination) : Reachable callLimit (Machine.new destination callLimit)
  | pushScope {machine} (h : Reachable callLimit machine) : Reachable callLimit machine.pushScope
  | popScope {machine} (h : Reachable callLimit machine) : Reachable callLimit machine.popScope
  | define {machine name value isMutable left} (h : Reachable callLimit machine)
      (hDone : Exec.define name value isMutable machine = .done () left) : Reachable callLimit left
  | defineFunction {machine function left} (h : Reachable callLimit machine)
      (hDone : Exec.defineFunction function machine = .done () left) : Reachable callLimit left
  | task {machine n task left} (h : Reachable callLimit machine)
      (hLeft : Task.left? n machine task = some left) : Reachable callLimit left
  | run {machine n source left} (h : Reachable callLimit machine)
      (hLeft : (Exec.run n source machine).machine? = some left) : Reachable callLimit left
  | enter {machine n task task' machine'} (h : Reachable callLimit machine)
      (hEnters : Task.Enters n task machine task' machine') : Reachable callLimit machine'
  | body {machine name function closure} {arguments : List Value} (h : Reachable callLimit machine)
      (hFunction : Exec.lookupFunction name arguments.length machine =
        .done (.user function closure) machine) (hLimit : machine.callDepth < machine.callLimit) :
    Reachable callLimit (machine.enterFrame closure (function.parameters.zip arguments))

namespace Machine.Reachable

open Exec

variable {callLimit : Nat} {machine machine' : Machine}

theorem calls (h : Machine.Reachable callLimit machine) :
    machine.callLimit = callLimit ∧ machine.callDepth ≤ callLimit := by
  have hResumes : ∀ {machine left : Machine}, machine.Resumes left →
      machine.callLimit = callLimit ∧ machine.callDepth ≤ callLimit →
      left.callLimit = callLimit ∧ left.callDepth ≤ callLimit := by
    intro machine left hLeft hCalls
    rw [hLeft.callLimit_eq, hLeft.callDepth_eq]
    exact hCalls
  induction h with
  | new => exact ⟨rfl, Nat.zero_le callLimit⟩
  | pushScope _ ih => exact ih
  | popScope _ ih => exact ih
  | define _ hDone ih =>
    cases hDone
    exact ih
  | defineFunction _ hDone ih =>
    cases hDone
    exact ih
  | task _ hLeft ih => exact hResumes (Task.kept_of_left? lasting_resumes hLeft) ih
  | run _ hLeft ih => exact hResumes ((keeps_resumes_run _ _ _).of_machine? hLeft) ih
  | enter _ hEnters ih =>
    obtain ⟨before, hBefore, rfl | rfl⟩ := hEnters.kept lasting_resumes
    · exact hResumes hBefore ih
    · have hCalls := hResumes hBefore ih
      exact hCalls
  | body _ _ hLimit ih =>
    obtain ⟨hSame, -⟩ := ih
    rw [hSame] at hLimit
    exact ⟨hSame, hLimit⟩

theorem defineGlobals {globals : List Global} (h : Machine.Reachable callLimit machine)
    (hDone : Exec.defineGlobals n globals machine = .done () machine') :
    Machine.Reachable callLimit machine' := by
  induction globals generalizing machine with
  | nil =>
    cases hDone
    exact h
  | cons global rest ih =>
    obtain ⟨_, machine₁, hGlobal, hRest⟩ := of_bind_done hDone
    apply ih _ hRest
    unfold defineGlobal at hGlobal
    cases hValue : global.value with
    | none =>
      rw [hValue] at hGlobal
      exact h.define hGlobal
    | some value =>
      rw [hValue] at hGlobal
      obtain ⟨result, machine₂, hEvaluate, hDefine⟩ := of_bind_done hGlobal
      have hLeft : Task.left? n machine (.evaluate value) = some machine₂ := by
        rw [Task.left?, hEvaluate]
        rfl
      exact (h.task hLeft).define hDefine

theorem defineFunctions {functions : List Function} (h : Machine.Reachable callLimit machine)
    (hDone : Exec.defineFunctions functions machine = .done () machine') :
    Machine.Reachable callLimit machine' := by
  induction functions generalizing machine with
  | nil =>
    cases hDone
    exact h
  | cons function rest ih =>
    obtain ⟨_, machine₁, hFunction, hRest⟩ := of_bind_done hDone
    exact ih (h.defineFunction hFunction) hRest

/-- Whatever a run goes through, its machines are reachable. -/
theorem of_reached {source : Source} {caller : Option Function} {k : Nat} {task : Task}
    (h : Machine.Reachable callLimit machine)
    (hReached : Task.Reached n source machine caller k task machine') :
    Machine.Reachable callLimit machine' := by
  induction hReached with
  | global _ _ hBefore => exact h.defineGlobals hBefore
  | main hGlobals hFunctions => exact (h.defineGlobals hGlobals).defineFunctions hFunctions
  | enter _ hEnters ih => exact ih.enter hEnters
  | body _ hFunction hLimit ih =>
    obtain ⟨rfl, -⟩ := of_lookupFunction_done hFunction
    exact ih.body hFunction hLimit

/-- However an operation ends, it has left the scopes that it entered and returned from the calls that
it made, and at no point do the calls exceed their limit. -/
theorem balanced (h : Machine.Reachable callLimit machine) :
    machine.callLimit = callLimit ∧ machine.callDepth ≤ callLimit ∧
    (∀ n task left, Task.left? n machine task = some left → machine.Resumes left) ∧
    (∀ n statements left, (inScope (executeBlock n statements) machine).machine? = some left →
      machine.Resumes left) ∧
    (∀ n source left, (Exec.run n source machine).machine? = some left → machine.Resumes left) ∧
    ∀ n source caller k task machine', Task.Reached n source machine caller k task machine' →
      machine'.callLimit = callLimit ∧ machine'.callDepth ≤ callLimit := by
  obtain ⟨hLimit, hDepth⟩ := h.calls
  refine ⟨hLimit, hDepth, ?_, ?_, ?_, ?_⟩
  · intro n task left hLeft
    exact Task.kept_of_left? lasting_resumes hLeft
  · intro n statements left hLeft
    have hBlock := (AllBalanced.all n).executeBlock statements
    exact (lasting_resumes.inScope hBlock machine).of_machine? hLeft
  · intro n source left hLeft
    exact (keeps_resumes_run n source machine).of_machine? hLeft
  · intro n source caller k task machine' hReached
    exact (h.of_reached hReached).calls

end Machine.Reachable

namespace Blocks

/-- Divides by zero within a branch, within a loop, within a call. -/
def source : Source :=
  ⟨[], [⟨"main", [], [], some "Integer",
    [.loop (.literal (.boolean true) none)
      [.conditional (.literal (.boolean true) none)
        [.returns (.binary .divide (.literal (.integer 1) none) (.literal (.integer 0) none) none)]
        []]], none⟩]⟩

end Blocks

theorem Machine.Reachable.balanced_blocks : ∃ error left,
    Exec.run 20 Blocks.source (Machine.new .buffer 50) = .failed error left ∧
    left.env.depth = 1 ∧ left.callDepth = 0 := by
  have hFailed : ∃ error left,
      Exec.run 20 Blocks.source (Machine.new .buffer 50) = .failed error left := ⟨_, _, rfl⟩
  obtain ⟨error, left, hFailed⟩ := hFailed
  obtain ⟨-, -, -, -, hRun, -⟩ := Machine.Reachable.balanced (@Machine.Reachable.new 50 .buffer)
  have hLeft := hRun 20 Blocks.source left (by rw [hFailed]; rfl)
  refine ⟨error, left, hFailed, ?_, hLeft.callDepth_eq⟩
  rw [hLeft.env_eq]
  rfl

end ProcLang
