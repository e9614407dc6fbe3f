import ProcLang.Proofs.Machine.Task
import ProcLang.Proofs.Machine.Outcome

/-! # Executions that are cut short

An execution is cut short where its steps are exhausted or a call goes too deep. Neither begins in the
middle of a task: a task that is cut short goes through another one that is, until a task has no steps
left or calls a function at the limit.
-/

namespace ProcLang

set_option autoImplicit false

variable {α β : Type} {n : Nat} {machine : Machine}

/-- What cuts an execution short. -/
inductive Shortage where
  | steps
  | calls
deriving DecidableEq, Repr

variable {shortage : Shortage}

/-- An outcome of an execution that was cut short. -/
inductive Outcome.Lacks : Shortage → Outcome α → Prop
  | steps : Lacks .steps exhausted
  | calls {limit machine} : Lacks .calls (failed (.stackOverflow limit) machine)

namespace Exec

open Outcome

theorem not_lacks_pure {result : α} : ¬((pure result : Exec α) machine).Lacks shortage :=
  nofun

theorem not_lacks_lookup {name : String} : ¬(lookup name machine).Lacks shortage := by
  intro h
  unfold lookup at h
  split at h <;> cases h

theorem not_lacks_lookupFunction {name : String} {arity : Nat} :
    ¬(lookupFunction name arity machine).Lacks shortage := by
  intro h
  unfold lookupFunction at h
  split at h <;> cases h

theorem not_lacks_assign {name : String} {value : Value} :
    ¬(assign name value machine).Lacks shortage := by
  intro h
  unfold assign at h
  split at h <;> cases h

theorem lacks_ofExcept {result : Except RuntimeError α}
    (h : (ofExcept result machine).Lacks shortage) :
    ∃ limit, result = .error (.stackOverflow limit) := by
  cases result with
  | ok value => cases h
  | error error =>
    cases h with
    | calls => exact ⟨_, rfl⟩

/-- What follows one execution is cut short only if that is, or else what follows. -/
theorem lacks_bind {first : Exec α} {next : α → Exec β}
    (h : ((first >>= next) machine).Lacks shortage) :
    (first machine).Lacks shortage ∨
      ∃ result machine', first machine = .done result machine' ∧
        (next result machine').Lacks shortage := by
  cases hFirst : first machine with
  | done result machine' =>
    rw [bind_of_done hFirst] at h
    exact .inr ⟨result, machine', rfl, h⟩
  | failed error machine' =>
    rw [bind_of_failed hFirst] at h
    cases h
    exact .inl .calls
  | exhausted =>
    rw [bind_of_exhausted hFirst] at h
    cases h
    exact .inl .steps

theorem lacks_bind_pure {first : Exec α} {f : α → β}
    (h : ((first >>= fun result => pure (f result)) machine).Lacks shortage) :
    (first machine).Lacks shortage := by
  obtain h | ⟨_, _, -, h⟩ := lacks_bind h
  · exact h
  · exact absurd h not_lacks_pure

theorem lacks_ofExcept_bind {result : Except RuntimeError α} {next : α → Exec β}
    (hOther : ∀ limit, result ≠ .error (.stackOverflow limit))
    (h : ((ofExcept result >>= next) machine).Lacks shortage) :
    ∃ value, result = .ok value ∧ (next value machine).Lacks shortage := by
  cases result with
  | ok value => exact ⟨value, rfl, h⟩
  | error error =>
    cases h with
    | calls => exact absurd rfl (hOther _)

theorem lacks_mapMachine {f : Machine → Machine} {outcome : Outcome α}
    (h : (outcome.mapMachine f).Lacks shortage) : outcome.Lacks shortage := by
  cases outcome with
  | done => cases h
  | failed =>
    cases h
    exact .calls
  | exhausted =>
    cases h
    exact .steps

theorem lacks_inScope {body : Exec α} (h : (inScope body machine).Lacks shortage) :
    (body machine.pushScope).Lacks shortage :=
  lacks_mapMachine h

theorem lacks_inFrame {closure : ScopeId} {arguments : List (String × Value)} {body : Exec α}
    (h : (inFrame closure arguments body machine).Lacks shortage) :
    (machine.callLimit ≤ machine.callDepth ∧ shortage = .calls) ∨
      (machine.callDepth < machine.callLimit ∧
        (body (machine.enterFrame closure arguments)).Lacks shortage) := by
  unfold inFrame at h
  split at h
  · rename_i hReached
    cases h
    exact .inl ⟨hReached, rfl⟩
  · rename_i hReached
    exact .inr ⟨Nat.lt_of_not_le hReached, lacks_mapMachine h⟩

end Exec

namespace Value

variable {value index : Value} {name : String} {length : Nat} (limit : Nat)

theorem items_ne_stackOverflow : value.items name ≠ .error (.stackOverflow limit) :=
  fun h => nomatch items_error h

theorem position_ne_stackOverflow : index.position length ≠ .error (.stackOverflow limit) := by
  intro h
  obtain ⟨_, h⟩ | h := position_error h <;> cases h

theorem condition_ne_stackOverflow : value.condition ≠ .error (.stackOverflow limit) :=
  fun h => nomatch condition_error h

theorem item_ne_stackOverflow : value.item name index ≠ .error (.stackOverflow limit) := by
  intro h
  obtain hItems | ⟨length, hPosition⟩ := item_error h
  · exact items_ne_stackOverflow limit hItems
  · exact position_ne_stackOverflow limit hPosition

end Value

theorem Operator.evaluate_ne_stackOverflow {operator : Operator} {left right : Value} (limit : Nat) :
    (operator.evaluate left right).mapError RuntimeError.operation ≠
      .error (.stackOverflow limit) := by
  cases operator.evaluate left right <;> nofun

namespace Task

open Exec

/-- The task is cut short when it is allowed `n` steps. -/
def Lacks (shortage : Shortage) (n : Nat) (machine : Machine) : Task → Prop
  | evaluate e => (Exec.evaluate n e machine).Lacks shortage
  | evaluateAll es => (Exec.evaluateAll n es machine).Lacks shortage
  | read name _ => (lookup name machine).Lacks shortage
  | write name _ value => (assign name value machine).Lacks shortage
  | call name _ arguments => (Exec.call n name arguments machine).Lacks shortage
  | execute s => (Exec.execute n s machine).Lacks shortage
  | executeBlock statements => (Exec.executeBlock n statements machine).Lacks shortage
  | executeCases subject default? cases =>
    (Exec.executeCases n subject default? cases machine).Lacks shortage
  | executeLoop condition body => (Exec.executeLoop n condition body machine).Lacks shortage

theorem Lacks.zero {task : Task} (h : task.Lacks shortage 0 machine) : shortage = .steps := by
  cases task with
  | read => exact absurd h not_lacks_lookup
  | write => exact absurd h not_lacks_assign
  | evaluate | evaluateAll | call | execute | executeBlock | executeCases | executeLoop =>
    cases h
    rfl

/-- Of the tasks that a task goes through, one is cut short. -/
def Passes (shortage : Shortage) (n : Nat) (task : Task) (machine : Machine) : Prop :=
  ∃ task' machine', Enters n task machine task' machine' ∧ task'.Lacks shortage n machine'

theorem passes_evaluate {e : Expr} (h : (Exec.evaluate (n + 1) e machine).Lacks shortage) :
    Passes shortage n (.evaluate e) machine := by
  cases e with
  | literal => cases h
  | group => exact ⟨_, _, .group, h⟩
  | access => exact absurd h not_lacks_lookup
  | list => exact ⟨_, _, .items, lacks_bind_pure h⟩
  | call =>
    obtain h | ⟨_, _, hArguments, h⟩ := lacks_bind h
    · exact ⟨_, _, .arguments, h⟩
    · exact ⟨_, _, .callee hArguments, h⟩
  | element =>
    obtain h | ⟨_, _, hList, h⟩ := lacks_bind h
    · exact absurd h not_lacks_lookup
    obtain h | ⟨_, _, -, h⟩ := lacks_bind h
    · exact ⟨_, _, .index hList, h⟩
    · obtain ⟨limit, hError⟩ := lacks_ofExcept h
      exact absurd hError (Value.item_ne_stackOverflow limit)
  | binary operator left right slot =>
    -- Only `&&` and `||` can do without the right operand.
    by_cases hAnd : operator = .and
    · subst hAnd
      obtain h | ⟨value, _, hLeft, h⟩ := lacks_bind h
      · exact ⟨_, _, .left, h⟩
      split at h
      · rename_i hTrue
        exact ⟨_, _, .right hLeft (fun _ => hTrue) nofun, lacks_bind_pure h⟩
      · cases h
    by_cases hOr : operator = .or
    · subst hOr
      obtain h | ⟨value, _, hLeft, h⟩ := lacks_bind h
      · exact ⟨_, _, .left, h⟩
      split at h
      · cases h
      · rename_i hFalse
        exact ⟨_, _, .right hLeft nofun (fun _ => eq_false_of_ne_true hFalse),
          lacks_bind_pure h⟩
    rw [evaluate_binary hAnd hOr] at h
    obtain h | ⟨_, _, hLeft, h⟩ := lacks_bind h
    · exact ⟨_, _, .left, h⟩
    obtain h | ⟨_, _, -, h⟩ := lacks_bind h
    · exact ⟨_, _, .right hLeft (absurd · hAnd) (absurd · hOr), h⟩
    · obtain ⟨limit, hError⟩ := lacks_ofExcept h
      exact absurd hError (Operator.evaluate_ne_stackOverflow limit)

theorem passes_evaluateAll {es : List Expr}
    (h : (Exec.evaluateAll (n + 1) es machine).Lacks shortage) :
    Passes shortage n (.evaluateAll es) machine := by
  cases es with
  | nil => cases h
  | cons =>
    obtain h | ⟨_, _, hHead, h⟩ := lacks_bind h
    · exact ⟨_, _, .head, h⟩
    · exact ⟨_, _, .tail hHead, lacks_bind_pure h⟩

theorem passes_assignment {receiver value : Expr}
    (h : (Exec.execute (n + 1) (.assignment receiver value) machine).Lacks shortage) :
    Passes shortage n (.execute (.assignment receiver value)) machine := by
  cases receiver with
  | access =>
    obtain h | ⟨_, _, hValue, h⟩ := lacks_bind h
    · exact ⟨_, _, .assigned, h⟩
    · exact absurd (lacks_bind_pure h) not_lacks_assign
  | element =>
    obtain h | ⟨list, machine₁, hList, h⟩ := lacks_bind h
    · exact absurd h not_lacks_lookup
    obtain ⟨items, hItems, hNext⟩ := lacks_ofExcept_bind Value.items_ne_stackOverflow h
    obtain rfl := Value.of_items hItems
    obtain h | ⟨_, _, hIndex, h⟩ := lacks_bind hNext
    · exact ⟨_, _, .itemIndex hList, h⟩
    obtain ⟨position, hPosition, h⟩ := lacks_ofExcept_bind Value.position_ne_stackOverflow h
    obtain h | ⟨_, _, hValue, h⟩ := lacks_bind h
    · exact ⟨_, _, .newItem hList hIndex hPosition, h⟩
    · exact absurd (lacks_bind_pure h) not_lacks_assign
  | literal | group | binary | call | list => cases h

theorem passes_execute {s : Stmt} (h : (Exec.execute (n + 1) s machine).Lacks shortage) :
    Passes shortage n (.execute s) machine := by
  cases s with
  | expression => exact ⟨_, _, .expression, lacks_bind_pure h⟩
  | declaration name typeName value? symbol =>
    cases value? with
    | none => cases h
    | some value =>
      obtain h | ⟨_, _, -, h⟩ := lacks_bind h
      · exact ⟨_, _, .initialValue, h⟩
      · cases h
  | assignment => exact passes_assignment h
  | conditional =>
    obtain h | ⟨value, _, hCondition, h⟩ := lacks_bind h
    · exact ⟨_, _, .condition, h⟩
    obtain ⟨b, hTruth, hBranch⟩ := lacks_ofExcept_bind Value.condition_ne_stackOverflow h
    obtain rfl := Value.of_condition hTruth
    refine ⟨_, _, .branch hCondition, ?_⟩
    cases b <;> exact lacks_inScope hBranch
  | switch =>
    obtain h | ⟨_, _, hSubject, h⟩ := lacks_bind h
    · exact ⟨_, _, .subject, h⟩
    · exact ⟨_, _, .cases hSubject, h⟩
  | loop => exact ⟨_, _, .loop, h⟩
  | returns => exact ⟨_, _, .returned, lacks_bind_pure h⟩

theorem passes_executeBlock {statements : List Stmt}
    (h : (Exec.executeBlock (n + 1) statements machine).Lacks shortage) :
    Passes shortage n (.executeBlock statements) machine := by
  cases statements with
  | nil => cases h
  | cons =>
    obtain h | ⟨completion, _, hStatement, h⟩ := lacks_bind h
    · exact ⟨_, _, .statement, h⟩
    cases completion with
    | normal => exact ⟨_, _, .rest hStatement, h⟩
    | returned => cases h

theorem passes_executeCases {subject : Value} {default? : Option (List Stmt)} {cases : List Case}
    (h : (Exec.executeCases (n + 1) subject default? cases machine).Lacks shortage) :
    Passes shortage n (.executeCases subject default? cases) machine := by
  cases cases with
  | nil =>
    cases default? with
    | none => cases h
    | some body => exact ⟨_, _, .defaultCase, lacks_inScope h⟩
  | cons case rest =>
    obtain ⟨value?, body⟩ := case
    cases value? with
    | none => exact ⟨_, _, .pastDefault, h⟩
    | some value =>
      obtain h | ⟨_, _, hValue, h⟩ := lacks_bind h
      · exact ⟨_, _, .caseValue, h⟩
      split at h
      · rename_i hEqual
        exact ⟨_, _, .caseBody hValue hEqual, lacks_inScope h⟩
      · rename_i hUnequal
        exact ⟨_, _, .pastCase hValue (eq_false_of_ne_true hUnequal), h⟩

theorem passes_executeLoop {condition : Expr} {body : List Stmt}
    (h : (Exec.executeLoop (n + 1) condition body machine).Lacks shortage) :
    Passes shortage n (.executeLoop condition body) machine := by
  obtain h | ⟨value, _, hCondition, h⟩ := lacks_bind h
  · exact ⟨_, _, .loopCondition, h⟩
  obtain ⟨b, hTruth, hNext⟩ := lacks_ofExcept_bind Value.condition_ne_stackOverflow h
  obtain rfl := Value.of_condition hTruth
  cases b with
  | false => cases hNext
  | true =>
    obtain h | ⟨completion, _, hRound, h⟩ := lacks_bind hNext
    · exact ⟨_, _, .round hCondition, lacks_inScope h⟩
    cases completion with
    | normal => exact ⟨_, _, .again hCondition hRound, h⟩
    | returned => cases h

/-- A call that is cut short reaches a function of the program, whose body is not entered or is cut
short. -/
theorem lacks_call {name : String} {arguments : List Value}
    (h : (Exec.call (n + 1) name arguments machine).Lacks shortage) :
    ∃ function closure,
      lookupFunction name arguments.length machine = .done (.user function closure) machine ∧
      ((machine.callLimit ≤ machine.callDepth ∧ shortage = .calls) ∨
        (machine.callDepth < machine.callLimit ∧
          (Exec.executeBlock n function.body
            (machine.enterFrame closure (function.parameters.zip arguments))).Lacks shortage)) := by
  obtain h | ⟨callable, machine', hFound, h⟩ := lacks_bind h
  · exact absurd h not_lacks_lookupFunction
  obtain ⟨rfl, -⟩ := of_lookupFunction_done hFound
  cases callable with
  | print => cases h
  | user function closure => exact ⟨function, closure, hFound, lacks_inFrame (lacks_bind_pure h)⟩

/-- What cuts a task short does so in a task within it, unless the task is a call. -/
theorem Lacks.passes {task : Task} (h : task.Lacks shortage (n + 1) machine) :
    Passes shortage n task machine ∨ ∃ name slot arguments, task = .call name slot arguments := by
  cases task with
  | read => exact absurd h not_lacks_lookup
  | write => exact absurd h not_lacks_assign
  | call name slot arguments => exact .inr ⟨name, slot, arguments, rfl⟩
  | evaluate => exact .inl (passes_evaluate h)
  | evaluateAll => exact .inl (passes_evaluateAll h)
  | execute => exact .inl (passes_execute h)
  | executeBlock => exact .inl (passes_executeBlock h)
  | executeCases => exact .inl (passes_executeCases h)
  | executeLoop => exact .inl (passes_executeLoop h)

end Task

namespace Exec

variable {source : Source} {start : Machine}

theorem lacks_defineGlobals {globals : List Global}
    (h : (defineGlobals n globals machine).Lacks shortage) :
    ∃ before global after value machine', globals = before ++ global :: after ∧
      global.value = some value ∧ defineGlobals n before machine = .done () machine' ∧
      (evaluate n value machine').Lacks shortage := by
  induction globals generalizing machine with
  | nil => cases h
  | cons global rest ih =>
    obtain h | ⟨_, machine₁, hGlobal, h⟩ := lacks_bind h
    · unfold defineGlobal at h
      cases hValue : global.value with
      | none =>
        rw [hValue] at h
        cases h
      | some value =>
        rw [hValue] at h
        obtain h | ⟨_, _, -, h⟩ := lacks_bind h
        · exact ⟨[], global, rest, value, machine, rfl, hValue, rfl, h⟩
        · cases h
    · obtain ⟨before, other, after, value, machine', rfl, hValue, hBefore, h⟩ := ih h
      refine ⟨global :: before, other, after, value, machine', rfl, hValue, ?_, h⟩
      exact (bind_of_done hGlobal).trans hBefore

theorem not_lacks_defineFunctions {functions : List Function} :
    ¬(defineFunctions functions machine).Lacks shortage := by
  intro h
  induction functions generalizing machine with
  | nil => cases h
  | cons function rest ih =>
    obtain h | ⟨_, _, -, h⟩ := lacks_bind h
    · cases h
    · exact ih h

/-- A run that is cut short is so in the initial value of a global or in the call of `main`. -/
theorem lacks_run (h : (run n source start).Lacks shortage) : ∃ task machine,
    Task.Reached n source start none n task machine ∧ task.Lacks shortage n machine ∧
    (task = .call "main" none [] ∨
      ∃ global ∈ source.globals, ∃ value, global.value = some value ∧ task = .evaluate value) := by
  obtain h | ⟨_, _, hGlobals, h⟩ := lacks_bind h
  · obtain ⟨before, global, after, value, machine, hSplit, hValue, hBefore, h⟩ :=
      lacks_defineGlobals h
    exact ⟨_, _, .global hSplit hValue hBefore, h, .inr ⟨global, by simp [hSplit], value, hValue, rfl⟩⟩
  obtain h | ⟨_, _, hFunctions, h⟩ := lacks_bind h
  · exact absurd h not_lacks_defineFunctions
  · exact ⟨_, _, .main hGlobals hFunctions, h, .inl rfl⟩

end Exec

end ProcLang
