import ProcLang.Proofs.Machine.Shortfall
import ProcLang.Proofs.Safety.Strata

/-! # Runs of stratified programs end

Calls of a program whose functions do not call themselves never go deeper than its functions are
many. Without loops, the tasks of a body get smaller and calls go to strata below, so that the code
of all functions together bounds the steps of a run.
-/

namespace ProcLang

set_option autoImplicit false

def Stmt.isLoop : Stmt → Bool
  | loop .. => true
  | _ => false

theorem Stmt.isLoop_erase (s : Stmt) : s.erase.isLoop = s.isLoop := by
  cases s <;> rfl

/-- There is no `WHILE` in the body. -/
def Function.LoopFree (function : Function) : Prop :=
  Stmt.everyIn (fun s => !s.isLoop) function.body = true

instance : DecidablePred Function.LoopFree :=
  fun _ => inferInstanceAs (Decidable (_ = true))

theorem Function.loopFree_erase (function : Function) : function.erase.LoopFree ↔ function.LoopFree :=
  Eq.congr_left (Stmt.everyIn_eraseBlock (fun s => congrArg (!·) s.isLoop_erase) function.body)

theorem Task.Every.not_isLoop {p : Expr → Bool} {task : Task}
    (h : task.Every p fun s => !s.isLoop) : task.isLoop = false := by
  cases task with
  | executeLoop condition body => simpa [Stmt.isLoop] using (Stmt.meets_iff.mp (Stmt.of_every h)).1
  | execute s =>
    cases s with
    | loop => simpa [Stmt.isLoop] using (Stmt.meets_iff.mp (Stmt.of_every h)).1
    | expression | declaration | assignment | conditional | switch | returns => rfl
  | evaluate | evaluateAll | read | write | call | executeBlock | executeCases => rfl

/-- So many steps are enough for a call of any of the functions, if each calls only those before it. -/
noncomputable def stepBound (functions : List Function) : Nat :=
  (functions.map fun function => sizeOf function.body + 1).sum

theorem stepBound_append (before after : List Function) :
    stepBound (before ++ after) = stepBound before + stepBound after := by
  simp [stepBound]

theorem Global.sizeOf_value_le {globals : List Global} {global : Global} {value : Expr}
    (hMem : global ∈ globals) (hValue : global.value = some value) : sizeOf value ≤ sizeOf globals := by
  have hGlobal := List.sizeOf_lt_of_mem hMem
  cases global with
  | mk name typeName isMutable value? symbol =>
    obtain rfl : value? = some value := hValue
    simp only [Global.mk.sizeOf_spec, Option.some.sizeOf_spec] at hGlobal
    omega

namespace Source.Fit

variable {source : Source} {typed : Prop} {n k : Nat} {destination : Destination} {callLimit : Nat}
  {caller : Option Function} {task : Task} {machine : Machine}

theorem not_lacks_calls (h : source.Fit {} typed) (hDistinct : source.Distinct)
    (hSpares : ∀ function ∈ source.functions, function.SparesItself)
    (hLimit : source.functions.length ≤ callLimit)
    (hReached : Task.Reached n source (Machine.new destination callLimit) caller k task machine) :
    ¬task.Lacks .calls k machine := by
  intro hLacks
  induction k generalizing caller task machine with
  | zero => cases hLacks.zero
  | succ k ih =>
    obtain ⟨task', machine', hEnters, hLacks'⟩ | ⟨name, slot, arguments, rfl⟩ := hLacks.passes
    · exact ih (hReached.enter hEnters) hLacks'
    obtain ⟨function, closure, hFound, hCall⟩ := Task.lacks_call hLacks
    obtain ⟨hFull, -⟩ | ⟨hFree, hBody⟩ := hCall
    · -- There is a function below the caller, so the calls cannot have reached the limit.
      have hDepth := h.callDepth_add_le hDistinct hSpares hReached
      have hBelow := List.length_pos_of_mem (h.below_of_called hDistinct hSpares hReached hFound)
      have hSame := ((Machine.Reachable.new destination).of_reached hReached).calls.1
      omega
    · exact ih (hReached.body hFound hFree) hBody

theorem le_of_lacks_steps (h : source.Fit {} typed) (hDistinct : source.Distinct)
    (hSpares : ∀ function ∈ source.functions, function.SparesItself)
    (hLoops : ∀ function ∈ source.functions, function.LoopFree)
    (hReached : Task.Reached n source (Machine.new destination callLimit) caller k task machine)
    (hLacks : task.Lacks .steps k machine) :
    k ≤ task.size + stepBound (source.below caller) := by
  have hBodies : ∀ function ∈ source.functions, Stmt.everyIn
      (Stmt.meets (Expr.sparesCaller (some function)) fun s => !s.isLoop) function.body = true := by
    intro function hMem
    have hBoth := Stmt.everyIn_and (fun s => !s.isLoop) (Stmt.spares function.key) function.body
    rw [hLoops function hMem, hSpares function hMem] at hBoth
    exact hBoth
  induction k generalizing caller task machine with
  | zero => exact Nat.zero_le _
  | succ k ih =>
    obtain ⟨task', machine', hEnters, hLacks'⟩ | ⟨name, slot, arguments, rfl⟩ := hLacks.passes
    · have hSmaller := hEnters.size_lt (h.every_of_reached hBodies hReached).not_isLoop
      have hRest := ih (hReached.enter hEnters) hLacks'
      omega
    obtain ⟨function, closure, hFound, ⟨-, hCut⟩ | ⟨hFree, hBody⟩⟩ := Task.lacks_call hLacks
    · cases hCut
    · have hRest := ih (hReached.body hFound hFree) hBody
      have hBelow := h.below_of_called hDistinct hSpares hReached hFound
      obtain ⟨rest, hSplit⟩ := hDistinct.below_append_prefix hBelow
      rw [← hSplit, stepBound_append, stepBound_append]
      simp only [Task.size, stepBound, List.map_singleton, List.sum_singleton] at hRest ⊢
      omega

theorem run_ne_stackOverflow (h : source.Fit {} typed) (hDistinct : source.Distinct)
    (hSpares : ∀ function ∈ source.functions, function.SparesItself)
    (hLimit : source.functions.length ≤ callLimit) (limit : Nat) :
    Exec.run n source (Machine.new destination callLimit) ≠
      .failed (.stackOverflow limit) machine := by
  intro hFailed
  have hLacks : (Exec.run n source (Machine.new destination callLimit)).Lacks .calls := by
    rw [hFailed]
    exact .calls
  obtain ⟨task, machine', hReached, hTask, -⟩ := Exec.lacks_run hLacks
  exact h.not_lacks_calls hDistinct hSpares hLimit hReached hTask

theorem run_ne_exhausted (h : source.Fit {} typed) (hDistinct : source.Distinct)
    (hSpares : ∀ function ∈ source.functions, function.SparesItself)
    (hLoops : ∀ function ∈ source.functions, function.LoopFree)
    (hSteps : sizeOf source.globals + stepBound source.functions < n) :
    Exec.run n source (Machine.new destination callLimit) ≠ .exhausted := by
  intro hExhausted
  have hLacks : (Exec.run n source (Machine.new destination callLimit)).Lacks .steps := by
    rw [hExhausted]
    exact .steps
  obtain ⟨task, machine, hReached, hTask, hForm⟩ := Exec.lacks_run hLacks
  have hBound := h.le_of_lacks_steps hDistinct hSpares hLoops hReached hTask
  have hSize : task.size ≤ sizeOf source.globals := by
    obtain rfl | ⟨global, hMem, value, hValue, rfl⟩ := hForm
    · exact Nat.zero_le _
    · exact Global.sizeOf_value_le hMem hValue
  simp only [Source.below] at hBound
  omega

end Source.Fit

namespace Pipeline

/-- In a text whose functions have different keys, functions call only themselves and earlier ones.
If none calls itself, calls do not nest deeper than the functions are many, and without loops the
run ends, whatever the limit of calls. -/
theorem calls_stratified {text : String} {source checked : Source} (hParse : parse text = .ok source)
    (hCheck : check text = .ok checked) (hDistinct : source.Distinct) (destination : Destination)
    (callLimit : Nat) :
    (∀ n function k name slot arguments machine callee closure machine',
      Task.Reached n checked (Machine.new destination callLimit) (some function) k
        (.call name slot arguments) machine →
      Exec.lookupFunction name arguments.length machine = .done (.user callee closure) machine' →
      ∃ before after, checked.functions = before ++ function :: after ∧
        callee ∈ before ++ [function]) ∧
    ((∀ function ∈ source.functions, function.SparesItself) →
      (∀ n caller k task machine,
        Task.Reached n checked (Machine.new destination callLimit) caller k task machine →
        machine.callDepth ≤ source.functions.length) ∧
      (source.functions.length ≤ callLimit → ∀ n limit machine,
        Exec.run n checked (Machine.new destination callLimit) ≠
          .failed (.stackOverflow limit) machine) ∧
      ((∀ function ∈ source.functions, function.LoopFree) →
        ∃ n, Exec.run n checked (Machine.new destination callLimit) ≠ .exhausted)) := by
  have hFit : checked.Fit {} False := fit_of_check hCheck nofun
  obtain ⟨original, hOriginal, hChecked⟩ := of_check hCheck
  obtain rfl := Except.ok.inj (hParse.symm.trans hOriginal)
  have hErase := erase_of_checkProgram hChecked
  have hLength : checked.functions.length = source.functions.length := by
    simpa [Source.erase] using congrArg (fun s => s.functions.length) hErase
  have hDistinct' : checked.Distinct := by
    rw [← checked.distinct_erase, hErase, source.distinct_erase]
    exact hDistinct
  refine ⟨?_, fun hSpares => ?_⟩
  · intro n function k name slot arguments machine callee closure machine' hReached hFound
    exact hFit.visible_of_called hDistinct' hReached hFound
  have hSpares' := Source.forall_functions_of_erase_eq Function.sparesItself_erase hErase hSpares
  refine ⟨?_, ?_, fun hLoops => ?_⟩
  · intro n caller k task machine hReached
    have hDepth := hFit.callDepth_add_le hDistinct' hSpares' hReached
    omega
  · intro hLimit n limit machine
    exact hFit.run_ne_stackOverflow hDistinct' hSpares' (hLength ▸ hLimit) limit
  · have hLoops' := Source.forall_functions_of_erase_eq Function.loopFree_erase hErase hLoops
    exact ⟨_, hFit.run_ne_exhausted hDistinct' hSpares' hLoops' (Nat.lt_succ_self _)⟩

end Pipeline

namespace Strata

/-- Two functions share a name, and each function calls only earlier ones. -/
def text : String :=
  "FUN mul(x: Integer): Integer DO RETURN x * 2; END
  FUN mul(x: Integer, y: Integer): Integer DO RETURN mul(x) * y; END
  FUN main(): Integer DO RETURN mul(1, 2); END"

end Strata

theorem Pipeline.calls_stratified_strata : ∃ source checked,
    parse Strata.text = .ok source ∧ check Strata.text = .ok checked ∧
    source.functions.length = 3 ∧
    (∀ n limit machine, Exec.run n checked (Machine.new .buffer 3) ≠
      .failed (.stackOverflow limit) machine) ∧
    ∃ n, Exec.run n checked (Machine.new .buffer 3) ≠ .exhausted := by
  have hRead : (parse Strata.text).toOption.any (fun source => source.Distinct ∧
      (∀ function ∈ source.functions, function.SparesItself) ∧
      (∀ function ∈ source.functions, function.LoopFree) ∧ source.functions.length = 3) = true := by
    decide +kernel
  have hOk : (check Strata.text).toOption.any (fun _ => true) = true := by
    decide +kernel
  obtain ⟨source, hParse, hSource⟩ := exists_of_any_ok hRead
  obtain ⟨checked, hCheck, -⟩ := exists_of_any_ok hOk
  obtain ⟨hDistinct, hSpares, hLoops, hLength⟩ := of_decide_eq_true hSource
  obtain ⟨-, hStrata⟩ := calls_stratified hParse hCheck hDistinct .buffer 3
  obtain ⟨-, hOverflow, hEnds⟩ := hStrata hSpares
  exact ⟨source, checked, hParse, hCheck, hLength, hOverflow (Nat.le_of_eq hLength), hEnds hLoops⟩

end ProcLang
