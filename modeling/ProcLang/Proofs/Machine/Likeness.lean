import ProcLang.Proofs.Machine.Coupling
import ProcLang.Proofs.Machine.Scopes

/-! # Slots are not read by runs

Machines are alike if they agree in all but the slots of the functions that they hold and in where
they print. Programs that differ in slots only run alike on such machines.
-/

namespace ProcLang

set_option autoImplicit false

inductive Callable.Alike : Callable → Callable → Prop
  | print : Alike .print .print
  | user {function function' closure} (hFunction : function.Alike function') :
    Alike (.user function closure) (.user function' closure)

structure Store.Alike (store store' : Store) : Prop where
  size_eq : store'.scopes.size = store.scopes.size
  outer_eq : ∀ id, (store'.scope id).outer = (store.scope id).outer
  bindings_eq : ∀ id, (store'.scope id).bindings = (store.scope id).bindings
  callables : ∀ id key, Option.Rel Callable.Alike ((store.scope id).callables.get? key)
    ((store'.scope id).callables.get? key)

namespace Store.Alike

variable {store store' : Store} (h : store.Alike store')
include h

theorem chain_eq (id : ScopeId) : store'.chain id = store.chain id := by
  rw [chain, chain, h.outer_eq]

theorem resolve_eq (id : ScopeId) (name : String) : store'.resolve id name = store.resolve id name := by
  simp only [resolve, h.chain_eq, h.bindings_eq]

theorem lookup_eq (id : ScopeId) (name : String) : store'.lookup id name = store.lookup id name := by
  rw [lookup, lookup, h.resolve_eq]

theorem assignmentTarget_eq (id : ScopeId) (name : String) :
    store'.assignmentTarget id name = store.assignmentTarget id name := by
  rw [assignmentTarget, assignmentTarget, h.resolve_eq]

theorem lookupFunction (id : ScopeId) (name : String) (arity : Nat) :
    Option.Rel Callable.Alike (store.lookupFunction id name arity)
      (store'.lookupFunction id name arity) := by
  rw [Store.lookupFunction, Store.lookupFunction, h.chain_eq]
  apply findSome?_rel (Q := Eq) _ (List.forall₂_refl _)
  rintro id _ rfl
  exact h.callables id (name, arity)

theorem newInside (parent : ScopeId) :
    (store.newInside parent).2.Alike (store'.newInside parent).2 where
  size_eq := by simp [h.size_eq]
  outer_eq id := by
    rw [scope_newInside, scope_newInside, h.size_eq, h.chain_eq]
    split
    · rfl
    · exact h.outer_eq id
  bindings_eq id := by
    rw [scope_newInside, scope_newInside, h.size_eq]
    split
    · rfl
    · exact h.bindings_eq id
  callables id key := by
    rw [scope_newInside, scope_newInside, h.size_eq]
    split
    · exact .none
    · exact h.callables id key

theorem define (id : ScopeId) (name : String) (value : Value) (isMutable : Bool) :
    (store.define id name value isMutable).Alike (store'.define id name value isMutable) where
  size_eq := by simp [h.size_eq]
  outer_eq id' := by
    rw [Store.define, Store.define, scope_modify_eq, scope_modify_eq, h.size_eq]
    split
    · exact h.outer_eq id
    · exact h.outer_eq id'
  bindings_eq id' := by
    rw [Store.define, Store.define, scope_modify_eq, scope_modify_eq, h.size_eq]
    split
    · dsimp only
      rw [h.bindings_eq]
    · exact h.bindings_eq id'
  callables id' key := by
    rw [Store.define, Store.define, scope_modify_eq, scope_modify_eq, h.size_eq]
    split
    · exact h.callables id key
    · exact h.callables id' key

theorem defineFunction (id : ScopeId) (name : String) (arity : Nat) {callable callable' : Callable}
    (hCallable : callable.Alike callable') :
    (store.defineFunction id name arity callable).Alike
      (store'.defineFunction id name arity callable') where
  size_eq := by simp [Store.defineFunction, h.size_eq]
  outer_eq id' := by
    rw [Store.defineFunction, Store.defineFunction, scope_modify_eq, scope_modify_eq, h.size_eq]
    split
    · exact h.outer_eq id
    · exact h.outer_eq id'
  bindings_eq id' := by
    rw [Store.defineFunction, Store.defineFunction, scope_modify_eq, scope_modify_eq, h.size_eq]
    split
    · exact h.bindings_eq id
    · exact h.bindings_eq id'
  callables id' key := by
    rw [Store.defineFunction, Store.defineFunction, scope_modify_eq, scope_modify_eq, h.size_eq]
    split
    · dsimp only
      rw [Table.get?_insert, Table.get?_insert]
      split
      · exact .some hCallable
      · exact h.callables id key
    · exact h.callables id' key

end Store.Alike

/-- The second machine prints the same text as the first one, to a destination of its own. -/
structure Machine.Alike (destination : Destination) (machine machine' : Machine) : Prop where
  store : machine.store.Alike machine'.store
  env_eq : machine'.env = machine.env
  printer_eq : machine'.printer = { machine.printer with destination }
  callDepth_eq : machine'.callDepth = machine.callDepth
  callLimit_eq : machine'.callLimit = machine.callLimit

namespace Machine.Alike

variable {destination : Destination} {machine machine' : Machine}
  (h : machine.Alike destination machine')
include h

theorem current_eq : machine'.env.current = machine.env.current :=
  congrArg Environment.current h.env_eq

theorem define (id : ScopeId) (name : String) (value : Value) (isMutable : Bool) :
    Machine.Alike destination { machine with store := machine.store.define id name value isMutable }
      { machine' with store := machine'.store.define id name value isMutable } :=
  { h with store := h.store.define id name value isMutable }

theorem print (values : List Value) :
    Machine.Alike destination
      { machine with
        printer := values.foldl (fun printer value => printer.printLine value.display)
          machine.printer }
      { machine' with
        printer := values.foldl (fun printer value => printer.printLine value.display)
          machine'.printer } := by
  obtain ⟨text, hText⟩ := Printer.foldl_printLine values
  refine { h with printer_eq := ?_ }
  dsimp only
  rw [hText, hText, h.printer_eq]

theorem pushScope : Machine.Alike destination machine.pushScope machine'.pushScope where
  store := by
    have hStore := h.store.newInside machine.env.current
    simpa [Machine.pushScope, Environment.push, h.env_eq] using hStore
  env_eq := by
    simp [Machine.pushScope, Environment.push, Store.newInside, h.env_eq, h.store.size_eq]
  printer_eq := h.printer_eq
  callDepth_eq := h.callDepth_eq
  callLimit_eq := h.callLimit_eq

theorem enterFrame (closure : ScopeId) (arguments : List (String × Value)) :
    Machine.Alike destination (machine.enterFrame closure arguments)
      (machine'.enterFrame closure arguments) where
  store := by
    rw [Machine.enterFrame_store, Machine.enterFrame_store, h.store.size_eq]
    apply Store.defineArguments_induction _ (h.store.newInside closure) arguments
    intro store store' name value hStore
    exact hStore.define machine.store.scopes.size name value false
  env_eq := by
    rw [Machine.enterFrame_env, Machine.enterFrame_env, h.store.size_eq]
  printer_eq := h.printer_eq
  callDepth_eq := congrArg (· + 1) h.callDepth_eq
  callLimit_eq := h.callLimit_eq

theorem answers {callable callable' : Callable} (hCallable : callable.Alike callable') :
    callable.Answers (Machine.Alike destination) machine machine' callable' := by
  cases hCallable with
  | print => exact .print
  | user hFunction => exact .user hFunction fun _ arguments => h.enterFrame _ arguments

end Machine.Alike

theorem simulation_alike (destination : Destination) :
    Simulation (Machine.Alike destination) False where
  lookup_eq h name := by
    rw [h.current_eq, h.store.lookup_eq]
  define {machine machine'} h name value isMutable := by
    unfold Exec.define
    rw [h.current_eq]
    exact .done (h.define machine.env.current name value isMutable)
  assign {machine machine'} h name value := by
    unfold Exec.assign
    rw [h.current_eq, h.store.assignmentTarget_eq]
    split
    · exact .done (h.define _ name value true)
    · exact .failed h
    · exact .failed h
  print h values := .done (h.print values)
  pushScope h := h.pushScope
  popScope h := { h with env_eq := congrArg Environment.pop h.env_eq }
  callable {machine machine'} h name arity := by
    rw [h.current_eq]
    exact rel_imp h.answers (h.store.lookupFunction machine.env.current name arity)
  leaveFrame h hLeft :=
    { hLeft with
      env_eq := h.env_eq
      callDepth_eq := congrArg (· - 1) hLeft.callDepth_eq }
  callDepth_lt h hDepth := by
    simpa [h.callDepth_eq, h.callLimit_eq] using hDepth
  callLimit_le h hLimit := by
    left
    simpa [h.callDepth_eq, h.callLimit_eq] using hLimit

theorem Callable.Alike.refl (callable : Callable) : callable.Alike callable := by
  cases callable with
  | print => exact .print
  | user function closure => exact .user (Function.alike_of_erase_eq rfl)

theorem Store.Alike.refl (store : Store) : store.Alike store where
  size_eq := rfl
  outer_eq _ := rfl
  bindings_eq _ := rfl
  callables id key := by
    cases (store.scope id).callables.get? key with
    | none => exact .none
    | some callable => exact .some (.refl callable)

theorem Machine.alike_new (destination destination' : Destination) (callLimit : Nat) :
    Machine.Alike destination' (Machine.new destination callLimit)
      (Machine.new destination' callLimit) where
  store := .refl _
  env_eq := rfl
  printer_eq := rfl
  callDepth_eq := rfl
  callLimit_eq := rfl

theorem Exec.run_follows_of_alike {source source' : Source} (hAlike : source.Alike source') (n : Nat)
    (destination destination' : Destination) (callLimit : Nat) :
    (run n source (Machine.new destination callLimit)).Follows (Machine.Alike destination') False
      (run n source' (Machine.new destination' callLimit)) := by
  have hFunctions : Couples (Machine.Alike destination') False (defineFunctions source.functions)
      (defineFunctions source'.functions) := by
    refine Couples.of_defineFunctions ?_ hAlike.functions
    intro function function' machine machine' hFunction h
    unfold defineFunction
    rw [h.current_eq, hFunction.name_eq, hFunction.parameters_eq]
    exact .done { h with store := h.store.defineFunction _ _ _ (.user hFunction) }
  have hRun := (simulation_alike destination').couples_run (Nat.le_refl n) hAlike hFunctions
  exact hRun.follows (Machine.alike_new destination destination' callLimit)

/-- Programs that are equal up to erasing run alike, wherever they print. -/
theorem Exec.run_agrees {source source' : Source} (h : source.erase = source'.erase) (n : Nat)
    (destination destination' : Destination) (callLimit : Nat) :
    (run n source (Machine.new destination callLimit)).Agrees
      (fun machine machine' =>
        machine'.printer = { machine.printer with destination := destination' } ∧
        machine.printer = { machine'.printer with destination := destination })
      (run n source' (Machine.new destination' callLimit)) := by
  have hFollows :=
    run_follows_of_alike (Source.alike_of_erase_eq h) n destination destination' callLimit
  have hFollows' :=
    run_follows_of_alike (Source.alike_of_erase_eq h.symm) n destination' destination callLimit
  apply (hFollows.agrees hFollows').mono
  intro machine machine' hAlike
  exact ⟨hAlike.1.printer_eq, hAlike.2.printer_eq⟩

end ProcLang
