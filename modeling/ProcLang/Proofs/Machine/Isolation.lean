import ProcLang.Proofs.Machine.Reachable
import ProcLang.Proofs.Machine.Twins

/-! # Isolated calls

Functions are defined in the global scope, so that the body of a function runs in scopes around which
there is nothing but the global one. What a call does therefore depends on the global scope, the
arguments and the number of calls under way, and the scopes of its caller are left alone.
-/

namespace ProcLang

set_option autoImplicit false

variable {n : Nat}

/-- Functions are defined in the global scope and nowhere else. -/
structure Store.Grounded (store : Store) : Prop where
  pos : 0 < store.scopes.size
  outer_eq : (store.scope 0).outer = []
  functionFree : ∀ id, id ≠ 0 → ∀ key, (store.scope id).callables.get? key = none
  closure_eq : ∀ {key function closure},
    (store.scope 0).callables.get? key = some (.user function closure) → closure = 0

namespace Store.Grounded

variable {store : Store} (h : store.Grounded)
include h

/-- A scope is changed, but neither the scopes around it nor its functions. -/
theorem define (id : ScopeId) (name : String) (value : Value) (isMutable : Bool) :
    (store.define id name value isMutable).Grounded := by
  have hScope : ∀ id', ((store.define id name value isMutable).scope id').outer =
        (store.scope id').outer ∧
      ((store.define id name value isMutable).scope id').callables = (store.scope id').callables := by
    intro id'
    rw [Store.define, scope_modify_eq]
    split
    · rename_i hSame
      rw [hSame.1]
      exact ⟨rfl, rfl⟩
    · exact ⟨rfl, rfl⟩
  constructor
  · rw [size_define]
    exact h.pos
  · rw [(hScope 0).1]
    exact h.outer_eq
  · intro id' hLocal key
    rw [(hScope id').2]
    exact h.functionFree id' hLocal key
  · intro key function closure hFound
    rw [(hScope 0).2] at hFound
    exact h.closure_eq hFound

theorem newInside (parent : ScopeId) : (store.newInside parent).2.Grounded := by
  have hGlobal : (store.newInside parent).2.scope 0 = store.scope 0 := by
    rw [scope_newInside, if_neg (Nat.ne_of_lt h.pos)]
  constructor
  · rw [size_newInside]
    exact Nat.succ_pos store.scopes.size
  · rw [hGlobal]
    exact h.outer_eq
  · intro id hLocal key
    rw [scope_newInside]
    split
    · rfl
    · exact h.functionFree id hLocal key
  · intro key function closure hFound
    rw [hGlobal] at hFound
    exact h.closure_eq hFound

theorem defineFunction (name : String) (arity : Nat) (function : Function) :
    (store.defineFunction 0 name arity (.user function 0)).Grounded where
  pos := by
    rw [Store.defineFunction, size_modify]
    exact h.pos
  outer_eq := by
    rw [Store.defineFunction, scope_modify h.pos, if_pos rfl]
    exact h.outer_eq
  functionFree id hLocal key := by
    rw [Store.defineFunction, scope_modify h.pos, if_neg hLocal]
    exact h.functionFree id hLocal key
  closure_eq {key function' closure} hFound := by
    rw [Store.defineFunction, scope_modify h.pos, if_pos rfl, Table.get?_insert] at hFound
    split at hFound
    · cases hFound
      rfl
    · exact h.closure_eq hFound

/-- A function that is found is found in the global scope. -/
theorem of_lookupFunction {id : ScopeId} {name : String} {arity : Nat} {function : Function}
    {closure : ScopeId} (hFound : store.lookupFunction id name arity = some (.user function closure)) :
    (store.scope 0).callables.get? (name, arity) = some (.user function closure) ∧ closure = 0 := by
  obtain ⟨owner, -, hOwner⟩ := List.exists_of_findSome?_eq_some hFound
  have hGlobal : owner = 0 := by
    by_contra hLocal
    rw [h.functionFree owner hLocal] at hOwner
    cases hOwner
  subst hGlobal
  exact ⟨hOwner, h.closure_eq hOwner⟩

end Store.Grounded

theorem Machine.grounded_enterFrame {machine : Machine} (h : machine.store.Grounded)
    (closure : ScopeId) (arguments : List (String × Value)) :
    (machine.enterFrame closure arguments).store.Grounded := by
  rw [Machine.enterFrame_store]
  apply Store.of_defineArguments _ (h.newInside closure)
  intro store name value hStore
  exact hStore.define _ name value false

/-- Functions are still defined in the global scope only. -/
def Machine.StaysGrounded (machine left : Machine) : Prop :=
  machine.store.Grounded → left.store.Grounded

instance : Std.Refl Machine.StaysGrounded where
  refl _ h := h

instance : IsTrans Machine Machine.StaysGrounded where
  trans _ _ _ h h' := h' ∘ h

namespace Exec

theorem lasting_staysGrounded : Lasting Machine.StaysGrounded where
  define name value isMutable machine h := h.define machine.env.current name value isMutable
  assign name value machine := by
    unfold assign
    split
    · intro h
      exact h.define _ name value true
    · exact refl_of Machine.StaysGrounded machine
    · exact refl_of Machine.StaysGrounded machine
  print _ _ h := h
  popScope {machine _} hLeft h := hLeft (h.newInside machine.env.current)
  leaveFrame _ _ hLeft h := hLeft (Machine.grounded_enterFrame h _ _)

theorem grounded_of_defineFunctions {functions : List Function} {machine left : Machine}
    (h : machine.store.Grounded) (hGlobal : machine.env.current = 0)
    (hDone : defineFunctions functions machine = .done () left) : left.store.Grounded := by
  induction functions generalizing machine with
  | nil =>
    cases hDone
    exact h
  | cons function rest ih =>
    obtain ⟨_, machine₁, hFunction, hRest⟩ := of_bind_done hDone
    cases hFunction
    apply ih _ _ hRest
    · dsimp only
      rw [hGlobal]
      exact h.defineFunction function.name function.parameters.length function
    · exact hGlobal

end Exec

/-- At every point of a run that starts in the global scope. -/
theorem Task.Reached.grounded {source : Source} {start machine : Machine} {caller : Option Function}
    {k : Nat} {task : Task} (h : Task.Reached n source start caller k task machine)
    (hStart : start.store.Grounded) (hGlobal : start.env.current = 0) : machine.store.Grounded := by
  have hGlobals := Exec.lasting_staysGrounded.defineGlobals (n := n)
  induction h with
  | global _ _ hBefore => exact (hGlobals _ start).of_done hBefore hStart
  | @main machine₁ _ hDone hFunctions =>
    -- The globals have been defined, and the global scope is the current one again.
    have hResumes := (Exec.lasting_resumes.defineGlobals source.globals start).of_done hDone
    have hGlobal₁ : machine₁.env.current = 0 := by
      rw [hResumes.env_eq]
      exact hGlobal
    have hGrounded₁ := (hGlobals _ start).of_done hDone hStart
    exact Exec.grounded_of_defineFunctions hGrounded₁ hGlobal₁ hFunctions
  | enter _ hEnters ih =>
    obtain ⟨before, hBefore, rfl | rfl⟩ := hEnters.kept Exec.lasting_staysGrounded
    · exact hBefore ih
    · exact (hBefore ih).newInside before.env.current
  | body _ hFunction _ ih =>
    obtain ⟨rfl, -⟩ := Exec.of_lookupFunction_done hFunction
    exact Machine.grounded_enterFrame ih _ _

theorem Machine.grounded_new (destination : Destination) (callLimit : Nat) :
    (Machine.new destination callLimit).store.Grounded where
  pos := Nat.one_pos
  outer_eq := rfl
  functionFree id hLocal key := by
    have hSize : (Machine.new destination callLimit).store.scopes.size ≤ id :=
      Nat.pos_of_ne_zero hLocal
    rw [Store.scope_of_size_le hSize]
    rfl
  closure_eq {key function closure} hFound := by
    change (Table.insert ∅ ("print", 1) Callable.print).get? key = _ at hFound
    rw [Table.get?_insert] at hFound
    split at hFound <;> cases hFound

/-- A machine from which the same calls can be made: it has the global scope in common with the first
one, as many calls are under way, and there are no functions in the scopes below the global one. -/
structure Machine.Beside (machine other : Machine) : Prop where
  global_eq : other.store.scope 0 = machine.store.scope 0
  callDepth_eq : other.callDepth = machine.callDepth
  callLimit_eq : other.callLimit = machine.callLimit
  global_mem : 0 ∈ other.store.chain other.env.current
  functionFree : ∀ id ∈ other.store.chain other.env.current, id ≠ 0 → ∀ key,
    (other.store.scope id).callables.get? key = none

/-- The same scopes are entered, and all that has changed in the scopes that there were are the values
of mutable globals. -/
structure Machine.Spares (machine left : Machine) : Prop where
  resumes : machine.Resumes left
  store : machine.store.Spares left.store

theorem Store.Grounded.scope_twins {store : Store} (h : store.Grounded) (a b : Nat) :
    (store.scope 0).Twins a b (store.scope 0) where
  bindings_eq := rfl
  callables key := by
    cases hFound : (store.scope 0).callables.get? key with
    | none => exact .none
    | some callable =>
      cases callable with
      | print => exact .some .print
      | user function closure => exact .some (.user (.inl ⟨h.closure_eq hFound, h.closure_eq hFound⟩))
  outer := by
    rw [h.outer_eq]
    exact .nil

/-- Before a call, no scope has been made in the course of it. -/
theorem Machine.Alongside.start {machine other : Machine} (hPos : 0 < machine.store.scopes.size)
    (hPos' : 0 < other.store.scopes.size)
    (hGlobal : (machine.store.scope 0).Twins machine.store.scopes.size other.store.scopes.size
      (other.store.scope 0))
    (hDepth : other.callDepth = machine.callDepth) (hLimit : other.callLimit = machine.callLimit) :
    Machine.Alongside machine other machine other where
  store :=
    { pos := hPos
      pos' := hPos'
      size := ⟨Nat.le_refl _, Nat.le_refl _, by simp⟩
      spares := .refl machine.store
      scope := by
        rintro id id' (⟨rfl, rfl⟩ | ⟨hNew, hNew', -⟩)
        · exact hGlobal
        · rw [Store.scope_of_size_le hNew, Store.scope_of_size_le hNew']
          exact .of_outer .nil }
  callDepth_eq := hDepth
  callLimit_eq := hLimit
  prints := ⟨"", by simp, by simp⟩

theorem Machine.Alongside.global_eq {machine other left left' : Machine}
    (h : Machine.Alongside machine other left left') (h' : Machine.Alongside other machine left' left)
    (hGlobal : other.store.scope 0 = machine.store.scope 0) :
    left'.store.scope 0 = left.store.scope 0 := by
  have hEvolves := h.store.spares.global
  have hEvolves' := h'.store.spares.global
  -- Twins have the same variables; functions and outer scopes are those of before the call.
  rw [hGlobal] at hEvolves'
  apply Scope.ext
  · exact (h.store.scope (.inl ⟨rfl, rfl⟩)).bindings_eq
  · exact hEvolves'.callables_eq.trans hEvolves.callables_eq.symm
  · exact hEvolves'.outer_eq.trans hEvolves.outer_eq.symm

namespace Exec

variable {name : String} {arguments : List Value} {function : Function} {machine other : Machine}

/-- One direction: the call ends from the other machine as it does from the first one. -/
theorem call_follows (h : Machine.Alongside machine other machine other)
    (hFound : machine.store.lookupFunction machine.env.current name arguments.length =
      some (.user function 0))
    (hFound' : other.store.lookupFunction other.env.current name arguments.length =
      some (.user function 0)) (j : Nat) :
    (call (j + 1) name arguments machine).Follows (Machine.Alongside machine other) False
      (call (j + 1) name arguments other) := by
  have hBody : Couples (Machine.Twins machine other) False (executeBlock j function.body)
      (executeBlock j function.body) :=
    (AllCouple.all (simulation_twins machine other) (Nat.le_refl j)).executeBlock
      (Function.alike_of_erase_eq rfl).body
  have hFrame : (inFrame 0 (function.parameters.zip arguments) (executeBlock j function.body)
      machine).Follows (Machine.Alongside machine other) False
      (inFrame 0 (function.parameters.zip arguments) (executeBlock j function.body) other) := by
    unfold inFrame
    rw [h.callDepth_eq, h.callLimit_eq]
    split
    · exact .failed h
    · have hEnter := h.enterFrame (.inl ⟨rfl, rfl⟩) (function.parameters.zip arguments)
      exact (hBody.follows hEnter).mapMachine (fun hLeft => hLeft.leaveFrame _ _) (fun _ => rfl)
        fun _ => rfl
  rw [call_of_user hFound, call_of_user hFound']
  exact hFrame.bind fun completion => .of_pure completion.value

/-- Both directions. -/
theorem call_agrees (h : machine.Beside other) (hGrounded : machine.store.Grounded)
    (hFound : machine.store.lookupFunction machine.env.current name arguments.length =
      some (.user function 0)) (j : Nat) :
    (call (j + 1) name arguments machine).Agrees
      (fun left left' => Machine.Alongside machine other left left' ∧
        Machine.Alongside other machine left' left)
      (call (j + 1) name arguments other) := by
  obtain ⟨hGlobal, -⟩ := hGrounded.of_lookupFunction hFound
  have hGlobal' : (other.store.scope 0).callables.get? (name, arguments.length) =
      some (.user function 0) := by
    rw [h.global_eq]
    exact hGlobal
  have hFound' : other.store.lookupFunction other.env.current name arguments.length =
      some (.user function 0) := by
    -- The scopes below the global one hold no functions, so that the search gets there.
    rw [← hGlobal']
    exact findSome?_eq_of_mem h.global_mem fun id hMem hLocal => h.functionFree id hMem hLocal _
  -- A store without scopes would have no functions.
  have hPos' : 0 < other.store.scopes.size := by
    apply Nat.pos_of_ne_zero
    intro hEmpty
    rw [Store.scope_of_size_le (Nat.le_of_eq hEmpty)] at hGlobal'
    cases hGlobal'
  have hStart : Machine.Alongside machine other machine other := by
    apply Machine.Alongside.start hGrounded.pos hPos' _ h.callDepth_eq h.callLimit_eq
    rw [h.global_eq]
    exact hGrounded.scope_twins _ _
  have hStart' : Machine.Alongside other machine other machine := by
    apply Machine.Alongside.start hPos' hGrounded.pos _ h.callDepth_eq.symm h.callLimit_eq.symm
    rw [h.global_eq]
    exact hGrounded.scope_twins _ _
  exact (call_follows hStart hFound hFound' j).agrees (call_follows hStart' hFound' hFound j)

/-- A call of a function depends on its caller only by the global scope, and changes nothing of its
caller but the values of mutable globals. -/
theorem call_isolated {source : Source} {destination : Destination} {callLimit k : Nat}
    {caller : Option Function} {slot : Option Signature} {closure : ScopeId}
    (hReached : Task.Reached n source (Machine.new destination callLimit) caller k
      (.call name slot arguments) machine)
    (hFunction : lookupFunction name arguments.length machine =
      .done (.user function closure) machine)
    (hOther : machine.Beside other) (j : Nat) :
    (call j name arguments machine).Agrees
      (fun left left' =>
        left'.store.scope 0 = left.store.scope 0 ∧
        (∃ text, left.printer = { machine.printer with text := machine.printer.text ++ text } ∧
          left'.printer = { other.printer with text := other.printer.text ++ text }) ∧
        machine.Spares left ∧ other.Spares left')
      (call j name arguments other) := by
  have hGrounded := hReached.grounded (Machine.grounded_new destination callLimit) rfl
  obtain ⟨-, hFound⟩ := of_lookupFunction_done hFunction
  obtain ⟨-, rfl⟩ := hGrounded.of_lookupFunction hFound
  cases j with
  | zero => exact .exhausted
  | succ j =>
    have hResumes := (AllBalanced.all (j + 1)).call name arguments
    apply ((call_agrees hOther hGrounded hFound j).and (hResumes machine) (hResumes other)).mono
    rintro left left' ⟨⟨hLeft, hLeft'⟩, hLeftResumes, hLeftResumes'⟩
    have hGlobal := hLeft.global_eq hLeft' hOther.global_eq
    exact ⟨hGlobal, hLeft.prints, ⟨hLeftResumes, hLeft.store.spares⟩,
      ⟨hLeftResumes', hLeft'.store.spares⟩⟩

end Exec

namespace Bump

def number (n : Int) : Expr :=
  .literal (.integer n) none

def global : Expr :=
  .access "g" none none

/-- Adds to a global variable and prints it. -/
def bump : Function :=
  ⟨"bump", ["n"], ["Integer"], some "Integer",
    [.assignment global (.binary .add global (.access "n" none none) none),
      .expression (.call "print" [global] none none), .returns global], none⟩

/-- Has a variable of its own by the name of the global one. -/
def main : Function :=
  ⟨"main", [], [], some "Integer",
    [.declaration "g" none (some (number 5)) none, .returns (.call "bump" [number 2] none none)],
    none⟩

def source : Source :=
  ⟨[⟨"g", none, true, some (number 1), none⟩], [bump, main]⟩

/-- Makes the call from a scope with another variable of that name. -/
def elsewhere (machine : Machine) : Machine :=
  let inside := Machine.pushScope { machine with env := ⟨0, []⟩ }
  { inside with store := inside.store.define inside.env.current "g" (.boolean true) false }

end Bump

namespace Exec

open Bump

theorem call_isolated_bump : ∃ machine left left',
    call 20 "bump" [.integer 2] machine = .done (.integer 3) left ∧
    call 20 "bump" [.integer 2] (elsewhere machine) = .done (.integer 3) left' ∧
    left'.store.scope 0 = left.store.scope 0 ∧ machine.Spares left ∧
    (elsewhere machine).Spares left' := by
  obtain ⟨machine, hReached, hFunction, hOther, ⟨left, hLeft⟩, left', hLeft'⟩ : ∃ machine,
      Task.Reached 30 source (Machine.new .buffer 10) (some main) 25
        (.call "bump" none [.integer 2]) machine ∧
      lookupFunction "bump" 1 machine = .done (.user bump 0) machine ∧
      machine.Beside (elsewhere machine) ∧
      (∃ left, call 20 "bump" [.integer 2] machine = .done (.integer 3) left) ∧
      ∃ left, call 20 "bump" [.integer 2] (elsewhere machine) = .done (.integer 3) left := by
    have hMain := @Task.Reached.main 30 source (Machine.new .buffer 10) _ _ rfl rfl
    have hBody := hMain.body rfl (Nat.zero_lt_succ 9)
    have hReturns := (hBody.enter (.rest rfl)).enter .statement
    have hCall := (hReturns.enter .returned).enter (.callee rfl)
    refine ⟨_, hCall, rfl, ⟨rfl, rfl, rfl, ?_, ?_⟩, ⟨_, rfl⟩, ⟨_, rfl⟩⟩
    · exact .tail _ (.head _)
    · intro id hMem hLocal key
      have hIds : id ∈ [2, 0] := hMem
      obtain rfl : id = 2 := by simpa [hLocal] using hIds
      rfl
  have hAgrees := call_isolated hReached hFunction hOther 20
  rw [hLeft, hLeft'] at hAgrees
  cases hAgrees with
  | done h => exact ⟨machine, left, left', hLeft, hLeft', h.1, h.2.2⟩

end Exec

end ProcLang
