import ProcLang.Proofs.Machine.Reachable
import ProcLang.Proofs.Machine.Scopes

/-! # Closed machines

The scopes that a machine mentions exist: those around its scopes, those in which its functions were
defined, and those it has entered. Whatever a program does, its machine stays closed.
-/

namespace ProcLang

set_option autoImplicit false

/-- All scopes that are mentioned in a store belong to it. -/
structure Store.Closed (store : Store) : Prop where
  outer_lt : ∀ {id outer}, outer ∈ (store.scope id).outer → outer < store.scopes.size
  closure_lt : ∀ {id key function closure},
    (store.scope id).callables.get? key = some (.user function closure) →
      closure < store.scopes.size

namespace Store.Closed

variable {store : Store} (h : store.Closed)
include h

theorem lt_of_mem_chain {id j : ScopeId} (hId : id < store.scopes.size) (hMem : j ∈ store.chain id) :
    j < store.scopes.size := by
  rcases List.mem_cons.mp hMem with rfl | hOuter
  · exact hId
  · exact h.outer_lt hOuter

theorem closure_lt_of_lookupFunction {id : ScopeId} {name : String} {arity : Nat}
    {function : Function} {closure : ScopeId}
    (hFound : store.lookupFunction id name arity = some (.user function closure)) :
    closure < store.scopes.size := by
  obtain ⟨j, -, hGet⟩ := List.exists_of_findSome?_eq_some hFound
  exact h.closure_lt hGet

theorem define (id : ScopeId) (name : String) (value : Value) (isMutable : Bool) :
    (store.define id name value isMutable).Closed := by
  by_cases hId : id < store.scopes.size
  · constructor
    · intro j outer hOuter
      rw [outer_define hId] at hOuter
      rw [size_define]
      exact h.outer_lt hOuter
    · intro j key function closure hGet
      rw [callables_define hId] at hGet
      rw [size_define]
      exact h.closure_lt hGet
  · rw [Store.define, modify_of_size_le (Nat.le_of_not_lt hId)]
    exact h

theorem newInside {parent : ScopeId} (hParent : parent < store.scopes.size) :
    (store.newInside parent).2.Closed := by
  constructor
  · intro id outer hOuter
    rw [scope_newInside] at hOuter
    rw [size_newInside]
    split at hOuter
    · exact Nat.lt_succ_of_lt (h.lt_of_mem_chain hParent hOuter)
    · exact Nat.lt_succ_of_lt (h.outer_lt hOuter)
  · intro id key function closure hGet
    rw [scope_newInside] at hGet
    rw [size_newInside]
    split at hGet
    · cases hGet
    · exact Nat.lt_succ_of_lt (h.closure_lt hGet)

theorem defineFunction {id closure : ScopeId} (hClosure : closure < store.scopes.size) (name : String)
    (arity : Nat) (function : Function) :
    (store.defineFunction id name arity (.user function closure)).Closed := by
  constructor
  · intro j outer hOuter
    rw [Store.defineFunction, scope_modify_eq] at hOuter
    rw [Store.defineFunction, size_modify]
    split at hOuter
    · exact h.outer_lt hOuter
    · exact h.outer_lt hOuter
  · intro j key function' closure' hGet
    rw [Store.defineFunction, scope_modify_eq] at hGet
    rw [Store.defineFunction, size_modify]
    split at hGet
    · rw [Table.get?_insert] at hGet
      split at hGet
      · cases hGet
        exact hClosure
      · exact h.closure_lt hGet
    · exact h.closure_lt hGet

theorem defineArguments (id : ScopeId) (arguments : List (String × Value)) :
    (store.defineArguments id arguments).Closed :=
  of_defineArguments (fun name value hStore => hStore.define id name value false) h arguments

end Store.Closed

theorem Store.size_defineArguments (store : Store) (id : ScopeId) (arguments : List (String × Value)) :
    (store.defineArguments id arguments).scopes.size = store.scopes.size := by
  induction arguments generalizing store with
  | nil => rfl
  | cons argument arguments ih => exact (ih _).trans (size_define ..)

theorem Machine.size_enterFrame (machine : Machine) (closure : ScopeId)
    (arguments : List (String × Value)) :
    (machine.enterFrame closure arguments).store.scopes.size = machine.store.scopes.size + 1 := by
  rw [enterFrame_store, Store.size_defineArguments, Store.size_newInside]

/-- The scopes that were entered exist too. -/
structure Machine.Closed (machine : Machine) : Prop where
  store : machine.store.Closed
  root_lt : machine.env.root < machine.store.scopes.size
  entered_lt : ∀ id ∈ machine.env.entered, id < machine.store.scopes.size

/-- Nothing is lost of a closed machine. -/
def Machine.StaysClosed (machine machine' : Machine) : Prop :=
  machine.Closed → machine'.Closed ∧ machine.store.scopes.size ≤ machine'.store.scopes.size

instance : Std.Refl Machine.StaysClosed where
  refl _ h := ⟨h, Nat.le_refl _⟩

instance : IsTrans Machine Machine.StaysClosed where
  trans _ _ _ hFirst hSecond h := by
    obtain ⟨hClosed, hSize⟩ := hFirst h
    obtain ⟨hClosed', hSize'⟩ := hSecond hClosed
    exact ⟨hClosed', Nat.le_trans hSize hSize'⟩

namespace Machine.Closed

variable {machine : Machine} (h : machine.Closed)
include h

theorem current_lt : machine.env.current < machine.store.scopes.size := by
  have hEntered := h.entered_lt
  unfold Environment.current
  cases hCases : machine.env.entered with
  | nil => exact h.root_lt
  | cons id rest =>
    rw [hCases] at hEntered
    exact hEntered id List.mem_cons_self

theorem define (id : ScopeId) (name : String) (value : Value) (isMutable : Bool) :
    Machine.Closed { machine with store := machine.store.define id name value isMutable } where
  store := h.store.define id name value isMutable
  root_lt := by simpa using h.root_lt
  entered_lt := by simpa using h.entered_lt

theorem pushScope : machine.pushScope.Closed where
  store := h.store.newInside h.current_lt
  root_lt := by
    change _ < (machine.store.newInside _).2.scopes.size
    rw [Store.size_newInside]
    exact Nat.lt_succ_of_lt h.root_lt
  entered_lt := by
    change ∀ id ∈ machine.store.scopes.size :: machine.env.entered,
      id < (machine.store.newInside _).2.scopes.size
    rw [Store.size_newInside]
    intro id hMem
    rcases List.mem_cons.mp hMem with rfl | hMem
    · exact Nat.lt_succ_self _
    · exact Nat.lt_succ_of_lt (h.entered_lt id hMem)

theorem popScope : machine.popScope.Closed where
  store := h.store
  root_lt := h.root_lt
  entered_lt id hMem := h.entered_lt id (List.mem_of_mem_tail hMem)

theorem enterFrame {closure : ScopeId} (hClosure : closure < machine.store.scopes.size)
    (arguments : List (String × Value)) : (machine.enterFrame closure arguments).Closed := by
  have hSize := machine.size_enterFrame closure arguments
  constructor
  · exact (h.store.newInside hClosure).defineArguments _ arguments
  · rw [hSize]
    exact Nat.lt_succ_self _
  · exact nofun

theorem leaveFrame {left : Machine} (hLeft : left.Closed)
    (hSize : machine.store.scopes.size ≤ left.store.scopes.size) :
    (left.leaveFrame machine.env).Closed where
  store := hLeft.store
  root_lt := Nat.lt_of_lt_of_le h.root_lt hSize
  entered_lt id hMem := Nat.lt_of_lt_of_le (h.entered_lt id hMem) hSize

end Machine.Closed

namespace Exec

theorem lasting_staysClosed : Lasting Machine.StaysClosed where
  define name value isMutable machine h := ⟨h.define _ name value isMutable, by simp⟩
  assign name value machine := by
    unfold assign
    split
    · intro h
      exact ⟨h.define _ name value true, by simp⟩
    · exact refl_of Machine.StaysClosed machine
    · exact refl_of Machine.StaysClosed machine
  print values machine h := ⟨⟨h.store, h.root_lt, h.entered_lt⟩, Nat.le_refl _⟩
  popScope {machine left} hKept h := by
    obtain ⟨hLeft, hSize⟩ := hKept h.pushScope
    refine ⟨hLeft.popScope, ?_⟩
    have hPushed : machine.pushScope.store.scopes.size = machine.store.scopes.size + 1 :=
      Store.size_newInside ..
    change _ ≤ left.store.scopes.size
    omega
  leaveFrame {machine left name arity function closure arguments} hFunction hLimit hKept h := by
    obtain ⟨-, hFound⟩ := of_lookupFunction_done hFunction
    have hFrameSize := machine.size_enterFrame closure arguments
    have hFrame := h.enterFrame (h.store.closure_lt_of_lookupFunction hFound) arguments
    obtain ⟨hLeft, hSize⟩ := hKept hFrame
    refine ⟨h.leaveFrame hLeft (by omega), ?_⟩
    change _ ≤ left.store.scopes.size
    omega

theorem keeps_staysClosed_defineFunction (function : Function) :
    Keeps Machine.StaysClosed (defineFunction function) := by
  intro machine h
  refine ⟨⟨h.store.defineFunction h.current_lt _ _ function, ?_, ?_⟩, ?_⟩
  all_goals simp only [Store.defineFunction, Store.size_modify]
  · exact h.root_lt
  · exact h.entered_lt
  · exact Nat.le_refl _

end Exec

/-- A new machine knows one function, which is not written in the language. -/
theorem Machine.scope_new (destination : Destination) (callLimit : Nat) (id : ScopeId) :
    (Machine.new destination callLimit).store.scope id =
      if id = 0 then { callables := Table.insert ∅ ("print", 1) .print } else {} := by
  cases id with
  | zero => rfl
  | succ id => exact Store.scope_of_size_le (Nat.succ_le_succ (Nat.zero_le id))

theorem Machine.user_not_in_new (destination : Destination) (callLimit : Nat) {id : ScopeId}
    {key : String × Nat} {function : Function} {closure : ScopeId} :
    ((Machine.new destination callLimit).store.scope id).callables.get? key ≠
      some (.user function closure) := by
  intro hGet
  rw [scope_new] at hGet
  split at hGet
  · rw [Table.get?_insert] at hGet
    split at hGet <;> cases hGet
  · cases hGet

theorem Machine.closed_new (destination : Destination) (callLimit : Nat) :
    (Machine.new destination callLimit).Closed := by
  refine ⟨⟨?_, ?_⟩, Nat.one_pos, nofun⟩
  · intro id outer hOuter
    rw [scope_new] at hOuter
    split at hOuter <;> cases hOuter
  · intro id key function closure hGet
    exact (user_not_in_new destination callLimit hGet).elim

/-- All machines that occur are closed. -/
theorem Machine.Reachable.closed {callLimit : Nat} {machine : Machine}
    (h : Machine.Reachable callLimit machine) : machine.Closed := by
  induction h with
  | new destination => exact Machine.closed_new destination callLimit
  | pushScope _ ih => exact ih.pushScope
  | popScope _ ih => exact ih.popScope
  | define _ hDone ih =>
    cases hDone
    exact ih.define _ _ _ _
  | @defineFunction machine function left _ hDone ih =>
    exact ((Exec.keeps_staysClosed_defineFunction function machine).of_done hDone ih).1
  | task _ hLeft ih => exact (Task.kept_of_left? Exec.lasting_staysClosed hLeft ih).1
  | @run machine n source left _ hLeft ih =>
    have hRun : Exec.Keeps Machine.StaysClosed (Exec.run n source) :=
      Exec.lasting_staysClosed.run Exec.keeps_staysClosed_defineFunction source
    exact ((hRun machine).of_machine? hLeft ih).1
  | enter _ hEnters ih =>
    obtain ⟨before, hBefore, rfl | rfl⟩ := hEnters.kept Exec.lasting_staysClosed
    · exact (hBefore ih).1
    · exact (hBefore ih).1.pushScope
  | body _ hFunction _ ih =>
    obtain ⟨-, hFound⟩ := Exec.of_lookupFunction_done hFunction
    exact ih.enterFrame (ih.store.closure_lt_of_lookupFunction hFound) _

end ProcLang
