import ProcLang.Proofs.Machine.Coupling
import ProcLang.Proofs.Machine.Scopes

/-! # Twins

Two machines that share the global scope make the same call. From then on each scope that one of them
makes has a partner, the scope that the other one makes at the same time. The calls reach the global
scope and partners only, so that they cannot tell the two machines apart, and of the scopes that were
there before nothing changes but the values of mutable globals.
-/

namespace ProcLang

set_option autoImplicit false

variable {a b id id' : Nat} {name : String} {value : Value} {isMutable : Bool}

namespace Store

/-- Scopes that two stores made at the same time after they had `a` and `b` scopes. -/
def Fresh (a b id id' : Nat) : Prop :=
  a ≤ id ∧ b ≤ id' ∧ id - a = id' - b

/-- The global scope is a partner of the global scope. -/
def Partners (a b id id' : Nat) : Prop :=
  id = 0 ∧ id' = 0 ∨ Fresh a b id id'

theorem Fresh.succ (h : Fresh a b id id') : Fresh a b (id + 1) (id' + 1) := by
  unfold Fresh at *
  omega

theorem Partners.eq_iff (ha : 0 < a) (hb : 0 < b) {j j' : Nat} (h : Partners a b id id')
    (hOther : Partners a b j j') : j = id ↔ j' = id' := by
  unfold Partners Fresh at h hOther
  omega

theorem Partners.lt_iff (ha : 0 < a) (hb : 0 < b) {size size' : Nat} (h : Partners a b id id')
    (hSize : Fresh a b size size') : id < size ↔ id' < size' := by
  unfold Partners Fresh at h
  unfold Fresh at hSize
  omega

end Store

/-- The same variable with another value, if it is mutable. -/
structure Binding.Evolves (binding binding' : Binding) : Prop where
  isMutable_eq : binding'.isMutable = binding.isMutable
  value_eq : binding.isMutable = false → binding'.value = binding.value

structure Scope.Evolves (scope scope' : Scope) : Prop where
  callables_eq : scope'.callables = scope.callables
  outer_eq : scope'.outer = scope.outer
  bindings : ∀ name, Option.Rel Binding.Evolves (scope.bindings.get? name) (scope'.bindings.get? name)

/-- All scopes are as they were, except for the values of the mutable globals and for new scopes. -/
structure Store.Spares (start store : Store) : Prop where
  size_le : start.scopes.size ≤ store.scopes.size
  locals_eq : ∀ id, id ≠ 0 → id < start.scopes.size → store.scope id = start.scope id
  global : (start.scope 0).Evolves (store.scope 0)

theorem Binding.Evolves.refl (binding : Binding) : binding.Evolves binding :=
  ⟨rfl, fun _ => rfl⟩

theorem Scope.Evolves.refl (scope : Scope) : scope.Evolves scope where
  callables_eq := rfl
  outer_eq := rfl
  bindings name := by
    cases scope.bindings.get? name with
    | none => exact .none
    | some binding => exact .some (.refl binding)

/-- A mutable variable gets another value. -/
theorem Scope.Evolves.insert {scope scope' : Scope} {binding : Binding} (h : scope.Evolves scope')
    (hBinding : scope'.bindings.get? name = some binding) (hMutable : binding.isMutable = true)
    (value : Value) :
    scope.Evolves { scope' with bindings := scope'.bindings.insert name ⟨value, true⟩ } where
  callables_eq := h.callables_eq
  outer_eq := h.outer_eq
  bindings name' := by
    rw [Table.get?_insert]
    split
    · rename_i hSame
      subst hSame
      have hEvolves := h.bindings name
      rw [hBinding] at hEvolves
      generalize scope.bindings.get? name = old? at hEvolves ⊢
      cases hEvolves with
      | @some old _ hOld =>
        have hOldMutable : old.isMutable = true := hOld.isMutable_eq.symm.trans hMutable
        exact .some ⟨hOldMutable.symm, fun hImmutable => by simp [hOldMutable] at hImmutable⟩
    · exact h.bindings name'

namespace Store.Spares

variable {start store : Store}

theorem refl (store : Store) : store.Spares store :=
  ⟨Nat.le_refl _, fun _ _ _ => rfl, .refl _⟩

theorem newInside (h : start.Spares store) (hPos : 0 < start.scopes.size) (parent : ScopeId) :
    start.Spares (store.newInside parent).2 where
  size_le := by
    rw [size_newInside]
    exact Nat.le_succ_of_le h.size_le
  locals_eq id hLocal hOld := by
    rw [scope_newInside, if_neg (Nat.ne_of_lt (Nat.lt_of_lt_of_le hOld h.size_le))]
    exact h.locals_eq id hLocal hOld
  global := by
    rw [scope_newInside, if_neg (Nat.ne_of_lt (Nat.lt_of_lt_of_le hPos h.size_le))]
    exact h.global

/-- A definition in a new scope. -/
theorem define (h : start.Spares store) (hPos : 0 < start.scopes.size)
    (hNew : start.scopes.size ≤ id) (name : String) (value : Value) (isMutable : Bool) :
    start.Spares (store.define id name value isMutable) where
  size_le := by
    rw [size_define]
    exact h.size_le
  locals_eq id' hLocal hOld := by
    have hOther : id' ≠ id := Nat.ne_of_lt (Nat.lt_of_lt_of_le hOld hNew)
    rw [Store.define, scope_modify_eq, if_neg (fun hSame => hOther hSame.1)]
    exact h.locals_eq id' hLocal hOld
  global := by
    have hOther : 0 ≠ id := Nat.ne_of_lt (Nat.lt_of_lt_of_le hPos hNew)
    rw [Store.define, scope_modify_eq, if_neg (fun hSame => hOther hSame.1)]
    exact h.global

/-- A mutable global gets another value. -/
theorem assign_global (h : start.Spares store) {binding : Binding}
    (hBinding : (store.scope 0).bindings.get? name = some binding)
    (hMutable : binding.isMutable = true) (value : Value) :
    start.Spares (store.define 0 name value true) where
  size_le := by
    rw [size_define]
    exact h.size_le
  locals_eq id hLocal hOld := by
    rw [Store.define, scope_modify_eq, if_neg (fun hSame => hLocal hSame.1)]
    exact h.locals_eq id hLocal hOld
  global := by
    rw [Store.define, scope_modify_eq, if_pos ⟨rfl, lt_size_of_get? hBinding⟩]
    exact h.global.insert hBinding hMutable value

end Store.Spares

inductive Callable.Twins (a b : Nat) : Callable → Callable → Prop
  | print : Twins a b .print .print
  | user {function closure closure'} (hClosure : Store.Partners a b closure closure') :
    Twins a b (.user function closure) (.user function closure')

structure Scope.Twins (a b : Nat) (scope scope' : Scope) : Prop where
  bindings_eq : scope'.bindings = scope.bindings
  callables : ∀ key, Option.Rel (Callable.Twins a b) (scope.callables.get? key)
    (scope'.callables.get? key)
  outer : List.Forall₂ (Store.Partners a b) scope.outer scope'.outer

theorem Scope.Twins.of_outer {outer outer' : List ScopeId}
    (h : List.Forall₂ (Store.Partners a b) outer outer') :
    Scope.Twins a b { outer } { outer := outer' } :=
  ⟨rfl, fun _ => .none, h⟩

/-- What has become of two stores in the course of a call that both make. -/
structure Store.Twins (start start' store store' : Store) : Prop where
  pos : 0 < start.scopes.size
  pos' : 0 < start'.scopes.size
  size : Fresh start.scopes.size start'.scopes.size store.scopes.size store'.scopes.size
  scope : ∀ {id id'}, Partners start.scopes.size start'.scopes.size id id' →
    (store.scope id).Twins start.scopes.size start'.scopes.size (store'.scope id')
  spares : start.Spares store

namespace Store.Twins

variable {start start' store store' : Store} (h : Store.Twins start start' store store')
include h

theorem chain (hPartners : Partners start.scopes.size start'.scopes.size id id') :
    List.Forall₂ (Partners start.scopes.size start'.scopes.size) (store.chain id)
      (store'.chain id') :=
  .cons hPartners (h.scope hPartners).outer

theorem resolve (hPartners : Partners start.scopes.size start'.scopes.size id id')
    (name : String) :
    Option.Rel (fun found found' =>
        Partners start.scopes.size start'.scopes.size found.1 found'.1 ∧ found'.2 = found.2)
      (store.resolve id name) (store'.resolve id' name) := by
  apply findSome?_rel _ (h.chain hPartners)
  intro id id' hPartners
  rw [(h.scope hPartners).bindings_eq]
  cases (store.scope id).bindings.get? name with
  | none => exact .none
  | some binding => exact .some ⟨hPartners, rfl⟩

theorem lookup_eq (hPartners : Partners start.scopes.size start'.scopes.size id id')
    (name : String) : store'.lookup id' name = store.lookup id name := by
  unfold lookup
  have hResolve := h.resolve hPartners name
  generalize store.resolve id name = found at hResolve
  generalize store'.resolve id' name = found' at hResolve
  cases hResolve with
  | none => rfl
  | some hFound => simp [hFound.2]

theorem lookupFunction (hPartners : Partners start.scopes.size start'.scopes.size id id')
    (name : String) (arity : Nat) :
    Option.Rel (Callable.Twins start.scopes.size start'.scopes.size)
      (store.lookupFunction id name arity) (store'.lookupFunction id' name arity) := by
  apply findSome?_rel _ (h.chain hPartners)
  intro id id' hPartners
  exact (h.scope hPartners).callables (name, arity)

theorem newInside {parent parent' : ScopeId}
    (hParents : Partners start.scopes.size start'.scopes.size parent parent') :
    Store.Twins start start' (store.newInside parent).2 (store'.newInside parent').2 where
  pos := h.pos
  pos' := h.pos'
  size := by
    rw [size_newInside, size_newInside]
    exact h.size.succ
  scope {id id'} hPartners := by
    have hNew := Partners.eq_iff h.pos h.pos' (.inr h.size) hPartners
    rw [scope_newInside, scope_newInside]
    by_cases hSize : id = store.scopes.size
    · rw [if_pos hSize, if_pos (hNew.mp hSize)]
      exact .of_outer (h.chain hParents)
    · rw [if_neg hSize, if_neg (mt hNew.mpr hSize)]
      exact h.scope hPartners
  spares := h.spares.newInside h.pos parent

/-- Partners get the same binding. -/
theorem define (hPartners : Partners start.scopes.size start'.scopes.size id id')
    (hSpares : start.Spares (store.define id name value isMutable)) :
    Store.Twins start start' (store.define id name value isMutable)
      (store'.define id' name value isMutable) where
  pos := h.pos
  pos' := h.pos'
  size := by
    rw [size_define, size_define]
    exact h.size
  scope {other other'} hOthers := by
    have hSame : other = id ∧ id < store.scopes.size ↔ other' = id' ∧ id' < store'.scopes.size :=
      and_congr (hPartners.eq_iff h.pos h.pos' hOthers) (hPartners.lt_iff h.pos h.pos' h.size)
    rw [Store.define, Store.define, scope_modify_eq, scope_modify_eq]
    by_cases hDefined : other = id ∧ id < store.scopes.size
    · rw [if_pos hDefined, if_pos (hSame.mp hDefined)]
      have hScope := h.scope hPartners
      exact ⟨by rw [hScope.bindings_eq], hScope.callables, hScope.outer⟩
    · rw [if_neg hDefined, if_neg (mt hSame.mpr hDefined)]
      exact h.scope hOthers
  spares := hSpares

theorem define_fresh (hFresh : Fresh start.scopes.size start'.scopes.size id id') (name : String)
    (value : Value) (isMutable : Bool) :
    Store.Twins start start' (store.define id name value isMutable)
      (store'.define id' name value isMutable) :=
  h.define (.inr hFresh) (h.spares.define h.pos hFresh.1 name value isMutable)

end Store.Twins

/-- What has become of two machines in the course of a call that both make. -/
structure Machine.Alongside (start start' machine machine' : Machine) : Prop where
  store : Store.Twins start.store start'.store machine.store machine'.store
  callDepth_eq : machine'.callDepth = machine.callDepth
  callLimit_eq : machine'.callLimit = machine.callLimit
  prints : ∃ text,
    machine.printer = { start.printer with text := start.printer.text ++ text } ∧
    machine'.printer = { start'.printer with text := start'.printer.text ++ text }

/-- The machines are within the call, so that they have entered new scopes only. -/
structure Machine.Twins (start start' machine machine' : Machine) : Prop
    extends Machine.Alongside start start' machine machine' where
  root : Store.Fresh start.store.scopes.size start'.store.scopes.size machine.env.root
    machine'.env.root
  entered : List.Forall₂ (Store.Fresh start.store.scopes.size start'.store.scopes.size)
    machine.env.entered machine'.env.entered

theorem Machine.Alongside.enterFrame {start start' machine machine' : Machine}
    (h : Machine.Alongside start start' machine machine') {closure closure' : ScopeId}
    (hClosure : Store.Partners start.store.scopes.size start'.store.scopes.size closure closure')
    (arguments : List (String × Value)) :
    Machine.Twins start start' (machine.enterFrame closure arguments)
      (machine'.enterFrame closure' arguments) where
  store := by
    rw [Machine.enterFrame_store, Machine.enterFrame_store]
    apply Store.defineArguments_induction _ (h.store.newInside hClosure) arguments
    intro store store' name value hStore
    exact hStore.define_fresh h.store.size name value false
  root := h.store.size
  entered := .nil
  callDepth_eq := congrArg (· + 1) h.callDepth_eq
  callLimit_eq := h.callLimit_eq
  prints := h.prints

namespace Machine.Twins

variable {start start' machine machine' : Machine} (h : Machine.Twins start start' machine machine')
include h

theorem current : Store.Fresh start.store.scopes.size start'.store.scopes.size machine.env.current
    machine'.env.current := by
  have hEntered := h.entered
  unfold Environment.current
  generalize machine.env.entered = entered at hEntered
  generalize machine'.env.entered = entered' at hEntered
  cases hEntered with
  | nil => exact h.root
  | cons hHead => exact hHead

theorem define (name : String) (value : Value) (isMutable : Bool) :
    Machine.Twins start start'
      { machine with store := machine.store.define machine.env.current name value isMutable }
      { machine' with store := machine'.store.define machine'.env.current name value isMutable } :=
  { h with store := h.store.define_fresh h.current name value isMutable }

/-- The innermost binding is a global one or one that the call has made. -/
theorem assign {id id' : ScopeId} {binding : Binding}
    (hPartners : Store.Partners start.store.scopes.size start'.store.scopes.size id id')
    (hBinding : (machine.store.scope id).bindings.get? name = some binding)
    (hMutable : binding.isMutable = true) (value : Value) :
    Machine.Twins start start' { machine with store := machine.store.define id name value true }
      { machine' with store := machine'.store.define id' name value true } := by
  refine { h with store := h.store.define hPartners ?_ }
  rcases hPartners with ⟨rfl, -⟩ | hFresh
  · exact h.store.spares.assign_global hBinding hMutable value
  · exact h.store.spares.define h.store.pos hFresh.1 name value true

theorem print (values : List Value) :
    Machine.Twins start start'
      { machine with
        printer := values.foldl (fun printer value => printer.printLine value.display)
          machine.printer }
      { machine' with
        printer := values.foldl (fun printer value => printer.printLine value.display)
          machine'.printer } := by
  obtain ⟨before, hPrinter, hPrinter'⟩ := h.prints
  obtain ⟨text, hText⟩ := Printer.foldl_printLine values
  refine { h with prints := ⟨before ++ text, ?_, ?_⟩ }
  · dsimp only
    rw [hText, hPrinter]
    simp [String.append_assoc]
  · dsimp only
    rw [hText, hPrinter']
    simp [String.append_assoc]

theorem pushScope : Machine.Twins start start' machine.pushScope machine'.pushScope :=
  { h with
    store := h.store.newInside (.inr h.current)
    entered := .cons h.store.size h.entered }

theorem popScope : Machine.Twins start start' machine.popScope machine'.popScope :=
  { h with
    entered := by
      simpa [Machine.popScope, Environment.pop] using List.forall₂_drop 1 h.entered }

theorem leaveFrame (caller caller' : Environment) :
    Machine.Alongside start start' (machine.leaveFrame caller) (machine'.leaveFrame caller') :=
  { h.toAlongside with callDepth_eq := congrArg (· - 1) h.callDepth_eq }

theorem answers {callable callable' : Callable}
    (hCallable : callable.Twins start.store.scopes.size start'.store.scopes.size callable') :
    callable.Answers (Machine.Twins start start') machine machine' callable' := by
  cases hCallable with
  | print => exact .print
  | user hClosure =>
    exact .user (Function.alike_of_erase_eq rfl) fun _ arguments =>
      h.toAlongside.enterFrame hClosure arguments

theorem assign_follows (name : String) (value : Value) :
    (Exec.assign name value machine).Follows (Machine.Twins start start') False
      (Exec.assign name value machine') := by
  unfold Exec.assign Store.assignmentTarget
  have hResolve := h.store.resolve (.inr h.current) name
  generalize hFound : machine.store.resolve machine.env.current name = found at hResolve
  generalize machine'.store.resolve machine'.env.current name = found' at hResolve
  cases hResolve with
  | none => exact .failed h
  | @some first second hSame =>
    obtain ⟨owner, _⟩ := first
    obtain ⟨owner', binding⟩ := second
    obtain ⟨hPartners, rfl⟩ := hSame
    have hBinding := (Store.of_resolve hFound).1
    cases hMutable : binding.isMutable with
    | true =>
      simp only [hMutable, if_true]
      exact .done (h.assign hPartners hBinding hMutable value)
    | false =>
      simp only [hMutable]
      exact .failed h

end Machine.Twins

theorem simulation_twins (start start' : Machine) :
    Simulation (Machine.Twins start start') False where
  lookup_eq h name := h.store.lookup_eq (.inr h.current) name
  define h name value isMutable := .done (h.define name value isMutable)
  assign h name value := h.assign_follows name value
  print h values := .done (h.print values)
  pushScope h := h.pushScope
  popScope h := h.popScope
  callable h name arity := rel_imp h.answers (h.store.lookupFunction (.inr h.current) name arity)
  leaveFrame h hLeft := { hLeft.leaveFrame _ _ with root := h.root, entered := h.entered }
  callDepth_lt h hDepth := by
    simpa [h.callDepth_eq, h.callLimit_eq] using hDepth
  callLimit_le h hLimit := by
    left
    simpa [h.callDepth_eq, h.callLimit_eq] using hLimit

end ProcLang
