import ProcLang.Machine.Evaluation

/-! # What holds of an outcome

A condition on results and one on errors, each with the machine that was left, make up a condition
on outcomes; an exhausted outcome meets all of them. Each way of putting executions together has a
rule that carries such conditions from the parts to the whole.
-/

namespace ProcLang

set_option autoImplicit false

variable {α β : Type}

namespace Outcome

/-- The machine that was left, unless the steps were not enough. -/
def machine? : Outcome α → Option Machine
  | done _ machine => some machine
  | failed _ machine => some machine
  | exhausted => none

def Satisfies (post : α → Machine → Prop) (failure : RuntimeError → Machine → Prop) :
    Outcome α → Prop
  | done result machine => post result machine
  | failed error machine => failure error machine
  | exhausted => True

variable {post post' : α → Machine → Prop} {failure failure' : RuntimeError → Machine → Prop}

theorem Satisfies.mono {outcome : Outcome α} (h : outcome.Satisfies post failure)
    (hPost : ∀ result machine, post result machine → post' result machine)
    (hFailure : ∀ error machine, failure error machine → failure' error machine) :
    outcome.Satisfies post' failure' := by
  cases outcome with
  | done result machine => exact hPost result machine h
  | failed error machine => exact hFailure error machine h
  | exhausted => trivial

theorem Satisfies.imp {outcome : Outcome α} (h : outcome.Satisfies post failure)
    (hPost : ∀ result machine, post result machine → post' result machine) :
    outcome.Satisfies post' failure :=
  h.mono hPost fun _ _ hFailure => hFailure

theorem Satisfies.of_done {outcome : Outcome α} {result : α} {machine : Machine}
    (h : outcome.Satisfies post failure) (hDone : outcome = done result machine) :
    post result machine := by
  rw [hDone] at h
  exact h

theorem Satisfies.of_failed {outcome : Outcome α} {error : RuntimeError} {machine : Machine}
    (h : outcome.Satisfies post failure) (hFailed : outcome = failed error machine) :
    failure error machine := by
  rw [hFailed] at h
  exact h

theorem Satisfies.of_machine? {P : Machine → Prop} {outcome : Outcome α} {machine : Machine}
    (h : outcome.Satisfies (fun _ => P) fun _ => P) (hLeft : outcome.machine? = some machine) :
    P machine := by
  cases outcome with
  | done result left =>
    cases hLeft
    exact h
  | failed error left =>
    cases hLeft
    exact h
  | exhausted => cases hLeft

theorem satisfies_of_forall {outcome : Outcome α} (hPost : ∀ result machine, post result machine)
    (hFailure : ∀ error machine, failure error machine) : outcome.Satisfies post failure := by
  cases outcome with
  | done result machine => exact hPost result machine
  | failed error machine => exact hFailure error machine
  | exhausted => trivial

theorem Satisfies.and_post {outcome : Outcome α} (h : outcome.Satisfies post failure)
    (h' : outcome.Satisfies post' failure') :
    outcome.Satisfies (fun result machine => post result machine ∧ post' result machine) failure := by
  cases outcome with
  | done result machine => exact ⟨h, h'⟩
  | failed error machine => exact h
  | exhausted => trivial

theorem satisfies_mapMachine (f : Machine → Machine) (outcome : Outcome α) :
    (outcome.mapMachine f).Satisfies post failure ↔
      outcome.Satisfies (fun result machine => post result (f machine))
        (fun error machine => failure error (f machine)) := by
  cases outcome <;> rfl

end Outcome

namespace Exec

open Outcome

variable {post : β → Machine → Prop} {failure : RuntimeError → Machine → Prop} {machine : Machine}

theorem bind_of_done {first : Exec α} {next : α → Exec β} {result : α} {machine' : Machine}
    (h : first machine = .done result machine') : (first >>= next) machine = next result machine' := by
  change Exec.bind first next machine = _
  rw [Exec.bind, h]

theorem bind_of_failed {first : Exec α} {next : α → Exec β} {error : RuntimeError}
    {machine' : Machine} (h : first machine = .failed error machine') :
    (first >>= next) machine = .failed error machine' := by
  change Exec.bind first next machine = _
  rw [Exec.bind, h]

theorem bind_of_exhausted {first : Exec α} {next : α → Exec β} (h : first machine = .exhausted) :
    (first >>= next) machine = .exhausted := by
  change Exec.bind first next machine = _
  rw [Exec.bind, h]

theorem satisfies_bind {first : Exec α} {next : α → Exec β}
    (h : (first machine).Satisfies (fun result machine => (next result machine).Satisfies post failure)
      failure) :
    ((first >>= next) machine).Satisfies post failure := by
  change (Exec.bind first next machine).Satisfies post failure
  unfold Exec.bind
  cases hFirst : first machine <;> rw [hFirst] at h <;> exact h

theorem satisfies_pure {result : β} (h : post result machine) :
    ((pure result : Exec β) machine).Satisfies post failure :=
  h

theorem satisfies_ofExcept {result : Except RuntimeError β}
    (hOk : ∀ value, result = .ok value → post value machine)
    (hError : ∀ error, result = .error error → failure error machine) :
    (ofExcept result machine).Satisfies post failure := by
  cases result with
  | ok value => exact hOk value rfl
  | error error => exact hError error rfl

theorem satisfies_inScope {body : Exec β}
    (h : (body machine.pushScope).Satisfies (fun result machine => post result machine.popScope)
      (fun error machine => failure error machine.popScope)) :
    (inScope body machine).Satisfies post failure :=
  (satisfies_mapMachine Machine.popScope _).mpr h

theorem satisfies_inFrame {closure : ScopeId} {arguments : List (String × Value)} {body : Exec β}
    (hLimit : machine.callLimit ≤ machine.callDepth →
      failure (.stackOverflow machine.callLimit) machine)
    (hBody : machine.callDepth < machine.callLimit →
      (body (machine.enterFrame closure arguments)).Satisfies
        (fun result left => post result (left.leaveFrame machine.env))
        (fun error left => failure error (left.leaveFrame machine.env))) :
    (inFrame closure arguments body machine).Satisfies post failure := by
  unfold inFrame
  split
  · rename_i hReached
    exact hLimit hReached
  · rename_i hReached
    exact (satisfies_mapMachine _ _).mpr (hBody (Nat.lt_of_not_le hReached))

theorem lookupFunction_of_some {name : String} {arity : Nat} {callable : Callable}
    (h : machine.store.lookupFunction machine.env.current name arity = some callable) :
    lookupFunction name arity machine = .done callable machine := by
  rw [lookupFunction, h]

theorem lookupFunction_of_none {name : String} {arity : Nat}
    (h : machine.store.lookupFunction machine.env.current name arity = none) :
    lookupFunction name arity machine = .failed (.undefinedFunction name arity) machine := by
  rw [lookupFunction, h]

theorem satisfies_lookupFunction {name : String} {arity : Nat} {post : Callable → Machine → Prop}
    (hNone : failure (.undefinedFunction name arity) machine)
    (hSome : ∀ callable, lookupFunction name arity machine = .done callable machine →
      post callable machine) : (lookupFunction name arity machine).Satisfies post failure := by
  cases hFound : machine.store.lookupFunction machine.env.current name arity with
  | none =>
    rw [lookupFunction_of_none hFound]
    exact hNone
  | some callable =>
    have hDone := lookupFunction_of_some hFound
    rw [hDone]
    exact hSome callable hDone

section Calls

variable {n : Nat} {name : String} {arguments : List Value}

theorem call_of_none
    (h : machine.store.lookupFunction machine.env.current name arguments.length = none) :
    call (n + 1) name arguments machine =
      .failed (.undefinedFunction name arguments.length) machine :=
  bind_of_failed (lookupFunction_of_none h)

theorem call_of_print
    (h : machine.store.lookupFunction machine.env.current name arguments.length = some .print) :
    call (n + 1) name arguments machine = (print arguments >>= fun _ => pure .nil) machine :=
  bind_of_done (lookupFunction_of_some h)

theorem call_of_user {function : Function} {closure : ScopeId}
    (h : machine.store.lookupFunction machine.env.current name arguments.length =
      some (.user function closure)) :
    call (n + 1) name arguments machine =
      (inFrame closure (function.parameters.zip arguments) (executeBlock n function.body) >>=
        fun completion => pure completion.value) machine :=
  bind_of_done (lookupFunction_of_some h)

end Calls

theorem of_bind_done {first : Exec α} {next : α → Exec β} {result : β} {machine' : Machine}
    (h : (first >>= next) machine = .done result machine') :
    ∃ value machine₁, first machine = .done value machine₁ ∧
      next value machine₁ = .done result machine' := by
  change Exec.bind first next machine = _ at h
  unfold Exec.bind at h
  cases hFirst : first machine with
  | done value machine₁ =>
    rw [hFirst] at h
    exact ⟨value, machine₁, rfl, h⟩
  | failed error machine₁ =>
    rw [hFirst] at h
    cases h
  | exhausted =>
    rw [hFirst] at h
    cases h

theorem of_ofExcept_bind_done {input : Except RuntimeError α} {next : α → Exec β} {result : β}
    {machine' : Machine} (h : (ofExcept input >>= next) machine = .done result machine') :
    ∃ value, input = .ok value ∧ next value machine = .done result machine' := by
  cases input with
  | ok value => exact ⟨value, rfl, h⟩
  | error error => cases h

theorem lookup_machine {name : String} {value : Value} {machine' : Machine}
    (h : lookup name machine = .done value machine') : machine' = machine := by
  unfold lookup at h
  split at h
  · cases h
    rfl
  · cases h

theorem of_lookupFunction_done {name : String} {arity : Nat} {callable : Callable}
    {machine' : Machine} (h : lookupFunction name arity machine = .done callable machine') :
    machine' = machine ∧
      machine.store.lookupFunction machine.env.current name arity = some callable := by
  unfold lookupFunction at h
  split at h
  · cases h
    exact ⟨rfl, ‹_›⟩
  · cases h

theorem evaluate_binary {n : Nat} {operator : Operator} {left right : Expr} {slot : Option Ty}
    (hAnd : operator ≠ .and) (hOr : operator ≠ .or) :
    evaluate (n + 1) (.binary operator left right slot) = (do
      let left ← evaluate n left
      let right ← evaluate n right
      ofExcept ((operator.evaluate left right).mapError .operation)) := by
  cases operator <;> first | contradiction | rfl

end Exec

namespace Value

variable {value index : Value} {name : String} {items : List Value} {length position : Nat}
  {error : RuntimeError}

theorem of_items (h : value.items name = .ok items) : value = .list items := by
  cases value <;> cases h
  rfl

theorem items_error (h : value.items name = .error error) : error = .notAList name := by
  cases value <;> cases h <;> rfl

theorem of_position (h : index.position length = .ok position) :
    ∃ i : Int, index = .integer i ∧ 0 ≤ i ∧ i < length ∧ position = i.toNat := by
  unfold Value.position at h
  split at h
  · rename_i i
    split at h
    · rename_i hInside
      cases h
      exact ⟨i, rfl, hInside.1, hInside.2, rfl⟩
    · cases h
  · cases h

theorem position_error (h : index.position length = .error error) :
    (∃ i, error = .indexOutOfBounds i length) ∨ error = .typeMismatch .integer index.tag := by
  unfold Value.position at h
  split at h
  · split at h
    · cases h
    · cases h
      exact .inl ⟨_, rfl⟩
  · cases h
    exact .inr rfl

theorem of_condition {b : Bool} (h : value.condition = .ok b) : value = .boolean b := by
  cases value <;> cases h
  rfl

theorem condition_error (h : value.condition = .error error) :
    error = .typeMismatch .boolean value.tag := by
  cases value <;> cases h <;> rfl

theorem item_error (h : value.item name index = .error error) :
    value.items name = .error error ∨ ∃ length, index.position length = .error error := by
  unfold item at h
  cases hItems : value.items name with
  | error reason =>
    rw [hItems] at h
    cases h
    exact .inl rfl
  | ok items =>
    rw [hItems] at h
    cases hPosition : index.position items.length with
    | error reason =>
      simp only [bind, Except.bind, hPosition] at h
      cases h
      exact .inr ⟨items.length, hPosition⟩
    | ok position =>
      simp only [bind, Except.bind, hPosition] at h
      cases h

end Value

end ProcLang
