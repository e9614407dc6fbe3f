import Mathlib.Order.Defs.Unbundled
import ProcLang.Machine.Run
import ProcLang.Proofs.Machine.Outcome

/-! # What executions keep

A relation between machines is kept by an execution if, however the execution ends, what it leaves is
related to what it began with. A relation that every single change of a machine keeps is kept by all
that a program can execute.
-/

namespace ProcLang

set_option autoImplicit false

variable {α β : Type} {R : Machine → Machine → Prop} {n : Nat}

/-- However an execution ends, what it leaves is related to what it began with. -/
def Exec.Keeps (R : Machine → Machine → Prop) (execution : Exec α) : Prop :=
  ∀ machine, (execution machine).Satisfies (fun _ => R machine) fun _ => R machine

namespace Exec.Keeps

theorem of_exhausted : Keeps R (exhausted : Exec α) :=
  fun _ => trivial

section Reflexive

variable [Std.Refl R]

theorem of_pure (result : α) : Keeps R (pure result : Exec α) :=
  fun machine => refl_of R machine

theorem of_ofExcept (result : Except RuntimeError α) : Keeps R (ofExcept result) := by
  intro machine
  cases result <;> exact refl_of R machine

theorem of_fail (error : RuntimeError) : Keeps R (fail error : Exec α) :=
  fun machine => refl_of R machine

theorem of_lookup (name : String) : Keeps R (lookup name) := by
  intro machine
  unfold lookup
  split <;> exact refl_of R machine

end Reflexive

/-- What goes on with an execution goes on keeping the relation. -/
theorem after [IsTrans Machine R] {first : Exec α} {next : α → Exec β} {start machine : Machine}
    (hFirst : (first machine).Satisfies (fun _ => R start) fun _ => R start)
    (hNext : ∀ result, Keeps R (next result)) :
    ((first >>= next) machine).Satisfies (fun _ => R start) fun _ => R start := by
  apply satisfies_bind
  apply hFirst.imp
  intro result machine₁ hKept
  apply (hNext result machine₁).mono
  · intro _ machine₂ hKept₂
    exact trans_of R hKept hKept₂
  · intro _ machine₂ hKept₂
    exact trans_of R hKept hKept₂

theorem of_bind [IsTrans Machine R] {first : Exec α} {next : α → Exec β} (hFirst : Keeps R first)
    (hNext : ∀ result, Keeps R (next result)) : Keeps R (first >>= next) :=
  fun machine => after (hFirst machine) hNext

theorem of_ite {c : Prop} [Decidable c] {first second : Exec α} (hFirst : Keeps R first)
    (hSecond : Keeps R second) : Keeps R (if c then first else second) := by
  split
  · exact hFirst
  · exact hSecond

end Exec.Keeps

/-- What code changes in a machine itself, and what becomes of it when a scope or a function body is
left, keeps the relation. -/
structure Exec.Lasting (R : Machine → Machine → Prop) : Prop where
  define : ∀ name value isMutable, Keeps R (define name value isMutable)
  assign : ∀ name value, Keeps R (assign name value)
  print : ∀ values, Keeps R (print values)
  popScope : ∀ {machine left : Machine}, R machine.pushScope left → R machine left.popScope
  leaveFrame : ∀ {machine left : Machine} {name : String} {arity : Nat} {function : Function}
    {closure : ScopeId} {arguments : List (String × Value)},
    lookupFunction name arity machine = .done (.user function closure) machine →
    machine.callDepth < machine.callLimit → R (machine.enterFrame closure arguments) left →
    R machine (left.leaveFrame machine.env)

theorem Exec.Lasting.inScope (h : Lasting R) {body : Exec α} (hBody : Keeps R body) :
    Keeps R (inScope body) := by
  intro machine
  apply satisfies_inScope
  apply (hBody machine.pushScope).mono
  · intro _ left hKept
    exact h.popScope hKept
  · intro _ left hKept
    exact h.popScope hKept

/-- All that a program can execute in so many steps keeps the relation. -/
structure Exec.AllKeep (R : Machine → Machine → Prop) (n : Nat) : Prop where
  evaluate : ∀ e, Exec.Keeps R (Exec.evaluate n e)
  evaluateAll : ∀ es, Exec.Keeps R (Exec.evaluateAll n es)
  call : ∀ name arguments, Exec.Keeps R (Exec.call n name arguments)
  execute : ∀ s, Exec.Keeps R (Exec.execute n s)
  executeBlock : ∀ statements, Exec.Keeps R (Exec.executeBlock n statements)
  executeCases : ∀ subject default? cases, Exec.Keeps R (Exec.executeCases n subject default? cases)
  executeLoop : ∀ condition body, Exec.Keeps R (Exec.executeLoop n condition body)

namespace Exec.AllKeep

open Exec.Keeps

theorem zero : AllKeep R 0 := by
  constructor <;> intros <;> exact of_exhausted

variable [Std.Refl R] [IsTrans Machine R] (hR : Lasting R) (h : AllKeep R n)

section

include h

theorem evaluate_succ (e : Expr) : Keeps R (Exec.evaluate (n + 1) e) := by
  cases e with
  | literal literal ty => exact of_pure literal.value
  | group inner ty => exact h.evaluate inner
  | binary operator left right ty =>
    by_cases hAnd : operator = .and
    · subst hAnd
      apply of_bind (h.evaluate left)
      intro value
      exact of_ite (of_bind (h.evaluate right) fun _ => of_pure _) (of_pure _)
    by_cases hOr : operator = .or
    · subst hOr
      apply of_bind (h.evaluate left)
      intro value
      exact of_ite (of_pure _) (of_bind (h.evaluate right) fun _ => of_pure _)
    rw [evaluate_binary hAnd hOr]
    apply of_bind (h.evaluate left)
    intro leftValue
    apply of_bind (h.evaluate right)
    intro rightValue
    exact of_ofExcept _
  | access name symbol ty => exact of_lookup name
  | element name index symbol ty =>
    apply of_bind (of_lookup name)
    intro list
    exact of_bind (h.evaluate index) fun _ => of_ofExcept _
  | call name arguments signature ty =>
    apply of_bind (h.evaluateAll arguments)
    intro values
    exact h.call name values
  | list items ty => exact of_bind (h.evaluateAll items) fun _ => of_pure _

theorem evaluateAll_succ (es : List Expr) : Keeps R (Exec.evaluateAll (n + 1) es) := by
  cases es with
  | nil => exact of_pure []
  | cons e es =>
    apply of_bind (h.evaluate e)
    intro value
    exact of_bind (h.evaluateAll es) fun _ => of_pure _

theorem executeBlock_succ (statements : List Stmt) :
    Keeps R (Exec.executeBlock (n + 1) statements) := by
  cases statements with
  | nil => exact of_pure Completion.normal
  | cons s rest =>
    apply of_bind (h.execute s)
    intro completion
    cases completion with
    | normal => exact h.executeBlock rest
    | returned value => exact of_pure _

end

include hR h

omit [IsTrans Machine R] in
theorem call_user {machine : Machine} {name : String} {arguments : List Value} {function : Function}
    {closure : ScopeId} (hFound : lookupFunction name arguments.length machine =
      .done (.user function closure) machine) :
    (Exec.inFrame closure (function.parameters.zip arguments) (Exec.executeBlock n function.body)
      machine).Satisfies (fun _ => R machine) fun _ => R machine := by
  apply satisfies_inFrame
  · intro _
    exact refl_of R machine
  · intro hDepth
    apply (h.executeBlock function.body _).mono
    · intro _ left hKept
      exact hR.leaveFrame hFound hDepth hKept
    · intro _ left hKept
      exact hR.leaveFrame hFound hDepth hKept

theorem call_succ (name : String) (arguments : List Value) :
    Keeps R (Exec.call (n + 1) name arguments) := by
  intro machine
  apply satisfies_bind
  apply satisfies_lookupFunction
  · exact refl_of R machine
  · intro callable hFound
    cases callable with
    | print => exact of_bind (hR.print arguments) (fun _ => of_pure _) machine
    | user function closure =>
      apply satisfies_bind
      exact h.call_user hR hFound

theorem execute_succ (s : Stmt) : Keeps R (Exec.execute (n + 1) s) := by
  cases s with
  | expression e => exact of_bind (h.evaluate e) fun _ => of_pure _
  | declaration name typeName value? symbol =>
    cases value? with
    | none => exact of_bind (hR.define name .nil true) fun _ => of_pure _
    | some value =>
      apply of_bind (h.evaluate value)
      intro result
      exact of_bind (hR.define name result true) fun _ => of_pure _
  | assignment receiver value =>
    cases receiver with
    | access name symbol ty =>
      apply of_bind (h.evaluate value)
      intro result
      exact of_bind (hR.assign name result) fun _ => of_pure _
    | element name index symbol ty =>
      apply of_bind (of_lookup name)
      intro list
      apply of_bind (of_ofExcept (list.items name))
      intro items
      apply of_bind (h.evaluate index)
      intro i
      apply of_bind (of_ofExcept (i.position items.length))
      intro position
      apply of_bind (h.evaluate value)
      intro result
      exact of_bind (hR.assign name _) fun _ => of_pure _
    | literal | group | binary | call | list => exact of_fail _
  | conditional condition consequent alternative =>
    apply of_bind (h.evaluate condition)
    intro value
    apply of_bind (of_ofExcept value.condition)
    intro holds
    exact of_ite (hR.inScope (h.executeBlock consequent)) (hR.inScope (h.executeBlock alternative))
  | switch subject cases =>
    apply of_bind (h.evaluate subject)
    intro value
    exact h.executeCases value _ cases
  | loop condition body => exact h.executeLoop condition body
  | returns value => exact of_bind (h.evaluate value) fun _ => of_pure _

theorem executeCases_succ (subject : Value) (default? : Option (List Stmt)) (cases : List Case) :
    Keeps R (Exec.executeCases (n + 1) subject default? cases) := by
  cases cases with
  | nil =>
    cases default? with
    | none => exact of_pure Completion.normal
    | some body => exact hR.inScope (h.executeBlock body)
  | cons case rest =>
    obtain ⟨value?, body⟩ := case
    cases value? with
    | none => exact h.executeCases subject default? rest
    | some value =>
      apply of_bind (h.evaluate value)
      intro result
      exact of_ite (hR.inScope (h.executeBlock body)) (h.executeCases subject default? rest)

theorem executeLoop_succ (condition : Expr) (body : List Stmt) :
    Keeps R (Exec.executeLoop (n + 1) condition body) := by
  apply of_bind (h.evaluate condition)
  intro value
  apply of_bind (of_ofExcept value.condition)
  intro holds
  apply of_ite
  · apply of_bind (hR.inScope (h.executeBlock body))
    intro completion
    cases completion with
    | normal => exact h.executeLoop condition body
    | returned value => exact of_pure _
  · exact of_pure Completion.normal

omit h in
/-- A lasting relation is kept by whatever a program executes. -/
theorem all (n : Nat) : AllKeep R n := by
  induction n with
  | zero => exact zero
  | succ n h =>
    exact ⟨h.evaluate_succ, h.evaluateAll_succ, h.call_succ hR, h.execute_succ hR,
      h.executeBlock_succ, h.executeCases_succ hR, h.executeLoop_succ hR⟩

end Exec.AllKeep

namespace Exec.Lasting

open Exec.Keeps

variable [Std.Refl R] [IsTrans Machine R] (hR : Lasting R)
include hR

theorem defineGlobal (global : Global) : Keeps R (defineGlobal n global) := by
  unfold Exec.defineGlobal
  cases global.value with
  | none => exact hR.define global.name .nil global.isMutable
  | some value =>
    apply of_bind ((AllKeep.all hR n).evaluate value)
    intro result
    exact hR.define global.name result global.isMutable

theorem defineGlobals (globals : List Global) : Keeps R (defineGlobals n globals) := by
  induction globals with
  | nil => exact of_pure ()
  | cons global rest ih => exact of_bind (hR.defineGlobal global) fun _ => ih

omit hR in
theorem defineFunctions (hFunction : ∀ function, Keeps R (defineFunction function))
    (functions : List Function) : Keeps R (defineFunctions functions) := by
  induction functions with
  | nil => exact of_pure ()
  | cons function rest ih => exact of_bind (hFunction function) fun _ => ih

theorem run (hFunction : ∀ function, Keeps R (defineFunction function)) (source : Source) :
    Keeps R (run n source) := by
  apply of_bind (hR.defineGlobals source.globals)
  intro _
  apply of_bind (defineFunctions hFunction source.functions)
  intro _
  exact (AllKeep.all hR n).call "main" []

end Exec.Lasting

end ProcLang
