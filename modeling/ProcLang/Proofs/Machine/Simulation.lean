import ProcLang.Proofs.Machine.Preservation
import ProcLang.Proofs.Typing.Alike

/-! # Runs that follow one another

Two runs of programs that differ in slots only start from two related machines, and the second one is
allowed at least as many steps. If the relation is a simulation, the second run ends like the first
one, with related machines again; where the first one may be cut short by its limit of calls, the
second one goes on printing from there.
-/

namespace ProcLang

set_option autoImplicit false

variable {α β : Type} {R : Machine → Machine → Prop} {cut : Prop} {n n' : Nat}

/-- The second machine has printed what the first one has, and possibly more. -/
def Machine.Prints (machine machine' : Machine) : Prop :=
  ∃ text, machine'.printer = { machine.printer with text := machine.printer.text ++ text }

instance : Std.Refl Machine.Prints where
  refl machine := ⟨"", by simp⟩

instance : IsTrans Machine Machine.Prints where
  trans machine machine₁ machine₂ h h₁ := by
    obtain ⟨text, hText⟩ := h
    obtain ⟨text₁, hText₁⟩ := h₁
    refine ⟨text ++ text₁, ?_⟩
    rw [hText₁, hText]
    simp [String.append_assoc]

theorem Machine.Prints.of_printer_eq {machine machine' left left' : Machine}
    (h : machine.Prints left) (hMachine : machine'.printer = machine.printer)
    (hLeft : left'.printer = left.printer) : machine'.Prints left' := by
  obtain ⟨text, hText⟩ := h
  exact ⟨text, by rw [hLeft, hText, hMachine]⟩

theorem Printer.foldl_printLine (values : List Value) :
    ∃ text, ∀ printer : Printer,
      values.foldl (fun printer value => printer.printLine value.display) printer =
        { printer with text := printer.text ++ text } := by
  induction values with
  | nil => exact ⟨"", by simp⟩
  | cons value values ih =>
    obtain ⟨text, hText⟩ := ih
    refine ⟨value.display ++ "\n" ++ text, ?_⟩
    intro printer
    rw [List.foldl_cons, hText]
    simp [printLine, String.append_assoc]

theorem Exec.lasting_prints : Lasting Machine.Prints where
  define _ _ _ machine := refl_of Machine.Prints machine
  assign name value machine := by
    unfold assign
    split <;> exact refl_of Machine.Prints machine
  print values machine := by
    obtain ⟨text, hText⟩ := Printer.foldl_printLine values
    exact ⟨text, hText machine.printer⟩
  popScope h := h
  leaveFrame _ _ h := h

/-- The second outcome is like the first one as far as that one got. An outcome that is cut short
fails because of the limit of calls. -/
inductive Outcome.Follows (R : Machine → Machine → Prop) (cut : Prop) : Outcome α → Outcome α → Prop
  | done {result machine machine'} (h : R machine machine') :
    Follows R cut (.done result machine) (.done result machine')
  | failed {error machine machine'} (h : R machine machine') :
    Follows R cut (.failed error machine) (.failed error machine')
  | exhausted {second} : Follows R cut .exhausted second
  | cut {limit machine second} (hCut : cut)
      (hPrints : second.Satisfies (fun _ => machine.Prints) fun _ => machine.Prints) :
    Follows R cut (.failed (.stackOverflow limit) machine) second

namespace Outcome.Follows

variable {outcome : Outcome α} {machine : Machine}

theorem of_done {result : α} (h : (Outcome.done result machine).Follows R cut outcome) :
    ∃ machine', outcome = .done result machine' ∧ R machine machine' := by
  cases h with
  | done h => exact ⟨_, rfl, h⟩

theorem of_failed {error : RuntimeError} (h : (Outcome.failed error machine).Follows R cut outcome)
    (hUncut : cut → ∀ limit, error ≠ .stackOverflow limit) :
    ∃ machine', outcome = .failed error machine' ∧ R machine machine' := by
  cases h with
  | failed h => exact ⟨_, rfl, h⟩
  | cut hCut => exact absurd rfl (hUncut hCut _)

end Outcome.Follows

/-- Both executions end alike, or neither has ended. -/
inductive Outcome.Agrees (R : Machine → Machine → Prop) : Outcome α → Outcome α → Prop
  | done {result machine machine'} (h : R machine machine') :
    Agrees R (.done result machine) (.done result machine')
  | failed {error machine machine'} (h : R machine machine') :
    Agrees R (.failed error machine) (.failed error machine')
  | exhausted : Agrees R .exhausted .exhausted

theorem Outcome.Agrees.mono {R' : Machine → Machine → Prop} {outcome outcome' : Outcome α}
    (h : outcome.Agrees R outcome')
    (hRelated : ∀ machine machine', R machine machine' → R' machine machine') :
    outcome.Agrees R' outcome' := by
  cases h with
  | done h => exact .done (hRelated _ _ h)
  | failed h => exact .failed (hRelated _ _ h)
  | exhausted => exact .exhausted

theorem Outcome.Agrees.and {P P' : Machine → Prop} {outcome outcome' : Outcome α}
    (h : outcome.Agrees R outcome') (hFirst : outcome.Satisfies (fun _ => P) fun _ => P)
    (hSecond : outcome'.Satisfies (fun _ => P') fun _ => P') :
    outcome.Agrees (fun machine machine' => R machine machine' ∧ P machine ∧ P' machine')
      outcome' := by
  cases h with
  | done h => exact .done ⟨h, hFirst, hSecond⟩
  | failed h => exact .failed ⟨h, hFirst, hSecond⟩
  | exhausted => exact .exhausted

/-- Outcomes that follow each other uncut agree. -/
theorem Outcome.Follows.agrees {R' : Machine → Machine → Prop} {outcome outcome' : Outcome α}
    (h : outcome.Follows R False outcome') (h' : outcome'.Follows R' False outcome) :
    outcome.Agrees (fun machine machine' => R machine machine' ∧ R' machine' machine) outcome' := by
  cases h with
  | done h =>
    cases h' with
    | done h' => exact .done ⟨h, h'⟩
  | failed h =>
    cases h' with
    | failed h' => exact .failed ⟨h, h'⟩
    | cut hCut => exact hCut.elim
  | exhausted =>
    cases h' with
    | exhausted => exact .exhausted
    | cut hCut => exact hCut.elim
  | cut hCut => exact hCut.elim

theorem Outcome.Follows.refl (hRefl : ∀ machine, R machine machine) (outcome : Outcome α) :
    outcome.Follows R cut outcome := by
  cases outcome with
  | done result machine => exact .done (hRefl machine)
  | failed error machine => exact .failed (hRefl machine)
  | exhausted => exact .exhausted

theorem Outcome.Follows.mapMachine {R' : Machine → Machine → Prop} {first second : Outcome α}
    (h : first.Follows R cut second) {f f' : Machine → Machine}
    (hRelated : ∀ {machine machine'}, R machine machine' → R' (f machine) (f' machine'))
    (hPrinter : ∀ machine, (f machine).printer = machine.printer)
    (hPrinter' : ∀ machine, (f' machine).printer = machine.printer) :
    (first.mapMachine f).Follows R' cut (second.mapMachine f') := by
  cases h with
  | done h => exact .done (hRelated h)
  | failed h => exact .failed (hRelated h)
  | exhausted => exact .exhausted
  | cut hCut hPrints =>
    apply Follows.cut hCut
    rw [satisfies_mapMachine]
    apply hPrints.mono
    · intro _ left hLeft
      exact hLeft.of_printer_eq (hPrinter _) (hPrinter' _)
    · intro _ left hLeft
      exact hLeft.of_printer_eq (hPrinter _) (hPrinter' _)

/-- Started from related machines, the second execution follows the first one. -/
structure Exec.Couples (R : Machine → Machine → Prop) (cut : Prop) (first second : Exec α) :
    Prop where
  prints : second.Keeps Machine.Prints
  follows : ∀ {machine machine'}, R machine machine' →
    (first machine).Follows R cut (second machine')

/-- What goes on with two executions that follow one another is coupled. -/
theorem Outcome.Follows.bind {first second : Exec α} {next next' : α → Exec β}
    {machine machine' : Machine} (h : (first machine).Follows R cut (second machine'))
    (hNext : ∀ result, Exec.Couples R cut (next result) (next' result)) :
    ((first >>= next) machine).Follows R cut ((second >>= next') machine') := by
  generalize hOutcome : first machine = outcome at h
  generalize hOutcome' : second machine' = outcome' at h
  cases h with
  | done h =>
    rw [Exec.bind_of_done hOutcome, Exec.bind_of_done hOutcome']
    exact (hNext _).follows h
  | failed h =>
    rw [Exec.bind_of_failed hOutcome, Exec.bind_of_failed hOutcome']
    exact .failed h
  | exhausted =>
    rw [Exec.bind_of_exhausted hOutcome]
    exact .exhausted
  | cut hCut hPrints =>
    rw [Exec.bind_of_failed hOutcome]
    rw [← hOutcome'] at hPrints
    exact .cut hCut (Exec.Keeps.after hPrints fun result => (hNext result).prints)

namespace Exec.Couples

theorem of_exhausted {second : Exec α} (h : second.Keeps Machine.Prints) :
    Couples R cut exhausted second where
  prints := h
  follows _ := .exhausted

theorem of_pure (result : α) : Couples R cut (pure result : Exec α) (pure result) where
  prints := .of_pure result
  follows h := .done h

theorem of_ofExcept (result : Except RuntimeError α) :
    Couples R cut (ofExcept result) (ofExcept result) where
  prints := .of_ofExcept result
  follows h := by
    cases result with
    | ok value => exact .done h
    | error error => exact .failed h

theorem of_fail (error : RuntimeError) : Couples R cut (fail error : Exec α) (fail error) where
  prints := .of_fail error
  follows h := .failed h

theorem of_bind {first second : Exec α} {next next' : α → Exec β}
    (hFirst : Couples R cut first second)
    (hNext : ∀ result, Couples R cut (next result) (next' result)) :
    Couples R cut (first >>= next) (second >>= next') where
  prints := .of_bind hFirst.prints fun result => (hNext result).prints
  follows hR := (hFirst.follows hR).bind hNext

theorem of_ite {c : Prop} [Decidable c] {first first' second second' : Exec α}
    (hFirst : Couples R cut first first') (hSecond : Couples R cut second second') :
    Couples R cut (if c then first else second) (if c then first' else second') := by
  split
  · exact hFirst
  · exact hSecond

end Exec.Couples

/-- Related machines call functions that differ in slots only, and are related again when the bodies
of these are entered. -/
inductive Callable.Answers (R : Machine → Machine → Prop) (machine machine' : Machine) :
    Callable → Callable → Prop
  | print : Answers R machine machine' .print .print
  | user {function function' closure closure'} (hAlike : function.Alike function')
      (hEnter : machine.callDepth < machine.callLimit → ∀ arguments,
        R (machine.enterFrame closure arguments) (machine'.enterFrame closure' arguments)) :
    Answers R machine machine' (.user function closure) (.user function' closure')

/-- No single step of an execution tells related machines apart, other than by the limit of calls. -/
structure Simulation (R : Machine → Machine → Prop) (cut : Prop) : Prop where
  lookup_eq : ∀ {machine machine'}, R machine machine' → ∀ name,
    machine'.store.lookup machine'.env.current name = machine.store.lookup machine.env.current name
  define : ∀ {machine machine'}, R machine machine' → ∀ name value isMutable,
    (Exec.define name value isMutable machine).Follows R cut
      (Exec.define name value isMutable machine')
  assign : ∀ {machine machine'}, R machine machine' → ∀ name value,
    (Exec.assign name value machine).Follows R cut (Exec.assign name value machine')
  print : ∀ {machine machine'}, R machine machine' → ∀ values,
    (Exec.print values machine).Follows R cut (Exec.print values machine')
  pushScope : ∀ {machine machine'}, R machine machine' → R machine.pushScope machine'.pushScope
  popScope : ∀ {machine machine'}, R machine machine' → R machine.popScope machine'.popScope
  callable : ∀ {machine machine'}, R machine machine' → ∀ name arity,
    Option.Rel (Callable.Answers R machine machine')
      (machine.store.lookupFunction machine.env.current name arity)
      (machine'.store.lookupFunction machine'.env.current name arity)
  leaveFrame : ∀ {machine machine' left left'}, R machine machine' → R left left' →
    R (left.leaveFrame machine.env) (left'.leaveFrame machine'.env)
  callDepth_lt : ∀ {machine machine'}, R machine machine' → machine.callDepth < machine.callLimit →
    machine'.callDepth < machine'.callLimit
  callLimit_le : ∀ {machine machine'}, R machine machine' → machine.callLimit ≤ machine.callDepth →
    machine'.callLimit = machine.callLimit ∧ machine'.callLimit ≤ machine'.callDepth ∨
      cut ∧ machine'.printer = machine.printer

namespace Simulation

open Exec Exec.Couples

variable (hS : Simulation R cut)
include hS

theorem couples_lookup (name : String) : Couples R cut (lookup name) (lookup name) where
  prints := .of_lookup name
  follows {machine machine'} h := by
    unfold lookup
    rw [hS.lookup_eq h name]
    cases machine.store.lookup machine.env.current name with
    | some value => exact .done h
    | none => exact .failed h

theorem couples_define (name : String) (value : Value) (isMutable : Bool) :
    Couples R cut (Exec.define name value isMutable) (Exec.define name value isMutable) where
  prints := lasting_prints.define name value isMutable
  follows h := hS.define h name value isMutable

theorem couples_assign (name : String) (value : Value) :
    Couples R cut (Exec.assign name value) (Exec.assign name value) where
  prints := lasting_prints.assign name value
  follows h := hS.assign h name value

theorem couples_print (values : List Value) :
    Couples R cut (Exec.print values) (Exec.print values) where
  prints := lasting_prints.print values
  follows h := hS.print h values

theorem couples_inScope {body body' : Exec α} (hBody : Couples R cut body body') :
    Couples R cut (inScope body) (inScope body') where
  prints := lasting_prints.inScope hBody.prints
  follows {machine machine'} h := by
    exact (hBody.follows (hS.pushScope h)).mapMachine hS.popScope (fun _ => rfl) fun _ => rfl

/-- A call of a function that differs in slots only. If the limit stops the first one, the second one
either stops for the same reason or prints on. -/
theorem follows_inFrame {machine machine' : Machine} {closure closure' : ScopeId}
    {arguments : List (String × Value)} {body body' : Exec α} (h : R machine machine')
    (hEnter : machine.callDepth < machine.callLimit →
      R (machine.enterFrame closure arguments) (machine'.enterFrame closure' arguments))
    (hBody : Couples R cut body body') :
    (inFrame closure arguments body machine).Follows R cut
      (inFrame closure' arguments body' machine') := by
  by_cases hLimit : machine.callLimit ≤ machine.callDepth
  · have hFirst : inFrame closure arguments body machine =
        .failed (.stackOverflow machine.callLimit) machine := if_pos hLimit
    rw [hFirst]
    rcases hS.callLimit_le h hLimit with ⟨hSame, hLimit'⟩ | ⟨hCut, hPrinter⟩
    · have hSecond : inFrame closure' arguments body' machine' =
          .failed (.stackOverflow machine'.callLimit) machine' := if_pos hLimit'
      rw [hSecond, hSame]
      exact .failed h
    · apply Outcome.Follows.cut hCut
      apply satisfies_inFrame
      · intro _
        exact (refl_of Machine.Prints machine').of_printer_eq hPrinter.symm rfl
      · intro _
        apply (hBody.prints (machine'.enterFrame closure' arguments)).mono
        · intro _ left hLeft
          exact hLeft.of_printer_eq hPrinter.symm rfl
        · intro _ left hLeft
          exact hLeft.of_printer_eq hPrinter.symm rfl
  · have hDepth : machine.callDepth < machine.callLimit := Nat.lt_of_not_le hLimit
    unfold inFrame
    rw [if_neg hLimit, if_neg (Nat.not_le_of_lt (hS.callDepth_lt h hDepth))]
    exact (hBody.follows (hEnter hDepth)).mapMachine (hS.leaveFrame h) (fun _ => rfl) fun _ => rfl

end Simulation

end ProcLang
