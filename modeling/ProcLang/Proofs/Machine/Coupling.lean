import ProcLang.Proofs.Machine.Simulation

/-! # Coupled programs

Under a simulation, all that two programs execute that differ in slots only is coupled: expressions,
statements, calls and whole runs. The induction is on the steps that the first program is allowed; the
second one may be allowed more.
-/

namespace ProcLang

set_option autoImplicit false

variable {R : Machine → Machine → Prop} {cut : Prop} {n n' : Nat}

structure Exec.AllCouple (R : Machine → Machine → Prop) (cut : Prop) (n n' : Nat) : Prop where
  evaluate : ∀ {e e' : Expr}, e.Alike e' → Exec.Couples R cut (Exec.evaluate n e) (Exec.evaluate n' e')
  evaluateAll : ∀ {es es' : List Expr}, List.Forall₂ Expr.Alike es es' →
    Exec.Couples R cut (Exec.evaluateAll n es) (Exec.evaluateAll n' es')
  call : ∀ name arguments,
    Exec.Couples R cut (Exec.call n name arguments) (Exec.call n' name arguments)
  execute : ∀ {s s' : Stmt}, s.Alike s' →
    Exec.Couples R cut (Exec.execute n s) (Exec.execute n' s')
  executeBlock : ∀ {statements statements' : List Stmt},
    List.Forall₂ Stmt.Alike statements statements' →
    Exec.Couples R cut (Exec.executeBlock n statements) (Exec.executeBlock n' statements')
  executeCases : ∀ subject {default? default?' : Option (List Stmt)} {cases cases' : List Case},
    Option.Rel (List.Forall₂ Stmt.Alike) default? default?' →
    List.Forall₂ Case.Alike cases cases' →
    Exec.Couples R cut (Exec.executeCases n subject default? cases)
      (Exec.executeCases n' subject default?' cases')
  executeLoop : ∀ {condition condition' : Expr} {body body' : List Stmt},
    condition.Alike condition' → List.Forall₂ Stmt.Alike body body' →
    Exec.Couples R cut (Exec.executeLoop n condition body) (Exec.executeLoop n' condition' body')

theorem defaultBody?_alike {cases cases' : List Case} (h : List.Forall₂ Case.Alike cases cases') :
    Option.Rel (List.Forall₂ Stmt.Alike) (defaultBody? cases) (defaultBody? cases') := by
  induction h with
  | nil => exact .none
  | cons hCase hRest ih =>
    cases hCase with
    | mk hValue hBody =>
      cases hValue with
      | none => exact .some hBody
      | some hValue => exact ih

namespace Exec.AllCouple

open Exec.Couples

theorem zero (R : Machine → Machine → Prop) (cut : Prop) (n' : Nat) : AllCouple R cut 0 n' := by
  have hPrints := AllKeep.all lasting_prints n'
  constructor
  · intro e e' _
    exact of_exhausted (hPrints.evaluate e')
  · intro es es' _
    exact of_exhausted (hPrints.evaluateAll es')
  · intro name arguments
    exact of_exhausted (hPrints.call name arguments)
  · intro s s' _
    exact of_exhausted (hPrints.execute s')
  · intro statements statements' _
    exact of_exhausted (hPrints.executeBlock statements')
  · intro subject default? default?' cases cases' _ _
    exact of_exhausted (hPrints.executeCases subject default?' cases')
  · intro condition condition' body body' _ _
    exact of_exhausted (hPrints.executeLoop condition' body')

variable (hS : Simulation R cut) (h : AllCouple R cut n n')
include hS h

theorem evaluate_succ {e e' : Expr} (hAlike : e.Alike e') :
    Couples R cut (Exec.evaluate (n + 1) e) (Exec.evaluate (n' + 1) e') := by
  cases hAlike with
  | @literal value => exact of_pure value.value
  | group hInner => exact h.evaluate hInner
  | @binary operator left left' right right' ty ty' hLeft hRight =>
    by_cases hAnd : operator = .and
    · subst hAnd
      apply of_bind (h.evaluate hLeft)
      intro value
      exact of_ite (of_bind (h.evaluate hRight) fun _ => of_pure _) (of_pure _)
    by_cases hOr : operator = .or
    · subst hOr
      apply of_bind (h.evaluate hLeft)
      intro value
      exact of_ite (of_pure _) (of_bind (h.evaluate hRight) fun _ => of_pure _)
    rw [evaluate_binary hAnd hOr, evaluate_binary hAnd hOr]
    apply of_bind (h.evaluate hLeft)
    intro leftValue
    apply of_bind (h.evaluate hRight)
    intro rightValue
    exact of_ofExcept _
  | @access name => exact hS.couples_lookup name
  | @element name index index' symbol symbol' ty ty' hIndex =>
    apply of_bind (hS.couples_lookup name)
    intro list
    exact of_bind (h.evaluate hIndex) fun _ => of_ofExcept _
  | @call name arguments arguments' signature signature' ty ty' hArguments =>
    apply of_bind (h.evaluateAll hArguments)
    intro values
    exact h.call name values
  | list hItems => exact of_bind (h.evaluateAll hItems) fun _ => of_pure _

omit hS in
theorem evaluateAll_succ {es es' : List Expr} (hAlike : List.Forall₂ Expr.Alike es es') :
    Couples R cut (Exec.evaluateAll (n + 1) es) (Exec.evaluateAll (n' + 1) es') := by
  cases hAlike with
  | nil => exact of_pure []
  | cons hHead hTail =>
    apply of_bind (h.evaluate hHead)
    intro value
    exact of_bind (h.evaluateAll hTail) fun _ => of_pure _

theorem call_succ (name : String) (arguments : List Value) :
    Couples R cut (Exec.call (n + 1) name arguments) (Exec.call (n' + 1) name arguments) where
  prints := (AllKeep.all lasting_prints (n' + 1)).call name arguments
  follows {machine machine'} hR := by
    have hCallable := hS.callable hR name arguments.length
    generalize hFound : machine.store.lookupFunction machine.env.current name arguments.length =
      found at hCallable
    generalize hFound' : machine'.store.lookupFunction machine'.env.current name arguments.length =
      found' at hCallable
    cases hCallable with
    | none =>
      rw [call_of_none hFound, call_of_none hFound']
      exact .failed hR
    | some hAnswers =>
      cases hAnswers with
      | print =>
        rw [call_of_print hFound, call_of_print hFound']
        exact (of_bind (hS.couples_print arguments) fun _ => of_pure _).follows hR
      | user hAlike hEnter =>
        rw [call_of_user hFound, call_of_user hFound', hAlike.parameters_eq]
        apply Outcome.Follows.bind
        · exact hS.follows_inFrame hR (fun hDepth => hEnter hDepth _) (h.executeBlock hAlike.body)
        · intro completion
          exact of_pure completion.value

theorem execute_succ {s s' : Stmt} (hAlike : s.Alike s') :
    Couples R cut (Exec.execute (n + 1) s) (Exec.execute (n' + 1) s') := by
  cases hAlike with
  | expression hExpr => exact of_bind (h.evaluate hExpr) fun _ => of_pure _
  | @declaration name typeName value value' symbol symbol' hValue =>
    cases hValue with
    | none => exact of_bind (hS.couples_define name .nil true) fun _ => of_pure _
    | some hValue =>
      apply of_bind (h.evaluate hValue)
      intro result
      exact of_bind (hS.couples_define name result true) fun _ => of_pure _
  | assignment hReceiver hValue =>
    cases hReceiver with
    | @access name =>
      apply of_bind (h.evaluate hValue)
      intro result
      exact of_bind (hS.couples_assign name result) fun _ => of_pure _
    | @element name index index' symbol symbol' ty ty' hIndex =>
      apply of_bind (hS.couples_lookup name)
      intro list
      apply of_bind (of_ofExcept (list.items name))
      intro items
      apply of_bind (h.evaluate hIndex)
      intro i
      apply of_bind (of_ofExcept (i.position items.length))
      intro position
      apply of_bind (h.evaluate hValue)
      intro result
      exact of_bind (hS.couples_assign name _) fun _ => of_pure _
    | literal | group | binary | call | list => exact of_fail _
  | conditional hCondition hConsequent hAlternative =>
    apply of_bind (h.evaluate hCondition)
    intro value
    apply of_bind (of_ofExcept value.condition)
    intro holds
    exact of_ite (hS.couples_inScope (h.executeBlock hConsequent))
      (hS.couples_inScope (h.executeBlock hAlternative))
  | switch hSubject hCases =>
    apply of_bind (h.evaluate hSubject)
    intro value
    exact h.executeCases value (defaultBody?_alike hCases) hCases
  | loop hCondition hBody => exact h.executeLoop hCondition hBody
  | returns hValue => exact of_bind (h.evaluate hValue) fun _ => of_pure _

omit hS in
theorem executeBlock_succ {statements statements' : List Stmt}
    (hAlike : List.Forall₂ Stmt.Alike statements statements') :
    Couples R cut (Exec.executeBlock (n + 1) statements) (Exec.executeBlock (n' + 1) statements') := by
  cases hAlike with
  | nil => exact of_pure Completion.normal
  | cons hStatement hRest =>
    apply of_bind (h.execute hStatement)
    intro completion
    cases completion with
    | normal => exact h.executeBlock hRest
    | returned value => exact of_pure _

theorem executeCases_succ (subject : Value) {default? default?' : Option (List Stmt)}
    {cases cases' : List Case} (hDefault : Option.Rel (List.Forall₂ Stmt.Alike) default? default?')
    (hAlike : List.Forall₂ Case.Alike cases cases') :
    Couples R cut (Exec.executeCases (n + 1) subject default? cases)
      (Exec.executeCases (n' + 1) subject default?' cases') := by
  cases hAlike with
  | nil =>
    cases hDefault with
    | none => exact of_pure Completion.normal
    | some hBody => exact hS.couples_inScope (h.executeBlock hBody)
  | cons hCase hRest =>
    cases hCase with
    | mk hValue hBody =>
      cases hValue with
      | none => exact h.executeCases subject hDefault hRest
      | some hValue =>
        apply of_bind (h.evaluate hValue)
        intro result
        exact of_ite (hS.couples_inScope (h.executeBlock hBody))
          (h.executeCases subject hDefault hRest)

theorem executeLoop_succ {condition condition' : Expr} {body body' : List Stmt}
    (hCondition : condition.Alike condition') (hBody : List.Forall₂ Stmt.Alike body body') :
    Couples R cut (Exec.executeLoop (n + 1) condition body)
      (Exec.executeLoop (n' + 1) condition' body') := by
  apply of_bind (h.evaluate hCondition)
  intro value
  apply of_bind (of_ofExcept value.condition)
  intro holds
  apply of_ite
  · apply of_bind (hS.couples_inScope (h.executeBlock hBody))
    intro completion
    cases completion with
    | normal => exact h.executeLoop hCondition hBody
    | returned value => exact of_pure _
  · exact of_pure Completion.normal

omit h in
theorem all (hSteps : n ≤ n') : AllCouple R cut n n' := by
  induction n generalizing n' with
  | zero => exact zero R cut n'
  | succ n ih =>
    obtain ⟨n', rfl⟩ : ∃ k, n' = k + 1 := ⟨n' - 1, by omega⟩
    have h : AllCouple R cut n n' := ih (by omega)
    exact ⟨h.evaluate_succ hS, h.evaluateAll_succ, h.call_succ hS, h.execute_succ hS,
      h.executeBlock_succ, h.executeCases_succ hS, h.executeLoop_succ hS⟩

end Exec.AllCouple

namespace Simulation

open Exec Exec.Couples

variable (hS : Simulation R cut) (hSteps : n ≤ n')
include hS hSteps

theorem couples_defineGlobal {global global' : Global} (hAlike : global.Alike global') :
    Couples R cut (defineGlobal n global) (defineGlobal n' global') := by
  unfold defineGlobal
  rw [hAlike.name_eq, hAlike.isMutable_eq]
  have hValue := hAlike.value
  generalize global.value = value at hValue
  generalize global'.value = value' at hValue
  cases hValue with
  | none => exact hS.couples_define global.name .nil global.isMutable
  | some hValue =>
    apply of_bind ((AllCouple.all hS hSteps).evaluate hValue)
    intro result
    exact hS.couples_define global.name result global.isMutable

theorem couples_defineGlobals {globals globals' : List Global}
    (hAlike : List.Forall₂ Global.Alike globals globals') :
    Couples R cut (defineGlobals n globals) (defineGlobals n' globals') := by
  induction hAlike with
  | nil => exact of_pure ()
  | cons hGlobal _ ih => exact of_bind (hS.couples_defineGlobal hSteps hGlobal) fun _ => ih

theorem couples_run {source source' : Source} (hAlike : source.Alike source')
    (hFunctions : Couples R cut (defineFunctions source.functions)
      (defineFunctions source'.functions)) : Couples R cut (run n source) (run n' source') := by
  apply of_bind (hS.couples_defineGlobals hSteps hAlike.globals)
  intro _
  apply of_bind hFunctions
  intro _
  exact (AllCouple.all hS hSteps).call "main" []

end Simulation

theorem Exec.Couples.of_defineFunctions {Q : Function → Function → Prop}
    (hDefine : ∀ {function function' machine machine'}, Q function function' → R machine machine' →
      (defineFunction function machine).Follows R cut (defineFunction function' machine'))
    {functions functions' : List Function} (h : List.Forall₂ Q functions functions') :
    Couples R cut (defineFunctions functions) (defineFunctions functions') := by
  induction h with
  | nil => exact of_pure ()
  | @cons function function' functions functions' hFunction _ ih =>
    have hHead : Couples R cut (defineFunction function) (defineFunction function') :=
      ⟨fun machine => refl_of Machine.Prints machine, hDefine hFunction⟩
    exact of_bind hHead fun _ => ih

end ProcLang
