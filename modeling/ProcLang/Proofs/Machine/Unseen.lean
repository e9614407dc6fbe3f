import ProcLang.Proofs.Machine.Agreement
import ProcLang.Proofs.Machine.Veil

/-! # Hidden scopes go unseen

Code that does not mention the name of a veil does the same on both of its machines. Expressions may
be evaluated in a hidden scope, for nothing is defined there; statements are executed in scopes that
correspond.
-/

namespace ProcLang

set_option autoImplicit false

variable {α : Type} {V : Veil} {env env' : Environment} {name : String} {n : Nat}

namespace Exec

open Agree

theorem agree_lookup (hName : name ≠ V.name) :
    Agree (Machine.Veiled V env env') (lookup name) (lookup name) := by
  intro machine machine' h
  unfold lookup
  rw [h.store.lookup_eq hName, h.env_eq', h.sees, h.env_eq]
  cases machine.store.lookup env.current name with
  | some value => exact .done h
  | none => exact .failed h

theorem agree_define (hVisible : V.isHidden env'.current = false) (hName : name ≠ V.name)
    (value : Value) (isMutable : Bool) :
    Agree (Machine.Veiled V env env') (define name value isMutable) (define name value isMutable) := by
  intro machine machine' h
  have hDefined := h.define hVisible hName value isMutable
  rw [h.sees, ← h.env_eq, ← h.env_eq'] at hDefined
  rw [← h.env_eq, ← h.env_eq']
  exact .done hDefined

theorem agree_assign (hName : name ≠ V.name) (value : Value) :
    Agree (Machine.Veiled V env env') (assign name value) (assign name value) := by
  intro machine machine' h
  unfold assign Store.assignmentTarget
  have hResolve := h.store.resolve hName env'.current
  rw [h.sees, ← h.env_eq, ← h.env_eq'] at hResolve
  generalize machine.store.resolve machine.env.current name = found at hResolve
  generalize machine'.store.resolve machine'.env.current name = found' at hResolve
  cases hResolve with
  | none => exact .failed h
  | @some first second hSame =>
    obtain ⟨owner, _⟩ := first
    obtain ⟨owner', binding⟩ := second
    obtain ⟨hPartner, rfl⟩ := hSame
    obtain ⟨hVisible, rfl⟩ := Veil.partner?_eq_some_iff.mp hPartner
    cases hMutable : binding.isMutable with
    | true =>
      simp only [hMutable, if_true]
      exact .done (h.define hVisible hName value true)
    | false =>
      simp only [hMutable]
      exact .failed h

theorem agree_print (values : List Value) :
    Agree (Machine.Veiled V env env') (print values) (print values) := by
  intro machine machine' h
  unfold print
  rw [h.printer_eq]
  exact .done { h with printer_eq := rfl }

theorem agree_inScope {body body' : Exec α} (hOpen : V.secluded ≠ some env'.current)
    (hBody : ∀ id id' : Nat, V.isHidden id' = false →
      Agree (Machine.Veiled V (env.inside id) (env'.inside id')) body body') :
    Agree (Machine.Veiled V env env') (inScope body) (inScope body') := by
  intro machine machine' h
  obtain ⟨hPushed, hVisible⟩ := h.pushScope hOpen
  exact (hBody _ _ hVisible _ _ hPushed).mapMachine fun _ _ => h.popScope

theorem agrees_inFrame {machine machine' : Machine} {closure : Nat}
    {arguments : List (String × Value)} {body : Exec α} (h : Machine.Veiled V env env' machine machine')
    (hClosure : closure < machine'.store.scopes.size) (hVisible : V.isHidden closure = false)
    (hNames : ∀ argument ∈ arguments, argument.1 ≠ V.name)
    (hBody : ∀ id id' : Nat, V.isHidden id' = false →
      Agree (Machine.Veiled V ⟨id, []⟩ ⟨id', []⟩) body body) :
    (inFrame (V.seen closure) arguments body machine).Agrees (Machine.Veiled V env env')
      (inFrame closure arguments body machine') := by
  unfold inFrame
  rw [h.callDepth_eq, h.callLimit_eq]
  split
  · exact .failed h
  · obtain ⟨hFrame, hFrameVisible⟩ := h.enterFrame hClosure hVisible hNames
    exact (hBody _ _ hFrameVisible _ _ hFrame).mapMachine fun _ _ => h.leaveFrame

/-- All code that can be executed in so many steps and does not mention the name does the same. -/
structure AllAgree (V : Veil) (n : Nat) : Prop where
  evaluate : ∀ {e : Expr}, e.avoids V.name = true → ∀ env env',
    Agree (Machine.Veiled V env env') (Exec.evaluate n e) (Exec.evaluate n e)
  evaluateAll : ∀ {es : List Expr}, (∀ e ∈ es, e.avoids V.name = true) → ∀ env env',
    Agree (Machine.Veiled V env env') (Exec.evaluateAll n es) (Exec.evaluateAll n es)
  call : ∀ name arguments env env',
    Agree (Machine.Veiled V env env') (Exec.call n name arguments) (Exec.call n name arguments)
  execute : ∀ {s : Stmt}, s.avoids V.name = true → ∀ {env env'},
    V.isHidden env'.current = false →
    Agree (Machine.Veiled V env env') (Exec.execute n s) (Exec.execute n s)
  executeBlock : ∀ {statements : List Stmt}, Stmt.blockAvoids statements V.name = true →
    ∀ {env env'}, V.isHidden env'.current = false →
    Agree (Machine.Veiled V env env') (Exec.executeBlock n statements)
      (Exec.executeBlock n statements)
  executeCases : ∀ subject {default? : Option (List Stmt)} {cases : List Case},
    (∀ body ∈ default?, Stmt.blockAvoids body V.name = true) →
    (∀ case ∈ cases, case.avoids V.name = true) → ∀ {env env'},
    V.isHidden env'.current = false →
    Agree (Machine.Veiled V env env') (Exec.executeCases n subject default? cases)
      (Exec.executeCases n subject default? cases)
  executeLoop : ∀ {condition : Expr} {body : List Stmt}, condition.avoids V.name = true →
    Stmt.blockAvoids body V.name = true → ∀ {env env'}, V.isHidden env'.current = false →
    Agree (Machine.Veiled V env env') (Exec.executeLoop n condition body)
      (Exec.executeLoop n condition body)

theorem defaultBody?_avoids {cases : List Case} (h : ∀ case ∈ cases, case.avoids name = true) :
    ∀ body ∈ defaultBody? cases, Stmt.blockAvoids body name = true := by
  intro body hBody
  obtain ⟨⟨value, _⟩, hFound, rfl⟩ := Option.map_eq_some_iff.mp hBody
  exact (Case.avoids_iff.mp (h _ (List.mem_of_find?_eq_some hFound))).2

namespace AllAgree

theorem zero (V : Veil) : AllAgree V 0 := by
  constructor <;> intros <;> exact of_exhausted

variable (h : AllAgree V n)
include h

theorem evaluate_succ {e : Expr} (hAvoids : e.avoids V.name = true) (env env' : Environment) :
    Agree (Machine.Veiled V env env') (Exec.evaluate (n + 1) e) (Exec.evaluate (n + 1) e) := by
  cases e with
  | literal literal ty => exact of_pure literal.value
  | group inner ty => exact h.evaluate (Expr.avoids_group.mp hAvoids) env env'
  | binary operator left right ty =>
    obtain ⟨hLeft, hRight⟩ := Expr.avoids_binary.mp hAvoids
    have hLeft := h.evaluate hLeft env env'
    have hRight := h.evaluate hRight env env'
    by_cases hAnd : operator = .and
    · subst hAnd
      exact of_bind hLeft fun _ => of_ite (of_bind hRight fun _ => of_pure _) (of_pure _)
    by_cases hOr : operator = .or
    · subst hOr
      exact of_bind hLeft fun _ => of_ite (of_pure _) (of_bind hRight fun _ => of_pure _)
    rw [evaluate_binary hAnd hOr]
    exact of_bind hLeft fun _ => of_bind hRight fun _ => of_ofExcept _
  | access name symbol ty => exact agree_lookup (Expr.avoids_access.mp hAvoids)
  | element name index symbol ty =>
    obtain ⟨hName, hIndex⟩ := Expr.avoids_element.mp hAvoids
    apply of_bind (agree_lookup hName)
    intro list
    exact of_bind (h.evaluate hIndex env env') fun _ => of_ofExcept _
  | call name arguments signature ty =>
    apply of_bind (h.evaluateAll (Expr.avoids_call.mp hAvoids) env env')
    intro values
    exact h.call name values env env'
  | list items ty =>
    exact of_bind (h.evaluateAll (Expr.avoids_list.mp hAvoids) env env') fun _ => of_pure _

theorem evaluateAll_succ {es : List Expr} (hAvoids : ∀ e ∈ es, e.avoids V.name = true)
    (env env' : Environment) :
    Agree (Machine.Veiled V env env') (Exec.evaluateAll (n + 1) es)
      (Exec.evaluateAll (n + 1) es) := by
  cases es with
  | nil => exact of_pure []
  | cons e es =>
    apply of_bind (h.evaluate (hAvoids e List.mem_cons_self) env env')
    intro value
    have hRest := h.evaluateAll (fun other hMem => hAvoids other (List.mem_cons_of_mem e hMem)) env env'
    exact of_bind hRest fun _ => of_pure _

theorem call_succ (name : String) (arguments : List Value) (env env' : Environment) :
    Agree (Machine.Veiled V env env') (Exec.call (n + 1) name arguments)
      (Exec.call (n + 1) name arguments) := by
  intro machine machine' hVeiled
  have hCallable := hVeiled.store.lookupFunction env'.current name arguments.length
  rw [hVeiled.sees, ← hVeiled.env_eq, ← hVeiled.env_eq'] at hCallable
  generalize hFound : machine.store.lookupFunction machine.env.current name arguments.length =
    found at hCallable
  generalize hFound' : machine'.store.lookupFunction machine'.env.current name arguments.length =
    found' at hCallable
  cases hCallable with
  | none =>
    rw [call_of_none hFound, call_of_none hFound']
    exact .failed hVeiled
  | some hCallable =>
    cases hCallable with
    | print =>
      rw [call_of_print hFound, call_of_print hFound']
      exact of_bind (agree_print arguments) (fun _ => of_pure _) machine machine' hVeiled
    | @user function closure hAvoids hVisible =>
      rw [call_of_user hFound, call_of_user hFound']
      obtain ⟨hParameters, hBody⟩ := Function.avoids_iff.mp hAvoids
      have hClosure := hVeiled.store.closed.closure_lt_of_lookupFunction hFound'
      have hNames : ∀ argument ∈ function.parameters.zip arguments, argument.1 ≠ V.name :=
        fun argument hMem => hParameters _ (List.of_mem_zip hMem).1
      have hFrame := agrees_inFrame hVeiled hClosure hVisible hNames
        fun _ _ hNew => h.executeBlock hBody hNew
      apply hFrame.bind
      · intro completion left left' hLeft
        exact .done hLeft
      · exact fun _ _ hLeft => hLeft

section Statements

variable {env env' : Environment} (hVisible : V.isHidden env'.current = false)
include hVisible

/-- A block in a scope of its own. -/
theorem inScope {statements : List Stmt}
    (hAvoids : Stmt.blockAvoids statements V.name = true) :
    Agree (Machine.Veiled V env env') (Exec.inScope (Exec.executeBlock n statements))
      (Exec.inScope (Exec.executeBlock n statements)) :=
  agree_inScope (Veil.open_of_visible hVisible) fun _ _ hNew => h.executeBlock hAvoids hNew

theorem execute_succ {s : Stmt} (hAvoids : s.avoids V.name = true) :
    Agree (Machine.Veiled V env env') (Exec.execute (n + 1) s) (Exec.execute (n + 1) s) := by
  cases s with
  | expression e =>
    exact of_bind (h.evaluate (Stmt.avoids_expression.mp hAvoids) env env') fun _ => of_pure _
  | declaration name typeName value symbol =>
    obtain ⟨hName, hValue⟩ := Stmt.avoids_declaration.mp hAvoids
    cases value with
    | none => exact of_bind (agree_define hVisible hName .nil true) fun _ => of_pure _
    | some value =>
      apply of_bind (h.evaluate (hValue value rfl) env env')
      intro result
      exact of_bind (agree_define hVisible hName result true) fun _ => of_pure _
  | assignment receiver value =>
    obtain ⟨hReceiver, hValue⟩ := Stmt.avoids_assignment.mp hAvoids
    have hValue := h.evaluate hValue env env'
    cases receiver with
    | access name symbol ty =>
      apply of_bind hValue
      intro result
      exact of_bind (agree_assign (Expr.avoids_access.mp hReceiver) result) fun _ => of_pure _
    | element name index symbol ty =>
      obtain ⟨hName, hIndex⟩ := Expr.avoids_element.mp hReceiver
      apply of_bind (agree_lookup hName)
      intro list
      apply of_bind (of_ofExcept (list.items name))
      intro items
      apply of_bind (h.evaluate hIndex env env')
      intro i
      apply of_bind (of_ofExcept (i.position items.length))
      intro position
      apply of_bind hValue
      intro result
      exact of_bind (agree_assign hName _) fun _ => of_pure _
    | literal | group | binary | call | list => exact of_fail _
  | conditional condition consequent alternative =>
    obtain ⟨hCondition, hConsequent, hAlternative⟩ := Stmt.avoids_conditional.mp hAvoids
    apply of_bind (h.evaluate hCondition env env')
    intro value
    apply of_bind (of_ofExcept value.condition)
    intro holds
    exact of_ite (h.inScope hVisible hConsequent) (h.inScope hVisible hAlternative)
  | switch subject cases =>
    obtain ⟨hSubject, hCases⟩ := Stmt.avoids_switch.mp hAvoids
    apply of_bind (h.evaluate hSubject env env')
    intro value
    exact h.executeCases value (defaultBody?_avoids hCases) hCases hVisible
  | loop condition body =>
    obtain ⟨hCondition, hBody⟩ := Stmt.avoids_loop.mp hAvoids
    exact h.executeLoop hCondition hBody hVisible
  | returns value =>
    exact of_bind (h.evaluate (Stmt.avoids_returns.mp hAvoids) env env') fun _ => of_pure _

theorem executeBlock_succ {statements : List Stmt}
    (hAvoids : Stmt.blockAvoids statements V.name = true) :
    Agree (Machine.Veiled V env env') (Exec.executeBlock (n + 1) statements)
      (Exec.executeBlock (n + 1) statements) := by
  cases statements with
  | nil => exact of_pure Completion.normal
  | cons s rest =>
    obtain ⟨hStatement, hRest⟩ := Stmt.blockAvoids_cons.mp hAvoids
    apply of_bind (h.execute hStatement hVisible)
    intro completion
    cases completion with
    | normal => exact h.executeBlock hRest hVisible
    | returned value => exact of_pure _

theorem executeCases_succ (subject : Value) {default? : Option (List Stmt)} {cases : List Case}
    (hDefault : ∀ body ∈ default?, Stmt.blockAvoids body V.name = true)
    (hCases : ∀ case ∈ cases, case.avoids V.name = true) :
    Agree (Machine.Veiled V env env') (Exec.executeCases (n + 1) subject default? cases)
      (Exec.executeCases (n + 1) subject default? cases) := by
  rcases cases with _ | ⟨⟨value, body⟩, rest⟩
  · cases default? with
    | none => exact of_pure Completion.normal
    | some body => exact h.inScope hVisible (hDefault body rfl)
  · obtain ⟨hValue, hBody⟩ := Case.avoids_iff.mp (hCases _ List.mem_cons_self)
    have hRest : ∀ case ∈ rest, case.avoids V.name = true :=
      fun case hMem => hCases case (List.mem_cons_of_mem _ hMem)
    cases value with
    | none => exact h.executeCases subject hDefault hRest hVisible
    | some value =>
      apply of_bind (h.evaluate (hValue value rfl) env env')
      intro result
      exact of_ite (h.inScope hVisible hBody) (h.executeCases subject hDefault hRest hVisible)

theorem executeLoop_succ {condition : Expr} {body : List Stmt}
    (hCondition : condition.avoids V.name = true) (hBody : Stmt.blockAvoids body V.name = true) :
    Agree (Machine.Veiled V env env') (Exec.executeLoop (n + 1) condition body)
      (Exec.executeLoop (n + 1) condition body) := by
  apply of_bind (h.evaluate hCondition env env')
  intro value
  apply of_bind (of_ofExcept value.condition)
  intro holds
  apply of_ite
  · apply of_bind (h.inScope hVisible hBody)
    intro completion
    cases completion with
    | normal => exact h.executeLoop hCondition hBody hVisible
    | returned value => exact of_pure _
  · exact of_pure Completion.normal

end Statements

omit h in
theorem all (V : Veil) (n : Nat) : AllAgree V n := by
  induction n with
  | zero => exact zero V
  | succ n h =>
    constructor
    · exact h.evaluate_succ
    · exact h.evaluateAll_succ
    · exact h.call_succ
    · exact fun hAvoids _ _ hVisible => h.execute_succ hVisible hAvoids
    · exact fun hAvoids _ _ hVisible => h.executeBlock_succ hVisible hAvoids
    · exact fun subject _ _ hDefault hCases _ _ hVisible =>
        h.executeCases_succ hVisible subject hDefault hCases
    · exact fun hCondition hBody _ _ hVisible => h.executeLoop_succ hVisible hCondition hBody

end AllAgree

end Exec

end ProcLang
