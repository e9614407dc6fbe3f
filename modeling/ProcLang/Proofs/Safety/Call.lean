import ProcLang.Proofs.Safety.Evaluation

/-! # Soundness of calls

A call is safe if the body of what it reaches is. A function of the fragment that promises a value
ends in `RETURN`, so that its body never completes normally.
-/

namespace ProcLang

set_option autoImplicit false

variable {types : TypeRegistry} {typed : Prop} {W : World} {caller : Option Function}
  {Φ : StoreTyping} {Γ : Context} {machine : Machine} {n : Nat}

namespace Exec

theorem execute_returns_ne_normal (value : Expr) :
    (execute n (.returns value) machine).Satisfies
      (fun completion _ => completion ≠ .normal) fun _ _ => True := by
  cases n with
  | zero => trivial
  | succ n =>
    refine satisfies_bind (Outcome.satisfies_of_forall ?_ fun _ _ => trivial)
    exact fun result machine' => satisfies_pure nofun

theorem executeBlock_ne_normal {statements : List Stmt}
    (h : Stmt.endsInReturn statements = true) :
    (executeBlock n statements machine).Satisfies
      (fun completion _ => completion ≠ .normal) fun _ _ => True := by
  induction n generalizing statements machine with
  | zero => trivial
  | succ n ih =>
    cases statements with
    | nil => cases h
    | cons s rest =>
      cases rest with
      | nil =>
        cases s with
        | returns value =>
          refine satisfies_bind ((execute_returns_ne_normal value).imp ?_)
          rintro (_ | result) machine' hCompletion
          · exact absurd rfl hCompletion
          · exact satisfies_pure nofun
        | expression | declaration | assignment | conditional | switch | loop => cases h
      | cons next rest =>
        refine satisfies_bind (Outcome.satisfies_of_forall ?_ fun _ _ => trivial)
        rintro (_ | result) machine'
        · exact ih h
        · exact satisfies_pure nofun

end Exec

namespace World.Holds

variable {function : Function} {signature : Signature}

/-- What a call of a function of the fragment is worth, however its body completes. -/
theorem admits_of_kept (hTypes : types.Coherent) (h : W.Holds types function Γ signature)
    (hCovered : function.Covered) {completion : Completion} {Γ' : Context} (hReturn : Γ'.returnType = signature.returnType)
    (hTyped : typed) (hKept : completion.Kept typed Γ')
    (hNormal : Stmt.endsInReturn function.body = true → completion ≠ .normal) :
    signature.returnType.admits completion.value.tag = true := by
  cases completion with
  | returned value => exact hReturn ▸ hKept value rfl hTyped
  | normal =>
    rcases hCovered.returning with hName | hReturning
    · rcases h.wellTyped.returnType.nil_or_any hTypes hName with hNil | hAny
      · rw [hNil]
        rfl
      · rw [hAny]
        rfl
    · exact absurd rfl (hNormal hReturning)

end World.Holds

namespace Sound

theorem justified_body (hW : W.Valid types typed) {function : Function} {Γ' : Context}
    {signature : Signature} {arguments : List Value} (hMem : function ∈ W.functions)
    (hHolds : W.Holds types function Γ' signature)
    (hReady : Ready typed W caller Φ Γ machine.store machine.env.current)
    (hArguments : arguments.length = function.parameters.length)
    (hAdmits : typed → List.Forall₂ (fun ty value => ty.admits value.tag = true)
      signature.parameterTypes arguments) :
    let inner := machine.enterFrame 0 (function.parameters.zip arguments)
    ∃ Φ', Justified types typed W (some function) Φ' ((Γ'.declare signature).enter
        (function.parameters.zip signature.parameterTypes) signature.returnType)
        (.executeBlock function.body) inner ∧
      Extends machine.store.scopes.size Φ machine.store Φ' inner.store := by
  obtain ⟨hCurrent, Φ', hInner, hExtends⟩ :=
    hReady.enterFrame hW hMem hHolds hArguments hAdmits
  refine ⟨Φ', ⟨⟨hHolds.wellTyped.body, ?_⟩, hInner, fun _ => hCurrent⟩, hExtends⟩
  exact fun hTyped => (hW.covered hTyped function hMem).body

theorem call_user (hW : W.Valid types typed) (h : Sound types typed W n) {function : Function}
    {Γ' : Context} {signature : Signature} {arguments : List Value} (hMem : function ∈ W.functions)
    (hHolds : W.Holds types function Γ' signature)
    (hReady : Ready typed W caller Φ Γ machine.store machine.env.current)
    (hArguments : arguments.length = function.parameters.length)
    (hAdmits : typed → List.Forall₂ (fun ty value => ty.admits value.tag = true)
      signature.parameterTypes arguments) :
    (Exec.inFrame 0 (function.parameters.zip arguments) (Exec.executeBlock n function.body)
      machine).Safe typed W.functions 1 Φ machine fun completion _ _ =>
        typed → signature.returnType.admits completion.value.tag = true := by
  obtain ⟨Φ', hBody, hExtends⟩ := justified_body hW hMem hHolds hReady hArguments hAdmits
  refine Exec.safe_inFrame hReady.current_lt hExtends ?_
  by_cases hReturning : Stmt.endsInReturn function.body = true
  · refine ((h.executeBlock hBody).and_post (Exec.executeBlock_ne_normal hReturning)).imp ?_
    rintro completion machine' ⟨⟨Φ'', hLeaves, hKept⟩, hNormal⟩
    refine ⟨Φ'', hLeaves, fun hTyped => ?_⟩
    exact hHolds.admits_of_kept hW.coherent (hW.covered hTyped function hMem) (by simp) hTyped hKept
      fun _ => hNormal
  · refine (h.executeBlock hBody).imp fun completion Φ'' machine' _ hKept hTyped => ?_
    exact hHolds.admits_of_kept hW.coherent (hW.covered hTyped function hMem) (by simp) hTyped hKept
      fun hContra => absurd hContra hReturning

theorem call_succ (hW : W.Valid types typed) (h : Sound types typed W n) {name : String}
    {slot : Option Signature} {arguments : List Value}
    (hJustified : Justified types typed W caller Φ Γ (.call name slot arguments) machine) :
    (Exec.call (n + 1) name arguments machine).Safe typed W.functions 1 Φ machine
      fun value _ _ => typed → ∀ callable signature,
        callable? W.functions name arguments.length = some callable →
        callable.signature? = some signature → signature.returnType.admits value.tag = true := by
  obtain ⟨⟨-, callable, hCallable, hAdmits⟩, hReady, -⟩ := hJustified
  have hLookup := hReady.lookupFunction_eq hCallable
  rw [Exec.call, Exec.bind_of_done hLookup]
  cases callable with
  | print =>
    refine Exec.safe_bind (Exec.safe_print hReady.conforms arguments) ?_
    intro _ Φ₁ machine₁ hLeaves₁ _
    refine Exec.safe_pure hLeaves₁.conforms ?_
    intro _ callable signature hFound hSlot
    rw [hCallable] at hFound
    cases hFound
    cases hSlot
    rfl
  | user function closure =>
    obtain ⟨rfl, Γ', signature, hMem, hHolds, hArguments, hFit⟩ := hW.callee hCallable hAdmits
    refine Exec.safe_bind (h.call_user hW hMem hHolds hReady hArguments hFit) ?_
    intro completion Φ₁ machine₁ hLeaves₁ hValue
    refine Exec.safe_pure hLeaves₁.conforms ?_
    intro hTyped callable found hFound hSlot
    rw [hCallable] at hFound
    cases hFound
    cases hHolds.wellTyped.slot.symm.trans hSlot
    exact hValue hTyped

end Sound

end ProcLang
