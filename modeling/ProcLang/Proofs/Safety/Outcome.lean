import ProcLang.Proofs.Safety.Ready

/-! # Safe outcomes

An outcome is safe if it is a result with a store that still conforms, or an error that the rules
tolerate. Errors about names are never tolerated, and others only for numbers and for the depth of
calls once types count.
-/

namespace ProcLang

set_option autoImplicit false

namespace RuntimeError

/-- Errors about what a name stands for. -/
def isNaming : RuntimeError → Bool
  | immutableAssignment _ | undefinedVariable _ | undefinedFunction _ _ | invalidReceiver => true
  | typeMismatch _ _ | operation _ | indexOutOfBounds _ _ | notAList _ | stackOverflow _ => false

/-- Errors that depend on the values of numbers, or on how deep calls go. -/
def isNumerical : RuntimeError → Bool
  | operation (.arithmetic _) | stackOverflow _ => true
  | _ => false

structure Tolerated (typed : Prop) (error : RuntimeError) : Prop where
  isNaming : error.isNaming = false
  isNumerical : typed → error.isNumerical = true

end RuntimeError

theorem RuntimeError.Tolerated.of_untyped {typed : Prop} (hUntyped : ¬typed) {error : RuntimeError}
    (h : error.isNaming = false) : error.Tolerated typed where
  isNaming := h
  isNumerical hTyped := absurd hTyped hUntyped

/-- The scopes below the current one keep their symbols, and so does the current one with a margin of
one. -/
def Outcome.Safe {α : Type} (typed : Prop) (functions : List Function) (margin : Nat)
    (Φ : StoreTyping) (machine : Machine) (post : α → StoreTyping → Machine → Prop)
    (outcome : Outcome α) : Prop :=
  outcome.Satisfies
    (fun result machine' => ∃ Φ',
      Leaves typed functions (machine.env.current + margin) Φ machine Φ' machine' ∧
        post result Φ' machine')
    fun error _ => error.Tolerated typed

section Safe

open Outcome

variable {α β : Type} {typed : Prop} {W : World} {functions : List Function} {margin : Nat}
  {Φ : StoreTyping} {machine : Machine} {post weaker : α → StoreTyping → Machine → Prop}
  {post' : β → StoreTyping → Machine → Prop}

theorem Outcome.Safe.imp {outcome : Outcome α}
    (h : outcome.Safe typed functions margin Φ machine post)
    (hPost : ∀ result Φ' machine',
      Leaves typed functions (machine.env.current + margin) Φ machine Φ' machine' →
      post result Φ' machine' → weaker result Φ' machine') :
    outcome.Safe typed functions margin Φ machine weaker := by
  refine Satisfies.imp h ?_
  rintro result machine' ⟨Φ', hLeaves, hResult⟩
  exact ⟨Φ', hLeaves, hPost result Φ' machine' hLeaves hResult⟩

theorem Outcome.Safe.of_done {outcome : Outcome α} {result : α} {machine' : Machine}
    (h : outcome.Safe typed functions margin Φ machine post)
    (hDone : outcome = .done result machine') :
    ∃ Φ', Leaves typed functions (machine.env.current + margin) Φ machine Φ' machine' ∧
      post result Φ' machine' :=
  Satisfies.of_done h hDone

theorem Outcome.Safe.drop_margin {outcome : Outcome α}
    (h : outcome.Safe typed functions 1 Φ machine post) :
    outcome.Safe typed functions 0 Φ machine post := by
  refine Satisfies.imp h ?_
  rintro result machine' ⟨Φ', hLeaves, hResult⟩
  exact ⟨Φ', hLeaves.mono (Nat.le_succ _), hResult⟩

namespace Exec

theorem safe_pure {result : α} (hConforms : machine.store.Conforms typed functions Φ)
    (h : post result Φ machine) :
    ((pure result : Exec α) machine).Safe typed functions margin Φ machine post :=
  ⟨Φ, .refl hConforms _, h⟩

theorem safe_ofExcept {result : Except RuntimeError α}
    (hConforms : machine.store.Conforms typed functions Φ)
    (hOk : ∀ value, result = .ok value → post value Φ machine)
    (hError : ∀ error, result = .error error → error.Tolerated typed) :
    (ofExcept result machine).Safe typed functions margin Φ machine post :=
  satisfies_ofExcept (fun value hValue => ⟨Φ, .refl hConforms _, hOk value hValue⟩) hError

theorem safe_ofExcept_of_untyped {result : Except RuntimeError α} (hUntyped : ¬typed)
    (hConforms : machine.store.Conforms typed functions Φ)
    (hNaming : ∀ error, result = .error error → error.isNaming = false) :
    (ofExcept result machine).Safe typed functions margin Φ machine fun _ _ _ => True :=
  safe_ofExcept hConforms (fun _ _ => trivial) fun error hError =>
    .of_untyped hUntyped (hNaming error hError)

theorem safe_print (hConforms : machine.store.Conforms typed functions Φ) (values : List Value) :
    (print values machine).Safe typed functions margin Φ machine fun _ _ _ => True :=
  ⟨Φ, ⟨hConforms, .refl _ _ _, rfl⟩, trivial⟩

theorem safe_bind {first : Exec α} {next : α → Exec β}
    (hFirst : (first machine).Safe typed functions margin Φ machine post)
    (hNext : ∀ result Φ₁ machine₁,
      Leaves typed functions (machine.env.current + margin) Φ machine Φ₁ machine₁ →
      post result Φ₁ machine₁ →
      (next result machine₁).Safe typed functions margin Φ₁ machine₁ post') :
    ((first >>= next) machine).Safe typed functions margin Φ machine post' := by
  refine satisfies_bind (Satisfies.imp hFirst ?_)
  rintro result machine₁ ⟨Φ₁, hLeaves, hResult⟩
  refine Satisfies.imp (hNext result Φ₁ machine₁ hLeaves hResult) ?_
  rintro result' machine₂ ⟨Φ₂, hLeaves', hResult'⟩
  rw [hLeaves.env_eq] at hLeaves'
  exact ⟨Φ₂, hLeaves.trans hLeaves', hResult'⟩

theorem safe_inScope {caller : Option Function} {Γ : Context} {body : Exec α} {holds : α → Prop}
    (hReady : Ready typed W caller Φ Γ machine.store machine.env.current)
    (h : (body machine.pushScope).Safe typed W.functions 0 Φ machine.pushScope
      fun result _ _ => holds result) :
    (inScope body machine).Safe typed W.functions 1 Φ machine fun result _ _ => holds result := by
  refine satisfies_inScope (Satisfies.imp h ?_)
  rintro result machine' ⟨Φ', hLeaves, hResult⟩
  have hEntered : Leaves typed W.functions (machine.env.current + 1) Φ machine.pushScope Φ' machine' :=
    hLeaves.mono hReady.current_lt
  refine ⟨Φ', ⟨hEntered.conforms, ?_, ?_⟩, hResult⟩
  · exact (Extends.newInside _ Φ machine.store machine.env.current).trans hEntered.extension
  · exact congrArg Environment.pop hEntered.env_eq

theorem safe_inFrame {closure : ScopeId} {arguments : List (String × Value)} {body : Exec α}
    {Φ' : StoreTyping} {holds : α → Prop} (hCurrent : machine.env.current < machine.store.scopes.size)
    (hExtends : Extends machine.store.scopes.size Φ machine.store Φ'
      (machine.enterFrame closure arguments).store)
    (h : (body (machine.enterFrame closure arguments)).Safe typed functions 0 Φ'
      (machine.enterFrame closure arguments) fun result _ _ => holds result) :
    (inFrame closure arguments body machine).Safe typed functions 1 Φ machine
      fun result _ _ => holds result := by
  refine satisfies_inFrame (fun _ => ?_) fun _ => ?_
  · exact ⟨rfl, fun _ => rfl⟩
  · refine Satisfies.imp h ?_
    rintro result machine' ⟨Φ'', hLeaves, hResult⟩
    refine ⟨Φ'', ⟨hLeaves.conforms, ?_, rfl⟩, hResult⟩
    exact (hExtends.mono hCurrent).trans (hLeaves.extension.mono hCurrent)

end Exec

end Safe

end ProcLang
