import ProcLang.Proofs.Machine.Outcome
import ProcLang.Proofs.Safety.World

/-! # Machines that are ready for code

A machine is ready for code in a context if its store conforms to symbols which, seen from the
current scope, are those of the context. Entering scopes and functions, defining and assigning keep
a machine ready.
-/

namespace ProcLang

set_option autoImplicit false

structure Ready (typed : Prop) (W : World) (caller : Option Function) (Φ : StoreTyping) (Γ : Context)
    (store : Store) (current : ScopeId) : Prop where
  conforms : store.Conforms typed W.functions Φ
  current_lt : current < store.scopes.size
  view : Φ.view store current = Γ.symbol?
  globals : Φ 0 = W.symbol?
  sees : W.Sees caller Γ
  specific : typed → Γ.Specific

/-- What is left behind when code has run: the environment as it was, and the store extended. -/
structure Leaves (typed : Prop) (functions : List Function) (bound : Nat) (Φ : StoreTyping)
    (machine : Machine) (Φ' : StoreTyping) (machine' : Machine) : Prop where
  conforms : machine'.store.Conforms typed functions Φ'
  extension : Extends bound Φ machine.store Φ' machine'.store
  env_eq : machine'.env = machine.env

namespace Leaves

variable {typed : Prop} {functions : List Function} {bound : Nat} {Φ Φ' Φ'' : StoreTyping}
  {machine machine' machine'' : Machine}

theorem refl (h : machine.store.Conforms typed functions Φ) (bound : Nat) :
    Leaves typed functions bound Φ machine Φ machine where
  conforms := h
  extension := .refl bound Φ machine.store
  env_eq := rfl

theorem mono (h : Leaves typed functions bound Φ machine Φ' machine') {bound' : Nat}
    (hBound : bound' ≤ bound) : Leaves typed functions bound' Φ machine Φ' machine' :=
  { h with extension := h.extension.mono hBound }

theorem trans (h : Leaves typed functions bound Φ machine Φ' machine')
    (h' : Leaves typed functions bound Φ' machine' Φ'' machine'') :
    Leaves typed functions bound Φ machine Φ'' machine'' where
  conforms := h'.conforms
  extension := h.extension.trans h'.extension
  env_eq := h'.env_eq.trans h.env_eq

end Leaves

namespace Ready

variable {typed : Prop} {W : World} {caller : Option Function} {Φ Φ' : StoreTyping} {Γ : Context}
  {store store' : Store} {current : ScopeId} {machine machine' : Machine}

theorem of_extends (h : Ready typed W caller Φ Γ store current)
    (hConforms : store'.Conforms typed W.functions Φ')
    (hExtends : Extends (current + 1) Φ store Φ' store') :
    Ready typed W caller Φ' Γ store' current where
  conforms := hConforms
  current_lt := Nat.lt_of_lt_of_le h.current_lt hExtends.size_le
  view := (h.conforms.view_eq hExtends h.current_lt (Nat.lt_succ_self current)).trans h.view
  globals := (hExtends.symbols_eq 0 (Nat.succ_pos current)).trans h.globals
  sees := h.sees
  specific := h.specific

theorem of_leaves (h : Ready typed W caller Φ Γ machine.store machine.env.current)
    (hLeaves : Leaves typed W.functions (machine.env.current + 1) Φ machine Φ' machine') :
    Ready typed W caller Φ' Γ machine'.store machine'.env.current := by
  rw [hLeaves.env_eq]
  exact h.of_extends hLeaves.conforms hLeaves.extension

theorem resolve (h : Ready typed W caller Φ Γ store current) {name : String} {symbol : Variable}
    (hSymbol : Γ.symbol? name = some symbol) :
    ∃ owner binding, store.resolve current name = some (owner, binding) ∧ owner ≤ current ∧
      Φ owner name = some symbol ∧ Agrees typed symbol binding := by
  rw [← h.view] at hSymbol
  obtain ⟨owner, binding, hResolve, hMem, hOwner, hAgrees⟩ := h.conforms.resolve_of_view hSymbol
  exact ⟨owner, binding, hResolve, h.conforms.chain_le hMem, hOwner, hAgrees⟩

theorem define (h : Ready typed W caller Φ Γ store current) (hCurrent : 0 < current)
    {symbol : Variable} {value : Value} {isMutable : Bool}
    (hAgrees : Agrees typed symbol ⟨value, isMutable⟩)
    (hSpecific : typed → symbol.ty ≠ .comparable) :
    Ready typed W caller (Φ.bind current symbol.name symbol) (Γ.bind symbol)
      (store.define current symbol.name value isMutable) current where
  conforms := h.conforms.define h.current_lt hAgrees
  current_lt := by simpa using h.current_lt
  view := by
    funext name
    rw [h.conforms.view_define h.current_lt, h.view]
    rfl
  globals := (StoreTyping.bind_of_ne _ symbol (Nat.ne_of_lt hCurrent)).trans h.globals
  sees := by
    have hSees := h.sees
    cases caller <;> exact hSees
  specific hTyped := (h.specific hTyped).bind (hSpecific hTyped)

theorem assign (h : Ready typed W caller Φ Γ store current) {owner : ScopeId} {name : String}
    {symbol : Variable} {value : Value} (hLt : owner < store.scopes.size)
    (hOwner : Φ owner name = some symbol) (hAgrees : Agrees typed symbol ⟨value, true⟩) :
    (store.define owner name value true).Conforms typed W.functions Φ ∧
      Extends (current + 1) Φ store Φ (store.define owner name value true) := by
  have hConforms : (store.define owner name value true).Conforms typed W.functions
      (Φ.bind owner name symbol) := h.conforms.define hLt hAgrees
  rw [StoreTyping.bind_of_eq hOwner] at hConforms
  refine ⟨hConforms, ?_, ?_, ?_⟩
  · simp
  · intro id _
    exact Store.outer_define hLt ..
  · intro _ _
    rfl

theorem enterScope (h : Ready typed W caller Φ Γ store current) :
    Ready typed W caller Φ Γ (store.newInside current).2 store.scopes.size where
  conforms := h.conforms.newInside h.current_lt
  current_lt := by simp
  view := by
    have hOutside := h.conforms.view_eq (.newInside (current + 1) Φ store current) h.current_lt
      (Nat.lt_succ_self current)
    rw [← h.view, ← hOutside]
    funext name
    unfold StoreTyping.view
    rw [Store.chain, Store.scope_newInside, if_pos rfl, List.findSome?_cons,
      h.conforms.symbols_of_size_le (Nat.le_refl _)]
    simp only [Store.chain, Store.scope_newInside, if_neg (Nat.ne_of_lt h.current_lt)]
  globals := h.globals
  sees := h.sees
  specific := h.specific

/-- The scope of a call: nothing is seen in it but what is seen from the global scope. -/
theorem enterBody (h : Ready typed W caller Φ Γ store current) {callee : Option Function}
    {Γ' : Context} (hSymbols : Γ'.symbol? = W.symbol?) (hSees : W.Sees callee Γ')
    (hSpecific : typed → Γ'.Specific) :
    Ready typed W callee Φ Γ' (store.newInside 0).2 store.scopes.size where
  conforms := h.conforms.newInside (Nat.lt_of_le_of_lt (Nat.zero_le current) h.current_lt)
  current_lt := by simp
  view := by
    funext name
    unfold StoreTyping.view
    rw [Store.chain, Store.scope_newInside, if_pos rfl, List.findSome?_cons,
      h.conforms.symbols_of_size_le (Nat.le_refl _)]
    simp only [h.conforms.zero_chain, List.findSome?_cons, List.findSome?_nil, h.globals, hSymbols]
    cases W.symbol? name <;> rfl
  globals := h.globals
  sees := hSees
  specific := hSpecific

theorem defineParameters (hCurrent : 0 < current) (parameters : List String) (tys : List Ty)
    (arguments : List Value) (hTypes : tys.length = parameters.length)
    (hArguments : arguments.length = parameters.length)
    (hAdmits : typed → List.Forall₂ (fun ty value => ty.admits value.tag = true) tys arguments)
    (hSpecific : typed → .comparable ∉ tys) (h : Ready typed W caller Φ Γ store current) :
    let defined := (parameters.zip arguments).foldl
      (fun store (name, value) => store.define current name value false) store
    ∃ Φ', Ready typed W caller Φ'
        ((parameters.zip tys).foldl (fun Γ (name, ty) => Γ.bind ⟨name, ty, false⟩) Γ) defined current ∧
      Extends current Φ store Φ' defined := by
  induction parameters generalizing Φ Γ store tys arguments with
  | nil => exact ⟨Φ, h, .refl current Φ store⟩
  | cons parameter parameters ih =>
    cases tys with
    | nil => cases hTypes
    | cons ty tys =>
      cases arguments with
      | nil => cases hArguments
      | cons argument arguments =>
        have hAgrees : Agrees typed ⟨parameter, ty, false⟩ ⟨argument, false⟩ := by
          refine ⟨rfl, fun hTyped => ?_⟩
          cases hAdmits hTyped with
          | cons hHead hTail => exact hHead
        have hRest (hTyped : typed) :
            List.Forall₂ (fun ty value => ty.admits value.tag = true) tys arguments := by
          cases hAdmits hTyped with
          | cons hHead hTail => exact hTail
        have hTypeRest (hTyped : typed) := hSpecific hTyped
        simp only [List.mem_cons, not_or] at hTypeRest
        have hDefined := h.define hCurrent hAgrees fun hTyped => Ne.symm (hTypeRest hTyped).1
        obtain ⟨Φ', hReady, hExtends⟩ := ih tys arguments (Nat.succ.inj hTypes)
          (Nat.succ.inj hArguments) hRest (fun hTyped => (hTypeRest hTyped).2) hDefined
        exact ⟨Φ', hReady, (Extends.define Φ h.current_lt parameter _ argument false).trans hExtends⟩

theorem enterFrame {types : TypeRegistry} (hW : W.Valid types typed)
    (h : Ready typed W caller Φ Γ machine.store machine.env.current) {function : Function}
    (hMem : function ∈ W.functions) {Γ' : Context} {signature : Signature}
    (hHolds : W.Holds types function Γ' signature) {arguments : List Value}
    (hArguments : arguments.length = function.parameters.length)
    (hAdmits : typed → List.Forall₂ (fun ty value => ty.admits value.tag = true)
      signature.parameterTypes arguments) :
    let inner := machine.enterFrame 0 (function.parameters.zip arguments)
    0 < inner.env.current ∧ ∃ Φ',
      Ready typed W (some function) Φ' ((Γ'.declare signature).enter
        (function.parameters.zip signature.parameterTypes) signature.returnType)
        inner.store inner.env.current ∧
      Extends machine.store.scopes.size Φ machine.store Φ' inner.store := by
  have hPositive : 0 < machine.store.scopes.size := Nat.zero_lt_of_lt h.current_lt
  have hSpecific (hTyped : typed) : .comparable ∉ signature.parameterTypes :=
    hW.coherent.comparable_notMem hHolds.wellTyped.parameterTypes
      (hW.covered hTyped function hMem).parameterTypes
  have hBody : Ready typed W (some function) Φ
      { Γ'.declare signature with returnType := signature.returnType }
      (machine.store.newInside 0).2 machine.store.scopes.size :=
    h.enterBody hHolds.symbols hHolds.sees fun hTyped => by
      intro name symbol hSymbol
      exact hW.specific hTyped name symbol (hHolds.symbols ▸ hSymbol)
  obtain ⟨Φ', hReady, hExtends⟩ := hBody.defineParameters hPositive function.parameters
    signature.parameterTypes arguments hHolds.arity_eq hArguments hAdmits hSpecific
  exact ⟨hPositive, Φ', hReady,
    (Extends.newInside machine.store.scopes.size Φ machine.store 0).trans hExtends⟩

end Ready

end ProcLang
