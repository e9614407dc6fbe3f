import Mathlib.Data.List.Induction
import ProcLang.Proofs.Typing.Rules

/-! # Types that can be named

In a coherent registry a name belongs to the type that it finds, and the built-in types are found.
Every registry that is made by registrations is coherent, since no registration takes a name away
from its type. Such a registry knows the types of all that a program can mention, each under its own
name.
-/

namespace ProcLang

set_option autoImplicit false

namespace TypeRegistry

/-- Names are the names of the types that they find, and find all built-in types. -/
structure Coherent (types : TypeRegistry) : Prop where
  name_eq : ∀ {name ty}, types.lookup name = some ty → ty.name = name
  builtin : ∀ ty ∈ Ty.builtins, types.lookup ty.name = some ty

/-- At first the built-in types are found and nothing else. -/
theorem lookup_initial (name : String) : ({} : TypeRegistry).lookup name = Ty.builtin? name := by
  have hFind (tys : List Ty) : Table.find name (tys.map fun ty => (ty.name, ty)) =
      tys.find? fun ty => ty.name = name := by
    induction tys with
    | nil => rfl
    | cons ty tys ih =>
      rw [List.map_cons, Table.find, List.find?_cons, ih]
      by_cases hName : ty.name = name <;> simp [hName]
  exact hFind Ty.builtins

theorem Coherent.initial : ({} : TypeRegistry).Coherent where
  name_eq {name ty} hFound := by
    rw [lookup_initial] at hFound
    simpa using List.find?_some hFound
  builtin ty hMem := by
    rw [lookup_initial]
    revert ty
    decide

theorem register_fst (types : TypeRegistry) (name : String) :
    (types.register name).1 = (types.lookup name).getD (.named name) :=
  types.types.getOrInsert_fst name (.named name)

/-- A registration keeps what was registered before. -/
theorem lookup_register_of_some {types : TypeRegistry} {other : String} {ty : Ty}
    (h : types.lookup other = some ty) (name : String) :
    (types.register name).2.lookup other = some ty := by
  rw [lookup_register, register_fst]
  by_cases hSame : name = other
  · subst hSame
    simp [h]
  · simp [hSame, h]

/-- The type of a name that was free is the nominal type of that name. -/
theorem Coherent.register {types : TypeRegistry} (h : types.Coherent) (name : String) :
    (types.register name).2.Coherent where
  name_eq {other ty} hFound := by
    rw [lookup_register, register_fst] at hFound
    by_cases hSame : name = other
    · subst hSame
      rw [if_pos rfl, Option.some.injEq] at hFound
      subst hFound
      cases hOld : types.lookup name with
      | some old => exact h.name_eq hOld
      | none => rfl
    · rw [if_neg hSame] at hFound
      exact h.name_eq hFound
  builtin ty hMem := lookup_register_of_some (h.builtin ty hMem) name

theorem ofNames_append_singleton (names : List String) (name : String) :
    ofNames (names ++ [name]) = ((ofNames names).register name).2 := by
  rw [ofNames, List.foldl_append]
  rfl

/-- Whatever is registered, in any order and any number of times. -/
theorem coherent_ofNames (names : List String) : (ofNames names).Coherent := by
  induction names using List.reverseRecOn with
  | nil => exact .initial
  | append_singleton names name ih =>
    rw [ofNames_append_singleton]
    exact ih.register name

def Knows (types : TypeRegistry) (ty : Ty) : Prop :=
  types.lookup ty.name = some ty

variable {types : TypeRegistry} {name : String} {ty : Ty}

theorem Coherent.knows_of_lookup (hTypes : types.Coherent) (h : types.lookup name = some ty) :
    types.Knows ty := by
  rw [Knows, hTypes.name_eq h, h]

theorem Coherent.knows_of_hasReturnType (hTypes : types.Coherent) {returnType : Option String}
    (h : HasReturnType types returnType ty) : types.Knows ty := by
  cases h with
  | missing => exact hTypes.builtin .nil (by decide)
  | named hType => exact hTypes.knows_of_lookup hType

theorem Coherent.knows_all (hTypes : types.Coherent) {names : List String} {tys : List Ty}
    (h : List.Forall₂ (fun name ty => types.lookup name = some ty) names tys) :
    ∀ ty ∈ tys, types.Knows ty := by
  induction h with
  | nil => nofun
  | cons hHead _ ih => exact List.forall_mem_cons.mpr ⟨hTypes.knows_of_lookup hHead, ih⟩

theorem Coherent.knows_of_numeric (hTypes : types.Coherent) (h : ty.isNumeric = true) :
    types.Knows ty := by
  cases ty with
  | integer | decimal => exact hTypes.builtin _ (by decide)
  | any | nil | comparable | boolean | character | string | named => cases h

theorem Knows.eq_of_name_eq {other : Ty} (h : types.Knows ty) (hOther : types.Knows other)
    (hName : ty.name = other.name) : ty = other := by
  unfold Knows at h hOther
  rw [hName, hOther] at h
  exact (Option.some.inj h).symm

end TypeRegistry

structure Signature.Known (types : TypeRegistry) (signature : Signature) : Prop where
  parameterTypes : ∀ ty ∈ signature.parameterTypes, types.Knows ty
  returnType : types.Knows signature.returnType

/-- All that code can mention has types that are known. -/
structure Context.Known (types : TypeRegistry) (Γ : Context) : Prop where
  coherent : types.Coherent
  symbol : ∀ {name symbol}, Γ.symbol? name = some symbol → types.Knows symbol.ty
  signature : ∀ {name arity signature}, Γ.signature? name arity = some signature →
    signature.Known types
  returnType : types.Knows Γ.returnType

namespace Context.Known

variable {types : TypeRegistry} {Γ : Context}

theorem bind (h : Γ.Known types) {symbol : Variable} (hSymbol : types.Knows symbol.ty) :
    (Γ.bind symbol).Known types where
  coherent := h.coherent
  symbol {name found} hFound := by
    simp only [Context.bind] at hFound
    split at hFound
    · cases hFound
      exact hSymbol
    · exact h.symbol hFound
  signature := h.signature
  returnType := h.returnType

theorem declare (h : Γ.Known types) {signature : Signature} (hSignature : signature.Known types) :
    (Γ.declare signature).Known types where
  coherent := h.coherent
  symbol := h.symbol
  signature {name arity found} hFound := by
    simp only [Context.declare] at hFound
    split at hFound
    · cases hFound
      exact hSignature
    · exact h.signature hFound
  returnType := h.returnType

theorem initial (hTypes : types.Coherent) : Context.initial.Known types := by
  have hAny : types.Knows .any := hTypes.builtin .any (by decide)
  have hNil : types.Knows .nil := hTypes.builtin .nil (by decide)
  have hEmpty : Context.Known types ⟨fun _ => none, fun _ _ => none, .nil⟩ :=
    { coherent := hTypes, symbol := nofun, signature := nofun, returnType := hNil }
  exact hEmpty.declare ⟨List.forall_mem_singleton.mpr hAny, hNil⟩

theorem enter (h : Γ.Known types) {parameters : List (String × Ty)} {returnType : Ty}
    (hParameters : ∀ parameter ∈ parameters, types.Knows parameter.2)
    (hReturn : types.Knows returnType) : (Γ.enter parameters returnType).Known types := by
  have hEntered : Context.Known types { Γ with returnType } :=
    ⟨h.coherent, h.symbol, h.signature, hReturn⟩
  unfold Context.enter
  generalize { Γ with returnType } = Γ' at hEntered
  induction parameters generalizing Γ' with
  | nil => exact hEntered
  | cons parameter parameters ih =>
    obtain ⟨hHead, hTail⟩ := List.forall_mem_cons.mp hParameters
    exact ih hTail _ (hEntered.bind hHead)

/-- The body of a function. -/
theorem body (h : Γ.Known types) {signature : Signature} (hSignature : signature.Known types)
    (parameters : List String) :
    (Γ.enter (parameters.zip signature.parameterTypes) signature.returnType).Known types := by
  refine h.enter (fun parameter hMem => ?_) hSignature.returnType
  exact hSignature.parameterTypes _ (List.of_mem_zip hMem).2

end Context.Known

section Rules

variable {types : TypeRegistry} {Γ Γ' : Context}

theorem Literal.HasType.known (hTypes : types.Coherent) {value : Literal} {ty : Ty}
    (h : value.HasType ty) : types.Knows ty := by
  cases h <;> exact hTypes.builtin _ (by decide)

theorem Operator.HasType.known (hTypes : types.Coherent) {operator : Operator} {left right ty : Ty}
    (h : operator.HasType left right ty) : types.Knows ty := by
  cases h with
  | logical | comparison | join => exact hTypes.builtin _ (by decide)
  | arithmetic _ hNumeric | power hNumeric => exact hTypes.knows_of_numeric hNumeric

theorem Expr.HasType.known (hΓ : Γ.Known types) (e : Expr) {ty : Ty} (h : e.HasType Γ ty) :
    types.Knows ty := by
  cases e with
  | literal =>
    cases h with
    | literal hValue => exact hValue.known hΓ.coherent
  | group inner =>
    cases h with
    | group _ hInner => exact known hΓ inner hInner
  | binary =>
    cases h with
    | binary _ _ hOperator => exact hOperator.known hΓ.coherent
  | access =>
    cases h with
    | access hSymbol => exact hΓ.symbol hSymbol
  | element =>
    cases h with
    | element _ hSymbol => exact hΓ.symbol hSymbol
  | call =>
    cases h with
    | call hSignature => exact (hΓ.signature hSignature).returnType
  | list =>
    cases h with
    | list => exact hΓ.coherent.builtin .any (by decide)

theorem HasBindingType.known (hΓ : Γ.Known types) {typeName : Option String} {value : Option Expr}
    {ty : Ty} (h : HasBindingType types Γ typeName value ty) : types.Knows ty := by
  cases h with
  | declared hType => exact hΓ.coherent.knows_of_lookup hType
  | inferred hValue => exact hValue.known hΓ _
  | initialized hType => exact hΓ.coherent.knows_of_lookup hType

theorem Stmt.WellTyped.known (hΓ : Γ.Known types) {s : Stmt} (h : s.WellTyped types Γ Γ') :
    Γ'.Known types := by
  cases h with
  | declaration hBinding => exact hΓ.bind (hBinding.known hΓ)
  | expression | assignment | conditional | switch | loop | returns => exact hΓ

theorem Function.WellTyped.signature_known (hTypes : types.Coherent) {function : Function}
    {signature : Signature} (h : function.WellTyped types Γ signature) : signature.Known types :=
  ⟨hTypes.knows_all h.parameterTypes, hTypes.knows_of_hasReturnType h.returnType⟩

end Rules

end ProcLang
