import ProcLang.Proofs.Machine.StoreTyping
import ProcLang.Proofs.Typing.Fragment
import ProcLang.Proofs.Typing.KnownTypes

/-! # Worlds

A world is what stays the same while the functions of a program run: the symbols of its globals and
the functions themselves. Code in a valid world calls nothing that is not there.
-/

namespace ProcLang

set_option autoImplicit false

theorem TypeRegistry.Coherent.comparable_notMem {types : TypeRegistry} (hTypes : types.Coherent)
    {names : List String} {tys : List Ty}
    (h : List.Forall₂ (fun name ty => types.lookup name = some ty) names tys)
    (hNames : "Comparable" ∉ names) : .comparable ∉ tys := by
  induction h with
  | nil => exact List.not_mem_nil
  | cons hHead _ ih =>
    rw [List.mem_cons, not_or] at hNames ⊢
    refine ⟨?_, ih hNames.2⟩
    rintro rfl
    exact hNames.1 (hTypes.name_eq hHead)

theorem HasReturnType.ne_comparable {types : TypeRegistry} (hTypes : types.Coherent)
    {name : Option String} {ty : Ty} (h : HasReturnType types name ty)
    (hName : name ≠ some "Comparable") : ty ≠ .comparable := by
  rintro rfl
  cases h with
  | named hType => exact hName (congrArg some (hTypes.name_eq hType).symm)

theorem HasReturnType.nil_or_any {types : TypeRegistry} (hTypes : types.Coherent)
    {name : Option String} {ty : Ty} (h : HasReturnType types name ty)
    (hName : name ∈ [none, some "Nil", some "Any"]) : ty = .nil ∨ ty = .any := by
  simp only [List.mem_cons, List.not_mem_nil, or_false] at hName
  rcases hName with rfl | rfl | rfl
  · exact .inl (h.unique .missing)
  · exact .inl (h.unique (.named (hTypes.builtin .nil (by decide))))
  · exact .inr (h.unique (.named (hTypes.builtin .any (by decide))))

/-- No variable has type `comparable`. -/
def Context.Specific (Γ : Context) : Prop :=
  ∀ name symbol, Γ.symbol? name = some symbol → symbol.ty ≠ .comparable

theorem Context.Specific.bind {Γ : Context} (h : Γ.Specific) {symbol : Variable}
    (hSymbol : symbol.ty ≠ .comparable) : (Γ.bind symbol).Specific := by
  intro name found hFound
  simp only [Context.bind] at hFound
  split at hFound
  · cases hFound
    exact hSymbol
  · exact h name found hFound

structure World where
  symbol? : String → Option Variable
  functions : List Function

namespace World

/-- What the code of a function can call, or that of the globals. -/
def Sees (W : World) (caller : Option Function) (Γ : Context) : Prop :=
  match caller with
  | none => Γ.signature? = signature? []
  | some function => ∃ before after, W.functions = before ++ function :: after ∧
      Γ.signature? = signature? (before ++ [function])

/-- A function as the caller of its own body. -/
structure Holds (W : World) (types : TypeRegistry) (function : Function) (Γ : Context)
    (signature : Signature) : Prop where
  wellTyped : function.WellTyped types Γ signature
  symbols : Γ.symbol? = W.symbol?
  sees : W.Sees (some function) (Γ.declare signature)
  arity_eq : signature.arity = function.parameters.length

structure Valid (W : World) (types : TypeRegistry) (typed : Prop) : Prop where
  coherent : types.Coherent
  holds : ∀ function ∈ W.functions, ∃ Γ signature, W.Holds types function Γ signature
  covered : typed → ∀ function ∈ W.functions, function.Covered
  distinct : typed → (W.functions.map Function.key).Nodup
  notPrint : typed → ∀ function ∈ W.functions, function.key ≠ ("print", 1)
  specific : typed → ∀ name symbol, W.symbol? name = some symbol → symbol.ty ≠ .comparable

variable {W : World} {types : TypeRegistry} {typed : Prop}

theorem valid_of_globals (hTypes : types.Coherent) {symbol? : String → Option Variable}
    (hSpecific : typed → ∀ name symbol, symbol? name = some symbol → symbol.ty ≠ .comparable) :
    (⟨symbol?, []⟩ : World).Valid types typed where
  coherent := hTypes
  holds _ hMem := nomatch hMem
  covered _ _ hMem := nomatch hMem
  distinct _ := .nil
  notPrint _ _ hMem := nomatch hMem
  specific := hSpecific

theorem holds_of_wellTyped {Γ : Context} {functions : List Function}
    (hΓ : Γ.signature? = signature? [])
    (hLengths : ∀ f ∈ functions, f.parameterTypes.length = f.parameters.length)
    (h : Functions.WellTyped types Γ functions) :
    ∀ function ∈ functions, ∃ Γ' signature,
      (⟨Γ.symbol?, functions⟩ : World).Holds types function Γ' signature := by
  intro function hMem
  obtain ⟨before, after, rfl⟩ := List.append_of_mem hMem
  obtain ⟨Γ', signature, hFunction, hSymbols, hSignatures⟩ := h.split hΓ hLengths
  exact ⟨Γ', signature, hFunction, hSymbols, ⟨before, after, rfl, hSignatures⟩,
    hFunction.arity_eq (hLengths function hMem)⟩

namespace Valid

variable {caller : Option Function} {Γ : Context} {name : String} {arity : Nat}
  {signature : Signature}

/-- What code can call is there, and in the fragment it is what the checker took it for. -/
theorem served (hW : W.Valid types typed) (hSees : W.Sees caller Γ)
    (hSignature : Γ.signature? name arity = some signature) :
    ∃ callable, callable? W.functions name arity = some callable ∧
      (typed → callable.signature? = some signature) := by
  have hPrefix : ∃ before after, W.functions = before ++ after ∧
      signature? before name arity = some signature := by
    cases caller with
    | none =>
      rw [hSees] at hSignature
      exact ⟨[], W.functions, rfl, hSignature⟩
    | some function =>
      obtain ⟨before, after, hFunctions, hSignatures⟩ := hSees
      rw [hSignatures] at hSignature
      exact ⟨before ++ [function], after, by simpa using hFunctions, hSignature⟩
  obtain ⟨before, after, hFunctions, hBefore⟩ := hPrefix
  obtain ⟨callable, hCallable, hSlot⟩ := Option.bind_eq_some_iff.mp hBefore
  have hSome : (callable? W.functions name arity).isSome := by
    rw [hFunctions]
    exact isSome_callable?_append (by rw [hCallable]; rfl)
  obtain ⟨reached, hReached⟩ := Option.isSome_iff_exists.mp hSome
  refine ⟨reached, hReached, fun hTyped => ?_⟩
  have hDistinct := hW.distinct hTyped
  have hPrint := hW.notPrint hTyped
  rw [hFunctions] at hDistinct hPrint hReached
  rw [callable?_append_of_nodup hDistinct hPrint hCallable] at hReached
  cases hReached
  exact hSlot

theorem mem_of_callable? {function : Function} {closure : ScopeId}
    (h : callable? W.functions name arity = some (.user function closure)) :
    closure = 0 ∧ function ∈ W.functions ∧ function.key = (name, arity) := by
  obtain ⟨hClosure, hLast⟩ := of_callable? h
  exact ⟨hClosure, of_lastDeclared hLast⟩

theorem callee (hW : W.Valid types typed) {arguments : List Value} {function : Function}
    {closure : ScopeId}
    (hCallable : callable? W.functions name arguments.length = some (.user function closure))
    (hAdmits : typed → ∃ signature, (Callable.user function closure).signature? = some signature ∧
      List.Forall₂ (fun ty value => ty.admits value.tag = true) signature.parameterTypes arguments) :
    closure = 0 ∧ ∃ Γ signature, function ∈ W.functions ∧ W.Holds types function Γ signature ∧
      arguments.length = function.parameters.length ∧
      (typed → List.Forall₂ (fun ty value => ty.admits value.tag = true)
        signature.parameterTypes arguments) := by
  obtain ⟨rfl, hMem, hKey⟩ := mem_of_callable? hCallable
  obtain ⟨Γ, signature, hHolds⟩ := hW.holds function hMem
  refine ⟨rfl, Γ, signature, hMem, hHolds, congrArg Prod.snd hKey.symm, fun hTyped => ?_⟩
  obtain ⟨found, hFound, hFits⟩ := hAdmits hTyped
  cases hHolds.wellTyped.slot.symm.trans hFound
  exact hFits

theorem returnType_ne (hW : W.Valid types typed) (hTyped : typed) (hSees : W.Sees caller Γ)
    (hSignature : Γ.signature? name arity = some signature) : signature.returnType ≠ .comparable := by
  obtain ⟨callable, hCallable, hSlot⟩ := hW.served hSees hSignature
  have hSlot := hSlot hTyped
  cases callable with
  | print =>
    cases hSlot
    decide
  | user function closure =>
    obtain ⟨-, hMem, -⟩ := mem_of_callable? hCallable
    obtain ⟨_, found, hHolds⟩ := hW.holds function hMem
    obtain rfl := Option.some.inj (hHolds.wellTyped.slot.symm.trans hSlot)
    exact hHolds.wellTyped.returnType.ne_comparable hW.coherent
      (hW.covered hTyped function hMem).returnType

theorem ty_ne (hW : W.Valid types typed) (hTyped : typed) (hSees : W.Sees caller Γ)
    (hSpecific : Γ.Specific) (e : Expr) {ty : Ty} (h : e.HasType Γ ty) : ty ≠ .comparable := by
  cases e with
  | literal value slot =>
    cases h with
    | literal hValue =>
      rintro rfl
      cases hValue
  | group inner slot =>
    cases h with
    | group hBinary hInner => exact hW.ty_ne hTyped hSees hSpecific inner hInner
  | binary operator left right slot =>
    cases h with
    | binary hLeft hRight hOperator =>
      cases hOperator with
      | logical | comparison | join => decide
      | arithmetic | power => exact hW.ty_ne hTyped hSees hSpecific left hLeft
  | access name symbol slot =>
    cases h with
    | access hSymbol => exact hSpecific _ _ hSymbol
  | element name index symbol slot =>
    cases h with
    | element hIndex hSymbol => exact hSpecific _ _ hSymbol
  | call name arguments signature slot =>
    cases h with
    | call hSignature => exact hW.returnType_ne hTyped hSees hSignature
  | list items slot =>
    cases h with
    | list => decide

end Valid

end World

end ProcLang
