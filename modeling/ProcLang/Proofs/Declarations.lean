import Mathlib.Data.List.Induction
import Mathlib.Data.List.Nodup
import ProcLang.Proofs.Typing.Rules
import ProcLang.Machine.Run

/-! # Declared functions

Functions of one name are told apart by their number of parameters, and of several functions with
one key the last one counts. What the checker lets a function call follows from the functions up to
it; what a call reaches follows from all functions of the program.
-/

namespace ProcLang

set_option autoImplicit false

def Function.key (function : Function) : String × Nat :=
  (function.name, function.parameters.length)

/-- The last function with the given name and number of parameters. -/
def lastDeclared (functions : List Function) (name : String) (arity : Nat) : Option Function :=
  functions.reverse.find? fun function => function.key = (name, arity)

section LastDeclared

variable {functions before after : List Function} {function : Function} {name : String} {arity : Nat}

theorem lastDeclared_append_singleton :
    lastDeclared (functions ++ [function]) name arity =
      if function.key = (name, arity) then some function else lastDeclared functions name arity := by
  unfold lastDeclared
  rw [List.reverse_append, List.reverse_singleton, List.singleton_append, List.find?_cons]
  by_cases hKey : function.key = (name, arity) <;> simp [hKey]

theorem of_lastDeclared (h : lastDeclared functions name arity = some function) :
    function ∈ functions ∧ function.key = (name, arity) := by
  have hKey := List.find?_some h
  have hMem := List.mem_of_find?_eq_some h
  exact ⟨List.mem_reverse.mp hMem, of_decide_eq_true hKey⟩

theorem isSome_lastDeclared (hMem : function ∈ functions) (hKey : function.key = (name, arity)) :
    (lastDeclared functions name arity).isSome := by
  refine List.find?_isSome.mpr ⟨function, List.mem_reverse.mpr hMem, ?_⟩
  simpa using hKey

theorem lastDeclared_eq_of_nodup (hDistinct : (functions.map Function.key).Nodup)
    (hMem : function ∈ functions) (hKey : function.key = (name, arity)) :
    lastDeclared functions name arity = some function := by
  obtain ⟨other, hOther⟩ := Option.isSome_iff_exists.mp (isSome_lastDeclared hMem hKey)
  obtain ⟨hOtherMem, hOtherKey⟩ := of_lastDeclared hOther
  have hSame := List.inj_on_of_nodup_map hDistinct hOtherMem hMem (hOtherKey.trans hKey.symm)
  rw [hOther, hSame]

end LastDeclared

/-- The signature that the checker wrote down for what a call reaches. -/
def Callable.signature? : Callable → Option Signature
  | print => some Checker.print
  | user function _ => function.signature

/-- What a call reaches once the given functions are defined. -/
def callable? (functions : List Function) (name : String) (arity : Nat) : Option Callable :=
  match lastDeclared functions name arity with
  | some function => some (.user function 0)
  | none => if (name, arity) = ("print", 1) then some .print else none

/-- What code behind the given functions can call. -/
def signature? (functions : List Function) (name : String) (arity : Nat) : Option Signature :=
  (callable? functions name arity).bind Callable.signature?

section Callables

variable {functions before after : List Function} {function : Function} {name : String} {arity : Nat}

theorem callable?_append_singleton :
    callable? (functions ++ [function]) name arity =
      if function.key = (name, arity) then some (.user function 0)
      else callable? functions name arity := by
  unfold callable?
  rw [lastDeclared_append_singleton]
  by_cases hKey : function.key = (name, arity) <;> simp only [hKey, if_true, if_false]

theorem of_callable? {closure : ScopeId}
    (h : callable? functions name arity = some (.user function closure)) :
    closure = 0 ∧ lastDeclared functions name arity = some function := by
  unfold callable? at h
  split at h
  · rename_i found hFound
    cases h
    exact ⟨rfl, hFound⟩
  · split at h <;> cases h

theorem isSome_callable?_append (h : (callable? before name arity).isSome) :
    (callable? (before ++ after) name arity).isSome := by
  induction after using List.reverseRecOn with
  | nil => rwa [List.append_nil]
  | append_singleton after function ih =>
    rw [← List.append_assoc, callable?_append_singleton]
    split
    · rfl
    · exact ih

theorem callable?_append_of_forall (h : ∀ function ∈ after, function.key ≠ (name, arity)) :
    callable? (before ++ after) name arity = callable? before name arity := by
  induction after using List.reverseRecOn with
  | nil => rw [List.append_nil]
  | append_singleton after function ih =>
    rw [← List.append_assoc, callable?_append_singleton, if_neg (h function (by simp))]
    exact ih fun other hMem => h other (List.mem_append_left _ hMem)

theorem callable?_append_of_nodup {callable : Callable}
    (hDistinct : ((before ++ after).map Function.key).Nodup)
    (hPrint : ∀ function ∈ before ++ after, function.key ≠ ("print", 1))
    (h : callable? before name arity = some callable) :
    callable? (before ++ after) name arity = some callable := by
  rw [callable?_append_of_forall, h]
  intro other hMem hKey
  unfold callable? at h
  split at h
  · rename_i function hFunction
    obtain ⟨hFunctionMem, hFunctionKey⟩ := of_lastDeclared hFunction
    rw [List.map_append, List.nodup_append] at hDistinct
    exact hDistinct.2.2 function.key (List.mem_map_of_mem hFunctionMem) other.key
      (List.mem_map_of_mem hMem) (hFunctionKey.trans hKey.symm)
  · split at h
    · rename_i hName
      exact hPrint other (List.mem_append_right before hMem) (hKey.trans hName)
    · cases h

theorem signature?_append_singleton {Γ : Context} {signature : Signature}
    (hΓ : Γ.signature? = signature? functions) (hSlot : function.signature = some signature)
    (hName : signature.name = function.name)
    (hArity : signature.arity = function.parameters.length) :
    (Γ.declare signature).signature? = signature? (functions ++ [function]) := by
  funext name arity
  simp only [Context.declare, hΓ, signature?, callable?_append_singleton, Function.key, hName, hArity,
    Prod.mk.injEq]
  split
  · exact hSlot.symm
  · rfl

theorem signature?_nil : Context.initial.signature? = signature? [] := by
  funext name arity
  simp only [signature?, callable?, lastDeclared, Context.initial, Context.declare,
    List.reverse_nil, List.find?_nil, Prod.mk.injEq]
  change (if "print" = name ∧ 1 = arity then some Checker.print else none) = _
  simp only [eq_comm (a := name), eq_comm (a := arity)]
  split <;> rfl

end Callables

theorem Globals.WellTyped.signature?_eq {types : TypeRegistry} {Γ Γ' : Context}
    {globals : List Global} (h : Globals.WellTyped types Γ globals Γ') :
    Γ'.signature? = Γ.signature? := by
  induction h with
  | nil => rfl
  | cons hBinding hSymbol hRest ih => exact ih

section Functions

variable {types : TypeRegistry} {Γ : Context} {function : Function} {signature : Signature}

theorem Function.WellTyped.arity_eq (h : function.WellTyped types Γ signature)
    (hLength : function.parameterTypes.length = function.parameters.length) :
    signature.arity = function.parameters.length :=
  h.parameterTypes.length_eq.symm.trans hLength

/-- The context of a function in a program, and what can be called from its body. -/
theorem Functions.WellTyped.split {declared before after : List Function}
    (hΓ : Γ.signature? = signature? declared)
    (hLengths : ∀ f ∈ before ++ function :: after, f.parameterTypes.length = f.parameters.length)
    (h : Functions.WellTyped types Γ (before ++ function :: after)) :
    ∃ Γ' signature, function.WellTyped types Γ' signature ∧ Γ'.symbol? = Γ.symbol? ∧
      (Γ'.declare signature).signature? = signature? (declared ++ before ++ [function]) := by
  induction before generalizing Γ declared with
  | nil =>
    cases h with
    | cons hFunction hRest =>
      have hArity := hFunction.arity_eq (hLengths function (by simp))
      refine ⟨Γ, _, hFunction, rfl, ?_⟩
      rw [List.append_nil]
      exact signature?_append_singleton hΓ hFunction.slot hFunction.name_eq hArity
  | cons first before ih =>
    cases h with
    | cons hFirst hRest =>
      have hArity := hFirst.arity_eq (hLengths first (by simp))
      have hNext := signature?_append_singleton hΓ hFirst.slot hFirst.name_eq hArity
      obtain ⟨Γ', signature, hFunction, hSymbols, hSignatures⟩ :=
        ih hNext (fun f hf => hLengths f (List.mem_cons_of_mem first hf)) hRest
      refine ⟨Γ', signature, hFunction, hSymbols, ?_⟩
      simpa using hSignatures

end Functions

end ProcLang
