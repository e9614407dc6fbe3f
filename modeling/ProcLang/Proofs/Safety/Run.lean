import ProcLang.Pipeline
import ProcLang.Proofs.Safety.Step
import ProcLang.Proofs.Typing.Checked

/-! # Soundness of runs

A run passes through worlds: one without functions for each global, and that of all functions from
the call of `main` on. Each begins with a machine that is ready for it.
-/

namespace ProcLang

set_option autoImplicit false

variable {types : TypeRegistry} {typed : Prop} {n : Nat}

/-- A program whose runs are sound: it obeys the rules, and once types count it belongs to the
fragment that they cover. -/
structure Source.Fit (types : TypeRegistry) (typed : Prop) (source : Source) : Prop where
  coherent : types.Coherent
  wellTyped : source.WellTyped types
  parsed : ∀ function ∈ source.functions, function.Parsed
  covered : typed → source.Covered

/-- A machine in the global scope of a world. -/
structure Machine.Outermost (typed : Prop) (W : World) (Φ : StoreTyping) (Γ : Context)
    (machine : Machine) : Prop where
  ready : Ready typed W none Φ Γ machine.store machine.env.current
  current_eq : machine.env.current = 0

namespace Machine.Outermost

variable {Φ : StoreTyping} {Γ : Context} {machine : Machine}

theorem define (h : machine.Outermost typed ⟨Γ.symbol?, []⟩ Φ Γ) (symbol : Variable) {value : Value}
    (hAdmits : typed → symbol.ty.admits value.tag = true)
    (hSpecific : typed → symbol.ty ≠ .comparable) :
    ({ machine with
      store := machine.store.define machine.env.current symbol.name value symbol.isMutable } :
        Machine).Outermost typed ⟨(Γ.bind symbol).symbol?, []⟩ (Φ.bind 0 symbol.name symbol)
        (Γ.bind symbol) where
  ready := by
    have hAgrees : Agrees typed symbol ⟨value, symbol.isMutable⟩ := ⟨rfl, hAdmits⟩
    have hConforms := h.ready.conforms
    have hCurrent := h.ready.current_lt
    refine ⟨?_, ?_, ?_, ?_, h.ready.sees, ?_⟩
    · exact h.current_eq ▸ hConforms.define hCurrent hAgrees
    · simpa using hCurrent
    · funext name
      rw [← h.current_eq, hConforms.view_define hCurrent, h.ready.view]
      rfl
    · funext name
      have hGlobals := congrFun h.ready.globals name
      simp only [StoreTyping.bind, Context.bind, true_and, hGlobals]
    · exact fun hTyped => (h.ready.specific hTyped).bind (hSpecific hTyped)
  current_eq := h.current_eq

theorem valid (hTypes : types.Coherent) (h : machine.Outermost typed ⟨Γ.symbol?, []⟩ Φ Γ) :
    (⟨Γ.symbol?, []⟩ : World).Valid types typed :=
  World.valid_of_globals hTypes h.ready.specific

end Machine.Outermost

structure Global.Covered (global : Global) : Prop where
  initialized : global.value.isSome = true
  notList : ∀ value, global.value = some value → value.isList = false
  isIndexFree : ∀ value, global.value = some value → value.isIndexFree = true
  typeName : global.typeName ≠ some "Comparable"

theorem Source.Covered.global_covered {source : Source} (h : source.Covered) {global : Global}
    (hMem : global ∈ source.globals) : global.Covered where
  initialized := h.globalsInitialized global hMem
  notList value hValue := by
    have hNot := h.notLists global hMem
    rw [hValue] at hNot
    simpa using hNot
  isIndexFree value hValue := by
    have hFree := h.globalsIndexFree global hMem
    rwa [hValue] at hFree
  typeName := h.globalAnnotations global hMem

section Globals

variable {Φ : StoreTyping} {Γ Γ' : Context} {machine : Machine} {global : Global} {ty : Ty}

theorem justified_global (hBinding : HasBindingType types Γ global.typeName global.value ty)
    (hCovered : typed → global.Covered) {value : Expr} (hValue : global.value = some value)
    (h : machine.Outermost typed ⟨Γ.symbol?, []⟩ Φ Γ) :
    Justified types typed ⟨Γ.symbol?, []⟩ none Φ Γ (.evaluate value) machine := by
  rw [hValue] at hBinding
  obtain ⟨⟨found, hJudged⟩, -⟩ :=
    hBinding.judged fun hTyped => (hCovered hTyped).notList value hValue
  have hFree (hTyped : typed) := (hCovered hTyped).isIndexFree value hValue
  exact .of_outside ⟨found, hJudged, hFree⟩ h.ready rfl

theorem defineGlobal_safe (hTypes : types.Coherent)
    (hBinding : HasBindingType types Γ global.typeName global.value ty)
    (hCovered : typed → global.Covered) (h : machine.Outermost typed ⟨Γ.symbol?, []⟩ Φ Γ) :
    (Exec.defineGlobal n global machine).Satisfies
      (fun _ machine' => ∃ Φ', machine'.Outermost typed
        ⟨(Γ.bind ⟨global.name, ty, global.isMutable⟩).symbol?, []⟩ Φ'
        (Γ.bind ⟨global.name, ty, global.isMutable⟩))
      fun error _ => error.Tolerated typed := by
  have hSpecific (hTyped : typed) : ty ≠ .comparable :=
    hBinding.ty_ne (h.valid hTypes) hTyped h.ready.sees (h.ready.specific hTyped)
      (hCovered hTyped).typeName
  unfold Exec.defineGlobal
  cases hValue : global.value with
  | none =>
    have hUntyped (hTyped : typed) : False := by
      have hInitialized := (hCovered hTyped).initialized
      rw [hValue] at hInitialized
      cases hInitialized
    exact ⟨_, h.define ⟨global.name, ty, global.isMutable⟩
      (fun hTyped => (hUntyped hTyped).elim) hSpecific⟩
  | some value =>
    have hJustified := justified_global hBinding hCovered hValue h
    have hValueSafe := (sound (h.valid hTypes) n).evaluate hJustified
    refine Exec.satisfies_bind (Outcome.Satisfies.imp hValueSafe ?_)
    rintro result machine₁ ⟨Φ₁, hLeaves₁, hFits⟩
    have hNext : machine₁.Outermost typed ⟨Γ.symbol?, []⟩ Φ₁ Γ :=
      ⟨h.ready.of_leaves hLeaves₁, hLeaves₁.env_eq ▸ h.current_eq⟩
    rw [hValue] at hBinding
    obtain ⟨-, hFitting⟩ := hBinding.judged fun hTyped => (hCovered hTyped).notList value hValue
    have hAdmits (hTyped : typed) : ty.admits result.tag = true := by
      obtain ⟨_, hType, hAccepted⟩ := hFitting hTyped
      exact Ty.admits_of_accepts hAccepted (hType.admits (hFits hTyped))
    exact ⟨_, hNext.define ⟨global.name, ty, global.isMutable⟩ hAdmits hSpecific⟩

theorem defineGlobals_safe (hTypes : types.Coherent) {globals : List Global}
    (hGlobals : Globals.WellTyped types Γ globals Γ')
    (hCovered : typed → ∀ global ∈ globals, global.Covered)
    (h : machine.Outermost typed ⟨Γ.symbol?, []⟩ Φ Γ) :
    (Exec.defineGlobals n globals machine).Satisfies
      (fun _ machine' => ∃ Φ', machine'.Outermost typed ⟨Γ'.symbol?, []⟩ Φ' Γ')
      fun error _ => error.Tolerated typed := by
  induction hGlobals generalizing Φ machine with
  | nil => exact ⟨Φ, h⟩
  | cons hBinding hSymbol hRest ih =>
    have hHead (hTyped : typed) := hCovered hTyped _ List.mem_cons_self
    refine Exec.satisfies_bind ((defineGlobal_safe hTypes hBinding hHead h).imp ?_)
    rintro _ machine₁ ⟨Φ₁, hNext⟩
    exact ih (fun hTyped global hMem => hCovered hTyped global (List.mem_cons_of_mem _ hMem)) hNext

theorem Globals.WellTyped.append {before after : List Global}
    (h : Globals.WellTyped types Γ (before ++ after) Γ') :
    ∃ Γ₁, Globals.WellTyped types Γ before Γ₁ ∧ Globals.WellTyped types Γ₁ after Γ' := by
  induction before generalizing Γ with
  | nil => exact ⟨Γ, .nil, h⟩
  | cons global before ih =>
    cases h with
    | cons hBinding hSymbol hRest =>
      obtain ⟨Γ₁, hBefore, hAfter⟩ := ih hRest
      exact ⟨Γ₁, .cons hBinding hSymbol hBefore, hAfter⟩

end Globals

namespace Store

theorem scope_defineFunction {store : Store} {id : ScopeId} (h : id < store.scopes.size)
    (name : String) (arity : Nat) (callable : Callable) (id' : ScopeId) :
    let scope := (store.defineFunction id name arity callable).scope id'
    scope.outer = (store.scope id').outer ∧ scope.bindings = (store.scope id').bindings ∧
      ∀ name' arity', scope.callables.get? (name', arity') =
        if id' = id ∧ (name, arity) = (name', arity') then some callable
        else (store.scope id').callables.get? (name', arity') := by
  simp only [defineFunction, scope_modify h]
  by_cases hSame : id' = id
  · subst hSame
    simp [Table.get?_insert]
  · simp [hSame]

theorem Conforms.defineFunction {functions : List Function} {Φ : StoreTyping} {store : Store}
    (h : store.Conforms typed functions Φ) (hSize : 0 < store.scopes.size) (function : Function) :
    (store.defineFunction 0 function.name function.parameters.length (.user function 0)).Conforms
      typed (functions ++ [function]) Φ := by
  have hScope := scope_defineFunction hSize function.name function.parameters.length (.user function 0)
  constructor
  · intro id name
    rw [(hScope id).2.1]
    exact h.bindings id name
  · intro id j hj
    rw [(hScope id).1] at hj
    exact h.outer_lt id j hj
  · intro id hId
    have hOld : id < store.scopes.size := by simpa [Store.defineFunction] using hId
    rw [chain, (hScope id).1]
    exact h.zero_mem id hOld
  · intro id name arity
    rw [(hScope id).2.2, h.callables, callable?_append_singleton, Function.key]
    by_cases hGlobal : id = 0 <;> simp [hGlobal]

end Store

theorem defineFunctions_outermost {Φ : StoreTyping} {Γ : Context} {symbol? : String → Option Variable}
    (functions : List Function) {before : List Function} {machine : Machine}
    (h : machine.Outermost typed ⟨symbol?, before⟩ Φ Γ) :
    (Exec.defineFunctions functions machine).Satisfies
      (fun _ machine' => machine'.Outermost typed ⟨symbol?, before ++ functions⟩ Φ Γ)
      fun error _ => error.Tolerated typed := by
  induction functions generalizing before machine with
  | nil =>
    rw [List.append_nil]
    exact h
  | cons function functions ih =>
    refine Exec.satisfies_bind ?_
    have hNext : Machine.Outermost typed ⟨symbol?, before ++ [function]⟩ Φ Γ { machine with
        store := machine.store.defineFunction machine.env.current function.name
          function.parameters.length (.user function machine.env.current) } := by
      have hSize : 0 < machine.store.scopes.size := Nat.zero_lt_of_lt h.ready.current_lt
      rw [h.current_eq]
      have hScope := Store.scope_defineFunction hSize function.name function.parameters.length
        (.user function 0)
      refine ⟨⟨h.ready.conforms.defineFunction hSize function, ?_, ?_, h.ready.globals, h.ready.sees,
        h.ready.specific⟩, h.current_eq⟩
      · simpa [Store.defineFunction] using h.ready.current_lt
      · funext name
        rw [← h.ready.view]
        simp only [StoreTyping.view, Store.chain, (hScope _).1]
    have hRest := ih hNext
    rw [List.append_assoc] at hRest
    exact hRest

theorem Machine.outermost_new (destination : Destination) (callLimit : Nat) :
    (Machine.new destination callLimit).Outermost typed ⟨fun _ => none, []⟩ (fun _ _ => none)
      .initial := by
  have hScope (id : ScopeId) : (Machine.new destination callLimit).store.scope id =
      if id = 0 then { callables := (∅ : Table (String × Nat) Callable).insert ("print", 1) .print }
      else {} := by
    cases id <;> rfl
  refine ⟨⟨⟨?_, ?_, ?_, ?_⟩, ?_, ?_, rfl, signature?_nil, ?_⟩, rfl⟩
  · intro id name
    rw [hScope]
    split <;> exact .none
  · intro id j hj
    rw [hScope] at hj
    split at hj <;> cases hj
  · intro id hId
    obtain rfl : id = 0 := Nat.lt_one_iff.mp hId
    exact List.mem_cons_self
  · intro id name arity
    rw [hScope]
    split
    · rw [Table.get?_insert, callable?]
      simp only [lastDeclared, List.reverse_nil, List.find?_nil, eq_comm (a := (name, arity))]
      rfl
    · rfl
  · exact Nat.zero_lt_one
  · rfl
  · intro _ name symbol hSymbol
    cases hSymbol

namespace Source

variable {source : Source}

theorem mem_of_main? {main : Function} (h : source.main? = some main) :
    main ∈ source.functions ∧ main.key = ("main", 0) := by
  have hMain := List.find?_some (p := fun function : Function =>
    decide (function.name = "main" ∧ function.parameters.isEmpty)) h
  simp only [decide_eq_true_eq, List.isEmpty_iff] at hMain
  refine ⟨List.mem_of_find?_eq_some h, ?_⟩
  rw [Function.key, hMain.1, hMain.2]
  rfl

namespace Fit

variable {Γ : Context}

theorem valid (h : source.Fit types typed)
    (hGlobals : Globals.WellTyped types .initial source.globals Γ)
    (hFunctions : Functions.WellTyped types Γ source.functions)
    (hSpecific : typed → Γ.Specific) : (⟨Γ.symbol?, source.functions⟩ : World).Valid types typed where
  coherent := h.coherent
  holds := World.holds_of_wellTyped (hGlobals.signature?_eq.trans signature?_nil)
    (fun f hf => (h.parsed f hf).parameterTypes) hFunctions
  covered hTyped function hMem :=
    (h.covered hTyped).function_covered hMem (h.parsed function hMem).isPlain
  distinct hTyped := (h.covered hTyped).distinct
  notPrint hTyped := (h.covered hTyped).notPrint
  specific := hSpecific

theorem justified_main (h : source.Fit types typed)
    (hW : (⟨Γ.symbol?, source.functions⟩ : World).Valid types typed) {Φ : StoreTyping}
    {machine : Machine}
    (hOutermost : machine.Outermost typed ⟨Γ.symbol?, source.functions⟩ Φ Γ) :
    Justified types typed ⟨Γ.symbol?, source.functions⟩ none Φ Γ (.call "main" none []) machine := by
  obtain ⟨main, hMain, -⟩ := Source.hasMain_iff_main?.mp h.wellTyped.main
  obtain ⟨hMem, hKey⟩ := mem_of_main? hMain
  obtain ⟨last, hLast⟩ := Option.isSome_iff_exists.mp (isSome_lastDeclared hMem hKey)
  obtain ⟨hLastMem, hLastKey⟩ := of_lastDeclared hLast
  have hCallable : callable? source.functions "main" 0 = some (.user last 0) := by
    rw [callable?, hLast]
  refine .of_outside ⟨by simp, .user last 0, hCallable, fun _ => ?_⟩ hOutermost.ready rfl
  obtain ⟨Γ', signature, hHolds⟩ := hW.holds last hLastMem
  refine ⟨signature, hHolds.wellTyped.slot, ?_⟩
  have hArity : signature.arity = 0 := hHolds.arity_eq.trans (congrArg Prod.snd hLastKey)
  rw [List.length_eq_zero_iff.mp hArity]
  exact .nil

theorem defined_safe (h : source.Fit types typed) (destination : Destination) (callLimit : Nat) :
    ∃ Γ, Globals.WellTyped types .initial source.globals Γ ∧
      Functions.WellTyped types Γ source.functions ∧
      (Exec.defineGlobals n source.globals (Machine.new destination callLimit)).Satisfies
        (fun _ machine => ∃ Φ, machine.Outermost typed ⟨Γ.symbol?, []⟩ Φ Γ)
        fun error _ => error.Tolerated typed := by
  obtain ⟨Γ, hGlobals, hFunctions⟩ := h.wellTyped.items
  refine ⟨Γ, hGlobals, hFunctions, ?_⟩
  refine defineGlobals_safe h.coherent hGlobals ?_ (Machine.outermost_new destination callLimit)
  exact fun hTyped global hMem => (h.covered hTyped).global_covered hMem

/-- A run ends with no error but a tolerated one, and once types count with an integer. -/
theorem run_safe (h : source.Fit types typed) (destination : Destination) (callLimit : Nat) :
    (Exec.run n source (Machine.new destination callLimit)).Satisfies
      (fun value _ => typed → value.tag = .integer) fun error _ => error.Tolerated typed := by
  obtain ⟨Γ, hGlobals, hFunctions, hDefined⟩ := h.defined_safe (n := n) destination callLimit
  refine Exec.satisfies_bind (hDefined.imp ?_)
  rintro _ machine₁ ⟨Φ, hOutermost⟩
  have hW := h.valid hGlobals hFunctions hOutermost.ready.specific
  refine Exec.satisfies_bind ((defineFunctions_outermost source.functions hOutermost).imp ?_)
  intro _ machine₂ hOutermost₂
  have hCall := (sound hW n).call (h.justified_main hW hOutermost₂)
  refine Outcome.Satisfies.imp hCall ?_
  rintro value machine' ⟨_, _, hValue⟩ hTyped
  obtain ⟨main, hMain, hReturn⟩ := Source.hasMain_iff_main?.mp h.wellTyped.main
  obtain ⟨hMem, hKey⟩ := mem_of_main? hMain
  have hLast := lastDeclared_eq_of_nodup (h.covered hTyped).distinct hMem hKey
  obtain ⟨Γ', signature, hHolds⟩ := hW.holds main hMem
  have hInteger : signature.returnType = .integer := hHolds.wellTyped.returnType.unique hReturn
  have hAdmits := hValue hTyped (.user main 0) signature (by rw [List.length_nil, callable?, hLast])
    hHolds.wellTyped.slot
  rw [hInteger] at hAdmits
  obtain ⟨i, rfl⟩ := Value.eq_integer_of_admits hAdmits
  rfl

end Fit

end Source

/-- The worlds of a run: that without functions for the globals, and that of all functions from the
call of `main` on. -/
inductive World.Hosts (W : World) (source : Source) : Option Function → Task → Prop
  | globals {task} (hFunctions : W.functions = []) : Hosts W source none task
  | main (hFunctions : W.functions = source.functions) : Hosts W source none (.call "main" none [])
  | body {function task} (hFunctions : W.functions = source.functions) :
    Hosts W source (some function) task

/-- Everything that a run goes through is justified. -/
theorem Source.Fit.justified_of_reached {source : Source} (h : source.Fit types typed)
    {destination : Destination} {callLimit : Nat} {caller : Option Function} {k : Nat} {task : Task}
    {machine : Machine}
    (hReached : Task.Reached n source (Machine.new destination callLimit) caller k task machine) :
    ∃ W Φ Γ, W.Valid types typed ∧ W.Hosts source caller task ∧
      Justified types typed W caller Φ Γ task machine := by
  induction hReached with
  | @global before global after value machine hSplit hValue hBefore =>
    obtain ⟨Γ, hGlobals, -⟩ := h.wellTyped.items
    rw [hSplit] at hGlobals
    obtain ⟨Γ₁, hBeforeTyped, hRest⟩ := hGlobals.append
    have hCovered (hTyped : typed) (g : Global) (hg : g ∈ source.globals) : g.Covered :=
      (h.covered hTyped).global_covered hg
    obtain ⟨Φ₁, hOutermost⟩ := (defineGlobals_safe h.coherent hBeforeTyped
      (fun hTyped g hg => hCovered hTyped g (by rw [hSplit]; exact List.mem_append_left _ hg))
      (Machine.outermost_new destination callLimit)).of_done hBefore
    cases hRest with
    | cons hBinding hSymbol hRest =>
      have hGlobal (hTyped : typed) : global.Covered := hCovered hTyped global (by simp [hSplit])
      exact ⟨_, Φ₁, Γ₁, hOutermost.valid h.coherent, .globals rfl,
        justified_global hBinding hGlobal hValue hOutermost⟩
  | main hGlobalsDone hFunctionsDone =>
    obtain ⟨Γ, hGlobals, hFunctions, hDefined⟩ := h.defined_safe (n := n) destination callLimit
    obtain ⟨Φ, hOutermost⟩ := hDefined.of_done hGlobalsDone
    have hW := h.valid hGlobals hFunctions hOutermost.ready.specific
    have hOutermost₂ :=
      (defineFunctions_outermost source.functions hOutermost).of_done hFunctionsDone
    exact ⟨_, Φ, Γ, hW, .main rfl, h.justified_main hW hOutermost₂⟩
  | enter hReached hEnters ih =>
    obtain ⟨W, Φ, Γ, hW, hHosts, hJustified⟩ := ih
    obtain ⟨Φ', Γ', hNext⟩ := hJustified.of_enters hW hEnters
    refine ⟨W, Φ', Γ', hW, ?_, hNext⟩
    cases hHosts with
    | globals hFunctions => exact .globals hFunctions
    | main hFunctions => cases hEnters
    | body hFunctions => exact .body hFunctions
  | body hReached hFunction hLimit ih =>
    obtain ⟨W, Φ, Γ, hW, hHosts, hJustified⟩ := ih
    obtain ⟨Φ', Γ', hNext⟩ := hJustified.of_call hW hFunction
    refine ⟨W, Φ', Γ', hW, .body ?_, hNext⟩
    cases hHosts with
    | main hFunctions | body hFunctions => exact hFunctions
    | globals hFunctions =>
      obtain ⟨before, after, hSplit, -⟩ := hNext.ready.sees
      rw [hFunctions] at hSplit
      simp at hSplit

namespace Pipeline

theorem of_parse {text : String} {source : Source} (h : parse text = .ok source) :
    ∃ tokens, ProcLang.lex text = .ok tokens ∧ ProcLang.parse tokens = .ok source := by
  obtain ⟨tokens, hLex, hParse⟩ := except_bind_ok h
  refine ⟨tokens, ?_, ?_⟩
  · unfold lex at hLex
    cases hTokens : ProcLang.lex text <;> rw [hTokens] at hLex <;> cases hLex
    rfl
  · cases hSource : ProcLang.parse tokens <;> rw [hSource] at hParse <;> cases hParse
    rfl

theorem of_check {text : String} {checked : Source} (h : check text = .ok checked) :
    ∃ source, parse text = .ok source ∧ checkProgram source = .ok checked := by
  obtain ⟨source, hParse, hCheck⟩ := except_bind_ok h
  refine ⟨source, hParse, ?_⟩
  cases hChecked : checkProgram source <;> rw [hChecked] at hCheck <;> cases hCheck
  rfl

/-- Checked texts are sound to run, and all the more if they belong to the fragment. -/
theorem fit_of_check {typed : Prop} {text : String} {checked : Source} (h : check text = .ok checked)
    (hCovered : typed → checked.Covered) : checked.Fit {} typed := by
  obtain ⟨source, hParse, hCheck⟩ := of_check h
  obtain ⟨tokens, -, hTokens⟩ := of_parse hParse
  have hParsed := Source.forall_functions_of_erase_eq Function.parsed_erase
    (erase_of_checkProgram hCheck) (parsed_of_parse hTokens)
  exact ⟨.initial, wellTyped_of_checkProgram hCheck, hParsed, hCovered⟩

end Pipeline

end ProcLang
