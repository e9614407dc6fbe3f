import Mathlib
import ProcLang.Proofs.Safety.Run

/-! # What calls reach

The checker takes a call for the last fitting function up to the one in whose body the call stands;
a run reaches the last fitting one of the whole program. Both are the same function unless a later
one has its name and number of parameters. Likewise the first `main` is checked and the last one
runs.
-/

namespace ProcLang

set_option autoImplicit false

/-- The name, the parameter types and the return type that something was declared with. -/
def Callable.Declares : Callable → Signature → Prop
  | print, signature => signature = Checker.print
  | user function _, signature => function.checkSignature {} = .ok signature

theorem World.Valid.declares {W : World} {typed : Prop} (hW : W.Valid {} typed)
    {visible later : List Function} (hFunctions : W.functions = visible ++ later) {name : String}
    {arity : Nat} {signature : Signature} (h : signature? visible name arity = some signature) :
    ∃ seen, callable? visible name arity = some seen ∧ seen.Declares signature := by
  obtain ⟨seen, hSeen, hSlot⟩ := Option.bind_eq_some_iff.mp h
  refine ⟨seen, hSeen, ?_⟩
  cases seen with
  | print =>
    cases hSlot
    rfl
  | user function closure =>
    obtain ⟨-, hLast⟩ := of_callable? hSeen
    have hMem : function ∈ W.functions := by
      rw [hFunctions]
      exact List.mem_append_left later (of_lastDeclared hLast).1
    obtain ⟨Γ, found, hHolds⟩ := hW.holds function hMem
    obtain rfl := Option.some.inj (hHolds.wellTyped.slot.symm.trans hSlot)
    exact hHolds.wellTyped.checkSignature_eq

/-- The functions up to the end of some code, and those after it. While the globals are defined, no
function is. -/
inductive Source.Surrounds (source : Source) :
    Option Function → List Function → List Function → Prop
  | globals : Surrounds source none [] []
  | body {before function after} (hFunctions : source.functions = before ++ function :: after) :
    Surrounds source (some function) (before ++ [function]) after

theorem World.Hosts.surrounds {W : World} {source : Source} {caller : Option Function} {e : Expr}
    {Γ : Context} (hHosts : W.Hosts source caller (.evaluate e)) (hSees : W.Sees caller Γ) :
    ∃ visible later, source.Surrounds caller visible later ∧ W.functions = visible ++ later ∧
      Γ.signature? = signature? visible := by
  cases hHosts with
  | globals hFunctions => exact ⟨[], [], .globals, hFunctions, hSees⟩
  | @body function _ hFunctions =>
    obtain ⟨before, after, hSplit, hSignatures⟩ := hSees
    refine ⟨before ++ [function], after, .body (hFunctions.symm.trans hSplit), ?_, hSignatures⟩
    rw [hSplit, List.append_assoc, List.singleton_append]

/-- A name means one thing to code that sees some functions, and another to a call if later
functions declare it again. -/
structure Machine.Dispatches (machine : Machine) (visible later : List Function) (name : String)
    (arity : Nat) (seen reached : Callable) : Prop where
  visible_eq : callable? visible name arity = some seen
  all_eq : callable? (visible ++ later) name arity = some reached
  lookup_eq : Exec.lookupFunction name arity machine = .done reached machine
  reached_eq : (∀ function ∈ later, function.key ≠ (name, arity)) → reached = seen

theorem Ready.dispatches {typed : Prop} {W : World} {caller : Option Function} {Φ : StoreTyping}
    {Γ : Context} {machine : Machine} (h : Ready typed W caller Φ Γ machine.store machine.env.current)
    {visible later : List Function} (hFunctions : W.functions = visible ++ later) {name : String}
    {arity : Nat} {seen reached : Callable} (hSeen : callable? visible name arity = some seen)
    (hReached : callable? W.functions name arity = some reached) :
    machine.Dispatches visible later name arity seen reached where
  visible_eq := hSeen
  all_eq := hFunctions ▸ hReached
  lookup_eq := h.lookupFunction_eq hReached
  reached_eq hLater := by
    rw [hFunctions, callable?_append_of_forall hLater, hSeen] at hReached
    exact (Option.some.inj hReached).symm

theorem Source.split_of_main? {source : Source} {main : Function} (h : source.main? = some main) :
    ∃ before after, source.functions = before ++ main :: after ∧
      (∀ function ∈ before, function.key ≠ ("main", 0)) ∧
      callable? (before ++ [main]) "main" 0 = some (.user main 0) := by
  obtain ⟨-, hKey⟩ := mem_of_main? h
  obtain ⟨-, before, after, hSplit, hBefore⟩ := List.find?_eq_some_iff_append.mp h
  refine ⟨before, after, hSplit, ?_, ?_⟩
  · intro function hMem hFunctionKey
    have hOther := hBefore function hMem
    simp only [Function.key, Prod.mk.injEq, List.length_eq_zero_iff] at hFunctionKey
    simp [hFunctionKey] at hOther
  · rw [callable?_append_singleton, if_pos hKey]

namespace Source.Fit

variable {source : Source} {typed : Prop} {n k : Nat} {destination : Destination} {callLimit : Nat}
  {caller : Option Function} {machine machine' : Machine}

theorem call_dispatches (h : source.Fit {} typed) {name : String} {arguments : List Expr}
    {slot : Option Signature} {ty : Option Ty} {values : List Value}
    (hReached : Task.Reached n source (Machine.new destination callLimit) caller (k + 1)
      (.evaluate (.call name arguments slot ty)) machine)
    (hArguments : Exec.evaluateAll k arguments machine = .done values machine') :
    ∃ visible later signature seen reached, source.Surrounds caller visible later ∧
      slot = some signature ∧ seen.Declares signature ∧
      machine'.Dispatches visible later name values.length seen reached := by
  obtain ⟨W, Φ, Γ, hW, hHosts, hJustified⟩ := h.justified_of_reached hReached
  obtain ⟨visible, later, hSurrounds, hFunctions, hSignatures⟩ :=
    hHosts.surrounds hJustified.ready.sees
  have hSlot : ∃ signature, slot = some signature := by
    obtain ⟨_, hType | ⟨-, hInitializes⟩, -⟩ := hJustified.judged
    · cases hType with
      | call => exact ⟨_, rfl⟩
    · cases hInitializes with
      | value hPlain hType hAccepted =>
        cases hType with
        | call => exact ⟨_, rfl⟩
  obtain ⟨signature, rfl⟩ := hSlot
  obtain ⟨_, ⟨hSignature, reached, hCallable, -⟩, hReady, -⟩ :=
    hJustified.of_evaluate hW (.callee hArguments)
  have hSeenSignature := hSignature signature rfl
  rw [hSignatures] at hSeenSignature
  obtain ⟨seen, hSeen, hDeclares⟩ := hW.declares hFunctions hSeenSignature
  exact ⟨visible, later, signature, seen, reached, hSurrounds, rfl, hDeclares,
    hReady.dispatches hFunctions hSeen hCallable⟩

theorem lookupFunction_eq_last (h : source.Fit {} typed) {function : Function} {task : Task}
    (hReached : Task.Reached n source (Machine.new destination callLimit) (some function) k task
      machine) {name : String} {arity : Nat} {callable : Callable}
    (hCallable : callable? source.functions name arity = some callable) :
    Exec.lookupFunction name arity machine = .done callable machine := by
  obtain ⟨W, Φ, Γ, hW, hHosts, hJustified⟩ := h.justified_of_reached hReached
  cases hHosts with
  | body hFunctions => exact hJustified.ready.lookupFunction_eq (hFunctions ▸ hCallable)

theorem main_dispatches (h : source.Fit {} typed)
    (hReached : Task.Reached n source (Machine.new destination callLimit) caller k
      (.call "main" none []) machine) :
    ∃ before main after reached, source.functions = before ++ main :: after ∧
      (∀ function ∈ before, function.key ≠ ("main", 0)) ∧ source.main? = some main ∧
      Function.checkReturnType {} main.returnType = .ok .integer ∧
      machine.Dispatches (before ++ [main]) after "main" 0 (.user main 0) reached := by
  obtain ⟨main, hMain, hReturn⟩ := hasMain_iff_main?.mp h.wellTyped.main
  obtain ⟨before, after, hSplit, hBefore, hSeen⟩ := split_of_main? hMain
  obtain ⟨W, Φ, Γ, hW, hHosts, ⟨-, reached, hCallable, -⟩, hReady, -⟩ :=
    h.justified_of_reached hReached
  have hFunctions : W.functions = source.functions := by
    cases hHosts with
    | main hFunctions | body hFunctions => exact hFunctions
    | globals hFunctions =>
      rw [hFunctions] at hCallable
      cases hCallable
  have hAll : W.functions = (before ++ [main]) ++ after := by
    rw [hFunctions, hSplit, List.append_assoc, List.singleton_append]
  exact ⟨before, main, after, reached, hSplit, hBefore, hMain,
    Function.checkReturnType_eq_ok_iff.mpr hReturn, hReady.dispatches hAll hSeen hCallable⟩

end Source.Fit

namespace Pipeline

/-- However a run of a checked text goes, each call reaches the last function declared for it. That
is the function whose signature the checker wrote down, unless one declared after the calling code
has the same name and number of parameters; and it is the `main` that was checked, unless a later
one exists. -/
theorem calls_reach_last {text : String} {checked : Source} (h : check text = .ok checked)
    (n : Nat) (destination : Destination) (callLimit : Nat) :
    (∀ caller k name arguments slot ty machine values machine',
      Task.Reached n checked (Machine.new destination callLimit) caller (k + 1)
        (.evaluate (.call name arguments slot ty)) machine →
      Exec.evaluateAll k arguments machine = .done values machine' →
      ∃ visible later signature seen reached, checked.Surrounds caller visible later ∧
        slot = some signature ∧ seen.Declares signature ∧
        machine'.Dispatches visible later name values.length seen reached) ∧
    (∀ caller k machine,
      Task.Reached n checked (Machine.new destination callLimit) caller k (.call "main" none [])
        machine →
      ∃ before main after reached, checked.functions = before ++ main :: after ∧
        (∀ function ∈ before, function.key ≠ ("main", 0)) ∧ checked.main? = some main ∧
        Function.checkReturnType {} main.returnType = .ok .integer ∧
        machine.Dispatches (before ++ [main]) after "main" 0 (.user main 0) reached) := by
  have hFit : checked.Fit {} False := fit_of_check h nofun
  constructor
  · intro caller k name arguments slot ty machine values machine' hReached hArguments
    exact hFit.call_dispatches hReached hArguments
  · intro caller k machine hReached
    exact hFit.main_dispatches hReached

end Pipeline

namespace Redeclared

/-- Of two functions named `main` the second one runs, though the first one was checked to return an
integer. The second one calls the printing function of the program, and was checked to call the
built-in one. -/
def text : String :=
  "FUN main(): Integer DO RETURN 0; END
  FUN main(): Any DO RETURN print(1); END
  FUN print(x: Any): Any DO RETURN \"s\"; END"

def firstMain : Function :=
  ⟨"main", [], [], some "Integer", [.returns (.literal (.integer 0) (some .integer))],
    some ⟨"main", [], .integer⟩⟩

def lastMain : Function :=
  ⟨"main", [], [], some "Any",
    [.returns (.call "print" [.literal (.integer 1) (some .integer)] (some ⟨"print", [.any], .nil⟩)
      (some .nil))],
    some ⟨"main", [], .any⟩⟩

def printing : Function :=
  ⟨"print", ["x"], ["Any"], some "Any", [.returns (.literal (.string "s") (some .string))],
    some ⟨"print", [.any], .any⟩⟩

def checked : Source :=
  ⟨[], [firstMain, lastMain, printing]⟩

theorem check_text : Pipeline.check text = .ok checked := by
  rw [Pipeline.check, Pipeline.parse, Pipeline.lex, lex_eq_scan]
  cbv

theorem reached_main : ∃ machine, machine.callDepth < machine.callLimit ∧
    Task.Reached 10 checked (Machine.new .buffer 10) none 10 (.call "main" none []) machine :=
  ⟨_, by decide, .main rfl rfl⟩

end Redeclared

namespace Pipeline

open Redeclared

theorem calls_reach_last_redeclared : check text = .ok checked ∧
    ∃ machine before main after reached,
      Task.Reached 10 checked (Machine.new .buffer 10) none 10 (.call "main" none []) machine ∧
      checked.functions = before ++ main :: after ∧ checked.main? = some main ∧
      machine.Dispatches (before ++ [main]) after "main" 0 (.user main 0) reached := by
  obtain ⟨machine, -, hReached⟩ := reached_main
  obtain ⟨before, main, after, reached, hFunctions, -, hMain, -, hDispatches⟩ :=
    (calls_reach_last check_text 10 .buffer 10).2 none 10 machine hReached
  exact ⟨check_text, machine, before, main, after, reached, hReached, hFunctions, hMain,
    hDispatches⟩

/-- What is called was declared otherwise than the checker wrote down, and the `main` that runs is
not the one that was checked. -/
theorem calls_reach_redeclared : ∃ text checked, check text = .ok checked ∧
    (∃ caller k name arguments slot ty machine values machine' signature reached,
      Task.Reached 10 checked (Machine.new .buffer 10) caller (k + 1)
        (.evaluate (.call name arguments slot ty)) machine ∧
      Exec.evaluateAll k arguments machine = .done values machine' ∧
      Exec.lookupFunction name values.length machine' = .done reached machine' ∧
      slot = some signature ∧ ¬reached.Declares signature) ∧
    (∃ caller k machine invoked,
      Task.Reached 10 checked (Machine.new .buffer 10) caller k (.call "main" none []) machine ∧
      Exec.lookupFunction "main" 0 machine = .done (.user invoked 0) machine ∧
      checked.main? ≠ some invoked) := by
  have hFit : checked.Fit {} False := fit_of_check check_text nofun
  obtain ⟨machine, hDepth, hMain⟩ := reached_main
  have hInvoked : Exec.lookupFunction "main" 0 machine = .done (.user lastMain 0) machine := by
    obtain ⟨before, main, after, reached, hFunctions, -, -, -, hDispatches⟩ :=
      hFit.main_dispatches hMain
    have hAll := hDispatches.all_eq
    rw [List.append_assoc, List.singleton_append, ← hFunctions] at hAll
    cases hAll
    exact hDispatches.lookup_eq
  have hCall := ((hMain.body hInvoked hDepth).enter .statement).enter .returned
  refine ⟨text, checked, check_text, ?_, ?_⟩
  · refine ⟨_, _, _, _, _, _, _, [.integer 1], _, _, .user printing 0, hCall, rfl, ?_, rfl, ?_⟩
    · exact hFit.lookupFunction_eq_last hCall rfl
    · intro hDeclares
      cases hDeclares
  · refine ⟨_, _, machine, lastMain, hMain, hInvoked, ?_⟩
    intro hSame
    exact absurd (congrArg (Option.map Function.returnType) hSame) (by decide)

end Pipeline

end ProcLang
