import ProcLang.Proofs.Machine.Parts
import ProcLang.Proofs.Machine.Reachable
import ProcLang.Proofs.Safety.Dispatch

/-! # Strata of functions

In a program whose functions have different keys, a function calls nothing but itself and functions
declared before it. If it does not call itself either, each call under way lies below the one that
made it, and there are not more of them than functions.
-/

namespace ProcLang

set_option autoImplicit false

namespace Expr

def isCallOf (key : String × Nat) : Expr → Bool
  | call name arguments _ _ => (name, arguments.length) = key
  | _ => false

theorem isCallOf_erase (key : String × Nat) (e : Expr) : e.erase.isCallOf key = e.isCallOf key := by
  cases e with
  | call name arguments => simp only [erase, isCallOf, length_eraseAll]
  | literal | group | binary | access | element | list => rfl

/-- Nothing with the given key is called. -/
def spares (key : String × Nat) (e : Expr) : Bool :=
  e.every fun part => !part.isCallOf key

end Expr

namespace Stmt

def spares (key : String × Nat) (s : Stmt) : Bool :=
  s.expressions.all (Expr.spares key)

theorem spares_erase (key : String × Nat) (s : Stmt) : s.erase.spares key = s.spares key := by
  have hExpr (e : Expr) : e.erase.spares key = e.spares key :=
    Expr.every_erase (fun part => congrArg (!·) (part.isCallOf_erase key)) e
  rw [spares, expressions_erase, List.all_map]
  exact congrArg (List.all s.expressions) (funext hExpr)

end Stmt

/-- No call in the body has the name and the number of arguments of the function itself. -/
def Function.SparesItself (function : Function) : Prop :=
  Stmt.everyIn (Stmt.spares function.key) function.body = true

instance : DecidablePred Function.SparesItself :=
  fun _ => inferInstanceAs (Decidable (_ = true))

theorem Function.sparesItself_erase (function : Function) :
    function.erase.SparesItself ↔ function.SparesItself := by
  have hBody := Stmt.everyIn_eraseBlock (Stmt.spares_erase function.key) function.body
  exact Eq.congr_left hBody

/-- No two functions have the same key, and none has that of the printing function. -/
structure Source.Distinct (source : Source) : Prop where
  nodup : (source.functions.map Function.key).Nodup
  notPrint : ∀ function ∈ source.functions, function.key ≠ ("print", 1)

instance (source : Source) : Decidable source.Distinct :=
  decidable_of_iff (_ ∧ _) ⟨fun h => ⟨h.1, h.2⟩, fun h => ⟨h.1, h.2⟩⟩

theorem Source.distinct_erase (source : Source) : source.erase.Distinct ↔ source.Distinct := by
  have hKeys : source.erase.functions.map Function.key = source.functions.map Function.key := by
    rw [erase, List.map_map]
    rfl
  constructor
  · intro h
    refine ⟨hKeys ▸ h.nodup, fun function hMem => ?_⟩
    exact h.notPrint function.erase (List.mem_map_of_mem hMem)
  · intro h
    refine ⟨hKeys ▸ h.nodup, fun function hMem => ?_⟩
    obtain ⟨original, hOriginal, rfl⟩ := List.mem_map.mp hMem
    exact h.notPrint original hOriginal

/-- The functions that some code can call, apart from the function around it. -/
def Source.below (source : Source) : Option Function → List Function
  | none => source.functions
  | some function => source.functions.takeWhile fun other => other.key ≠ function.key

namespace Source

variable {source : Source} {before after : List Function} {function callee : Function}
  {caller : Option Function}

theorem Distinct.below_eq (h : source.Distinct)
    (hSplit : source.functions = before ++ function :: after) :
    source.below (some function) = before := by
  have hBefore : ∀ other ∈ before, decide (other.key ≠ function.key) = true := by
    intro other hOther
    have hNodup := h.nodup
    rw [hSplit, List.map_append, List.nodup_append] at hNodup
    exact decide_eq_true (hNodup.2.2 _ (List.mem_map_of_mem hOther) _ List.mem_cons_self)
  rw [below, hSplit, List.takeWhile_append_of_pos hBefore, List.takeWhile_cons_of_neg (by simp),
    List.append_nil]

theorem below_prefix (source : Source) (caller : Option Function) :
    source.below caller <+: source.functions := by
  cases caller with
  | none => exact List.prefix_rfl
  | some function => exact List.takeWhile_prefix _

/-- What a function can call, and the function itself, a caller above it can call as well. -/
theorem Distinct.below_append_prefix (h : source.Distinct) (hMem : callee ∈ source.below caller) :
    source.below (some callee) ++ [callee] <+: source.below caller := by
  obtain ⟨rest, hFunctions⟩ := source.below_prefix caller
  obtain ⟨before, after, hBelow⟩ := List.append_of_mem hMem
  have hSplit : source.functions = before ++ callee :: (after ++ rest) := by
    rw [← hFunctions, hBelow, List.append_assoc, List.cons_append]
  rw [h.below_eq hSplit, hBelow]
  exact ⟨after, by rw [List.append_assoc, List.singleton_append]⟩

end Source

/-- What may stand in the body of a function that does not call itself. -/
def Expr.sparesCaller (caller : Option Function) (e : Expr) : Bool :=
  !caller.any fun function => e.isCallOf function.key

namespace Source.Fit

variable {source : Source} {typed : Prop} {n k : Nat} {destination : Destination} {callLimit : Nat}
  {caller : Option Function} {task : Task} {machine machine' : Machine} {name : String}
  {slot : Option Signature} {arguments : List Value} {callee : Function} {closure : ScopeId}

theorem mem_of_called (h : source.Fit {} typed)
    (hReached : Task.Reached n source (Machine.new destination callLimit) caller k
      (.call name slot arguments) machine)
    (hFound : Exec.lookupFunction name arguments.length machine =
      .done (.user callee closure) machine') :
    callee ∈ source.functions ∧ callee.key = (name, arguments.length) := by
  obtain ⟨W, Φ, Γ, -, hHosts, ⟨-, callable, hCallable, -⟩, hReady, -⟩ :=
    h.justified_of_reached hReached
  obtain rfl : callable = .user callee closure := by
    have hSame := (hReady.lookupFunction_eq hCallable).symm.trans hFound
    cases hSame
    rfl
  obtain ⟨hMem, hKey⟩ := of_lastDeclared (of_callable? hCallable).2
  refine ⟨?_, hKey⟩
  cases hHosts with
  | main hFunctions | body hFunctions => exact hFunctions ▸ hMem
  | globals hFunctions =>
    rw [hFunctions] at hMem
    cases hMem

/-- From the body of a function only the function itself and earlier ones are called. -/
theorem visible_of_called (h : source.Fit {} typed) (hDistinct : source.Distinct)
    {function : Function}
    (hReached : Task.Reached n source (Machine.new destination callLimit) (some function) k
      (.call name slot arguments) machine)
    (hFound : Exec.lookupFunction name arguments.length machine =
      .done (.user callee closure) machine') :
    ∃ before after, source.functions = before ++ function :: after ∧
      callee ∈ before ++ [function] := by
  cases hReached with
  | enter hOuter hEnters =>
    cases hEnters with
    | callee hArguments =>
      obtain ⟨visible, later, -, seen, reached, hSurrounds, -, -, hDispatches⟩ :=
        h.call_dispatches hOuter hArguments
      cases hSurrounds with
      | @body before _ _ hSplit =>
        have hAll : (before ++ [function]) ++ later = source.functions := by
          rw [hSplit, List.append_assoc, List.singleton_append]
        -- The keys differ, so what is called is what the body sees.
        have hSame := callable?_append_of_nodup (hAll ▸ hDistinct.nodup)
          (hAll ▸ hDistinct.notPrint) hDispatches.visible_eq
        rw [hDispatches.all_eq] at hSame
        cases hSame
        have hReached := hDispatches.lookup_eq.symm.trans hFound
        cases hReached
        obtain ⟨-, hLast⟩ := of_callable? hDispatches.visible_eq
        exact ⟨before, later, hSplit, (of_lastDeclared hLast).1⟩

variable {q : Stmt → Bool}

/-- Conditions on the bodies of all functions hold of all code that a run goes through. -/
theorem every_of_reached (h : source.Fit {} typed)
    (hBodies : ∀ function ∈ source.functions,
      Stmt.everyIn (Stmt.meets (Expr.sparesCaller (some function)) q) function.body = true)
    (hReached : Task.Reached n source (Machine.new destination callLimit) caller k task machine) :
    task.Every (Expr.sparesCaller caller) q := by
  induction hReached with
  | global => exact Expr.every_of_forall (fun _ => rfl) _
  | main => exact ⟨[], none, none, rfl, rfl⟩
  | enter _ hEnters ih => exact ih.enters hEnters
  | body hReached hFunction => exact hBodies _ (h.mem_of_called hReached hFunction).1

theorem spares_of_called (h : source.Fit {} typed)
    (hSpares : ∀ function ∈ source.functions, function.SparesItself) {function : Function}
    (hReached : Task.Reached n source (Machine.new destination callLimit) (some function) k
      (.call name slot arguments) machine) : (name, arguments.length) ≠ function.key := by
  have hBodies : ∀ function ∈ source.functions, Stmt.everyIn
      (Stmt.meets (Expr.sparesCaller (some function)) fun _ => true) function.body = true := by
    intro function hMem
    have hSame : Stmt.meets (Expr.sparesCaller (some function)) (fun _ => true) =
        Stmt.spares function.key := funext fun s => Bool.true_and _
    rw [hSame]
    exact hSpares function hMem
  obtain ⟨parts, signature, ty, hLength, hSparing⟩ := h.every_of_reached hBodies hReached
  rw [← hLength]
  simpa [Expr.sparesCaller, Expr.isCallOf] using hSparing

theorem below_of_called (h : source.Fit {} typed) (hDistinct : source.Distinct)
    (hSpares : ∀ function ∈ source.functions, function.SparesItself)
    (hReached : Task.Reached n source (Machine.new destination callLimit) caller k
      (.call name slot arguments) machine)
    (hFound : Exec.lookupFunction name arguments.length machine =
      .done (.user callee closure) machine') : callee ∈ source.below caller := by
  obtain ⟨hMem, hKey⟩ := h.mem_of_called hReached hFound
  cases caller with
  | none => exact hMem
  | some function =>
    obtain ⟨before, after, hSplit, hVisible⟩ := h.visible_of_called hDistinct hReached hFound
    rw [hDistinct.below_eq hSplit]
    rcases List.mem_append.mp hVisible with hBefore | hItself
    · exact hBefore
    · obtain rfl := List.mem_singleton.mp hItself
      exact absurd hKey.symm (h.spares_of_called hSpares hReached)

/-- As many functions lie below a caller as further calls can be under way. -/
theorem callDepth_add_le (h : source.Fit {} typed) (hDistinct : source.Distinct)
    (hSpares : ∀ function ∈ source.functions, function.SparesItself)
    (hReached : Task.Reached n source (Machine.new destination callLimit) caller k task machine) :
    machine.callDepth + (source.below caller).length ≤ source.functions.length := by
  induction hReached with
  | global hSplit hValue hBefore =>
    have hResumes := (Exec.lasting_resumes.defineGlobals _ _).of_done hBefore
    rw [hResumes.callDepth_eq]
    exact Nat.le_of_eq (Nat.zero_add _)
  | main hGlobals hFunctions =>
    have hResumes := (Exec.lasting_resumes.defineGlobals _ _).of_done hGlobals
    have hKeeps := Exec.Lasting.defineFunctions Exec.keeps_resumes_defineFunction source.functions
    rw [((hKeeps _).of_done hFunctions).callDepth_eq, hResumes.callDepth_eq]
    exact Nat.le_of_eq (Nat.zero_add _)
  | enter _ hEnters ih =>
    obtain ⟨before, hBefore, rfl | rfl⟩ := hEnters.kept Exec.lasting_resumes
    · rw [hBefore.callDepth_eq]
      exact ih
    · exact hBefore.callDepth_eq ▸ ih
  | body hReached hFunction hLimit ih =>
    obtain ⟨rfl, -⟩ := Exec.of_lookupFunction_done hFunction
    have hBelow := h.below_of_called hDistinct hSpares hReached hFunction
    have hLength := (hDistinct.below_append_prefix hBelow).length_le
    rw [List.length_append, List.length_singleton] at hLength
    simp only [Machine.enterFrame]
    omega

end Source.Fit

end ProcLang
