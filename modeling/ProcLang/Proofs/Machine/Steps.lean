import ProcLang.Proofs.Machine.Coupling

/-! # More steps

What an execution ends with does not depend on how many steps it was allowed, once they were enough.
-/

namespace ProcLang

set_option autoImplicit false

variable {α : Type} {n n' : Nat}

theorem simulation_eq : Simulation Eq False where
  lookup_eq := by
    rintro machine _ rfl name
    rfl
  define := by
    rintro machine _ rfl name value isMutable
    exact .refl (fun _ => rfl) _
  assign := by
    rintro machine _ rfl name value
    exact .refl (fun _ => rfl) _
  print := by
    rintro machine _ rfl values
    exact .refl (fun _ => rfl) _
  pushScope := congrArg Machine.pushScope
  popScope := congrArg Machine.popScope
  callable := by
    rintro machine _ rfl name arity
    cases machine.store.lookupFunction machine.env.current name arity with
    | none => exact .none
    | some callable =>
      cases callable with
      | print => exact .some .print
      | user function closure =>
        exact .some (.user (Function.alike_of_erase_eq rfl) fun _ _ => rfl)
  leaveFrame := by
    rintro machine _ left _ rfl rfl
    rfl
  callDepth_lt := by
    rintro machine _ rfl hDepth
    exact hDepth
  callLimit_le := by
    rintro machine _ rfl hLimit
    exact .inl ⟨rfl, hLimit⟩

theorem Outcome.Follows.eq_of_ne {outcome outcome' : Outcome α}
    (h : outcome.Follows Eq False outcome') (hEnds : outcome ≠ .exhausted) : outcome' = outcome := by
  cases h with
  | done h => rw [h]
  | failed h => rw [h]
  | exhausted => exact absurd rfl hEnds
  | cut hCut => exact hCut.elim

namespace Exec

/-- A run that has ended ends in the same way with more steps. -/
theorem run_eq_of_le (hSteps : n ≤ n') {source : Source} {machine : Machine}
    (hEnds : run n source machine ≠ .exhausted) : run n' source machine = run n source machine := by
  have hFunctions : Couples Eq False (defineFunctions source.functions)
      (defineFunctions source.functions) := by
    refine Couples.of_defineFunctions (Q := Eq) ?_ (List.forall₂_refl source.functions)
    rintro function _ machine _ rfl rfl
    exact .done rfl
  have hRun := simulation_eq.couples_run hSteps (Source.alike_of_erase_eq rfl) hFunctions
  exact (hRun.follows rfl).eq_of_ne hEnds

end Exec

end ProcLang
