import ProcLang.Proofs.Safety.Run

/-! # Names in checked programs

A run of a checked program never fails because of a name: wherever it reads or writes a variable,
the innermost binding is as mutable as the symbol that the checker wrote down there.
-/

namespace ProcLang

set_option autoImplicit false

/-- What the checker wrote down about a variable agrees with its innermost binding. -/
def Machine.Matches (machine : Machine) (name : String) (slot : Option Variable) : Prop :=
  ∃ symbol owner binding, slot = some symbol ∧
    machine.store.resolve machine.env.current name = some (owner, binding) ∧
    binding.isMutable = symbol.isMutable

theorem Ready.matches {typed : Prop} {W : World} {caller : Option Function} {Φ : StoreTyping}
    {Γ : Context} {machine : Machine} {name : String} {symbol : Variable}
    (h : Ready typed W caller Φ Γ machine.store machine.env.current)
    (hSymbol : Γ.symbol? name = some symbol) : machine.Matches name (some symbol) := by
  obtain ⟨owner, binding, hResolve, -, -, hAgrees⟩ := h.resolve hSymbol
  exact ⟨symbol, owner, binding, rfl, hResolve, hAgrees.isMutable⟩

/-- However a run of a checked text goes, it does not fail because of a name, and all that it reads
and writes is bound as the checker took it to be. -/
theorem Pipeline.names_resolve {text : String} {checked : Source} (h : check text = .ok checked)
    (n : Nat) (destination : Destination) (callLimit : Nat) :
    (∀ error machine, Exec.run n checked (Machine.new destination callLimit) = .failed error machine →
      error.isNaming = false) ∧
    (∀ caller k name slot machine,
      Task.Reached n checked (Machine.new destination callLimit) caller k (.read name slot) machine →
      machine.Matches name slot) ∧
    (∀ caller k name slot value machine,
      Task.Reached n checked (Machine.new destination callLimit) caller k (.write name slot value)
        machine → machine.Matches name slot) := by
  have hFit : checked.Fit {} False := fit_of_check h nofun
  refine ⟨?_, ?_, ?_⟩
  · intro error machine hFailed
    exact ((hFit.run_safe destination callLimit).of_failed hFailed).isNaming
  · intro caller k name slot machine hReached
    obtain ⟨W, Φ, Γ, -, -, hJustified⟩ := hFit.justified_of_reached hReached
    obtain ⟨symbol, rfl, hSymbol⟩ := hJustified.judged
    exact hJustified.ready.matches hSymbol
  · intro caller k name slot value machine hReached
    obtain ⟨W, Φ, Γ, -, -, hJustified⟩ := hFit.justified_of_reached hReached
    obtain ⟨symbol, rfl, hSymbol, -, -⟩ := hJustified.judged
    exact hJustified.ready.matches hSymbol

namespace Shadowing

/-- A global, a parameter and a local variable of one name, of which only the parameter cannot be
assigned to. -/
def text : String :=
  "VAR x = 1;
  FUN f(x: Integer): Integer DO LET x = 2; x = x + 1; RETURN x; END
  FUN main(): Integer DO x = f(x); RETURN x; END"

end Shadowing

theorem Pipeline.names_resolve_shadowing : ∃ checked, check Shadowing.text = .ok checked ∧
    ∀ error machine, Exec.run 100 checked (Machine.new .buffer 10) = .failed error machine →
      error.isNaming = false := by
  have hOk : (check Shadowing.text).toOption.any (fun _ => true) = true := by
    decide +kernel
  obtain ⟨checked, hCheck, -⟩ := exists_of_any_ok hOk
  exact ⟨checked, hCheck, (names_resolve hCheck 100 .buffer 10).1⟩

end ProcLang
