import ProcLang.Proofs.Safety.Run

/-! # Types in checked programs

A run of a checked program of the fragment computes with values of the types that the checker wrote
down. It can only fail where numbers have no result, or where calls go too deep.
-/

namespace ProcLang

set_option autoImplicit false

namespace Pipeline

theorem covered_of_check {text : String} {source checked : Source} (hParse : parse text = .ok source)
    (hCheck : check text = .ok checked) (h : source.Covered) : checked.Covered := by
  obtain ⟨original, hOriginal, hChecked⟩ := of_check hCheck
  obtain rfl := Except.ok.inj (hParse.symm.trans hOriginal)
  rw [← checked.covered_erase, erase_of_checkProgram hChecked, source.covered_erase]
  exact h

/-- A run of a text of the fragment returns an integer or fails in its arithmetic or for the depth
of its calls, and all that it evaluates has the type in its slot. -/
theorem types_hold {text : String} {source checked : Source} (hParse : parse text = .ok source)
    (hCovered : source.Covered) (hCheck : check text = .ok checked) (n : Nat)
    (destination : Destination) (callLimit : Nat) :
    (∀ value machine, Exec.run n checked (Machine.new destination callLimit) = .done value machine →
      ∃ i, value = .integer i) ∧
    (∀ error machine, Exec.run n checked (Machine.new destination callLimit) = .failed error machine →
      (∃ reason, error = .operation (.arithmetic reason)) ∨ ∃ limit, error = .stackOverflow limit) ∧
    (∀ caller k e machine value machine',
      Task.Reached n checked (Machine.new destination callLimit) caller k (.evaluate e) machine →
      Exec.evaluate k e machine = .done value machine' →
      ∃ ty, e.ty = some ty ∧ ty.admits value.tag = true) := by
  have hFit : checked.Fit {} True :=
    fit_of_check hCheck fun _ => covered_of_check hParse hCheck hCovered
  refine ⟨?_, ?_, ?_⟩
  · intro value machine hDone
    have hInteger := (hFit.run_safe destination callLimit).of_done hDone trivial
    cases value with
    | integer i => exact ⟨i, rfl⟩
    | nil | boolean | decimal | character | string | list => cases hInteger
  · intro error machine hFailed
    have hNumerical := ((hFit.run_safe destination callLimit).of_failed hFailed).isNumerical trivial
    cases error with
    | stackOverflow limit => exact .inr ⟨limit, rfl⟩
    | operation error =>
      cases error with
      | arithmetic reason => exact .inl ⟨reason, rfl⟩
      | invalidOperands => cases hNumerical
    | typeMismatch | immutableAssignment | indexOutOfBounds | undefinedVariable | undefinedFunction
      | notAList | invalidReceiver => cases hNumerical
  · intro caller k e machine value machine' hReached hDone
    obtain ⟨W, Φ, Γ, hW, -, hJustified⟩ := hFit.justified_of_reached hReached
    obtain ⟨-, -, -, hFits⟩ := hJustified.ready_of_evaluate hW hDone
    exact hFits trivial

end Pipeline

namespace Halving

/-- It computes with integers, strings and truth values, and returns early. -/
def text : String :=
  "FUN half(x: Integer): Integer DO RETURN x / 2; END
  FUN main(): Integer DO
    LET n = 7;
    IF n > 3 DO print(\"n: \" + n); RETURN half(n); END
    RETURN n;
  END"

end Halving

theorem Pipeline.types_hold_halving : ∃ source checked,
    parse Halving.text = .ok source ∧ source.Covered ∧ check Halving.text = .ok checked ∧
    ∀ value machine, Exec.run 100 checked (Machine.new .buffer 10) = .done value machine →
      ∃ i, value = .integer i := by
  have hRead : (parse Halving.text).toOption.any (fun source => source.Covered) = true := by
    decide +kernel
  have hOk : (check Halving.text).toOption.any (fun _ => true) = true := by
    decide +kernel
  obtain ⟨source, hParse, hCovered⟩ := exists_of_any_ok hRead
  obtain ⟨checked, hCheck, -⟩ := exists_of_any_ok hOk
  have hCovered := of_decide_eq_true hCovered
  exact ⟨source, checked, hParse, hCovered, hCheck,
    (types_hold hParse hCovered hCheck 100 .buffer 10).1⟩

end ProcLang
