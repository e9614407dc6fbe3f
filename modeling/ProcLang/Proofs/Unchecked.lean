import ProcLang.Proofs.Machine.Likeness
import ProcLang.Proofs.Safety.Run

/-! # Running checked and unchecked

A text that is accepted runs in the same way whether it is checked or not, and whether it prints to
the console or into a buffer. Of a text that is rejected, nothing runs.
-/

namespace ProcLang.Pipeline

set_option autoImplicit false

theorem erase_of_check {text : String} {checked : Source} (h : check text = .ok checked) :
    ∃ source, parse text = .ok source ∧ source.erase = checked.erase := by
  obtain ⟨source, hParse, hCheck⟩ := of_check h
  exact ⟨source, hParse, (erase_of_checkProgram hCheck).symm⟩

/-- A tree runs like any other tree with the same erasure, and prints the same wherever it prints. -/
theorem execute_of_erase_eq {source source' : Source} (h : source.erase = source'.erase) (n : Nat)
    (destination destination' : Destination) :
    execute n destination' source' = (execute n destination source).map fun result =>
      { result with printer := { result.printer with destination := destination' } } := by
  have hAgrees := Exec.run_agrees h n destination destination' defaultCallLimit
  unfold execute
  generalize Exec.run n source (Machine.new destination defaultCallLimit) = outcome at hAgrees ⊢
  generalize Exec.run n source' (Machine.new destination' defaultCallLimit) = outcome' at hAgrees ⊢
  cases hAgrees with
  | done hPrinter => simp [hPrinter.1]
  | failed hPrinter => simp [hPrinter.1]
  | exhausted => rfl

theorem destination_of_execute {n : Nat} {destination : Destination} {source : Source}
    {result : Result} (h : execute n destination source = some result) :
    result.printer.destination = destination := by
  have hAgain := @execute_of_erase_eq source source rfl n destination destination
  rw [h] at hAgain
  injection hAgain with hResult
  exact congrArg (fun result => result.printer.destination) hResult

theorem execute_eq_of_erase_eq {source source' : Source} (h : source.erase = source'.erase) (n : Nat)
    (destination : Destination) : execute n destination source' = execute n destination source := by
  rw [execute_of_erase_eq h n destination destination]
  cases hResult : execute n destination source with
  | none => rfl
  | some result =>
    obtain ⟨value, printer⟩ := result
    obtain rfl := destination_of_execute hResult
    rfl

/-- Running an accepted text unchecked is running it. Reading back what a run printed gives the same
as looking at the console. A rejected text ends with the checker's error, and nothing is printed. -/
theorem runs_agree (text : String) :
    (∀ checked, check text = .ok checked → ∀ n, runUnchecked n text = run n text) ∧
    (∀ n, runWithOutput n text = (run n text).map fun result =>
      result.value.map fun value => (value, result.printer.consoleText)) ∧
    (∀ failure, check text = .error failure → ∀ n,
      run n text = some ⟨.error failure, { destination := .console, text := "" }⟩ ∧
      executeRead n .buffer (check text) =
        some ⟨.error failure, { destination := .buffer, text := "" }⟩ ∧
      runWithOutput n text = some (.error failure)) := by
  refine ⟨?_, ?_, ?_⟩
  · intro checked hCheck n
    obtain ⟨source, hParse, hErase⟩ := erase_of_check hCheck
    rw [runUnchecked, run, hParse, hCheck]
    exact execute_eq_of_erase_eq hErase.symm n .console
  · intro n
    unfold runWithOutput run
    cases check text with
    | error failure => rfl
    | ok checked =>
      rw [executeRead, executeRead, execute_of_erase_eq rfl n .console .buffer]
      cases hResult : execute n .console checked with
      | none => rfl
      | some result =>
        have hConsole := destination_of_execute hResult
        simp [Printer.output, Printer.consoleText, hConsole]
  · intro failure hCheck n
    rw [run, runWithOutput, hCheck]
    exact ⟨rfl, rfl, rfl⟩

namespace Dividing

/-- Prints a line, then divides by zero. -/
def text : String :=
  "VAR x = 0; FUN main(): Integer DO print(x); RETURN 7 / x; END"

/-- Prints a line, then divides by a text. -/
def rejected : String :=
  "VAR x = \"\"; FUN main(): Integer DO print(x); RETURN 7 / x; END"

end Dividing

theorem runs_agree_dividing :
    (∃ result, run 40 Dividing.text = some result ∧
      result.value.toOption.isNone ∧ result.printer.consoleText = "0\n" ∧
      runUnchecked 40 Dividing.text = some result ∧
      runWithOutput 40 Dividing.text =
        some (result.value.map fun value => (value, result.printer.consoleText))) ∧
    ∃ failure, check Dividing.rejected = .error failure ∧
      run 40 Dividing.rejected = some ⟨.error failure, { destination := .console, text := "" }⟩ ∧
      runWithOutput 40 Dividing.rejected = some (.error failure) := by
  constructor
  · have hOk : (check Dividing.text).toOption.any (fun _ => true) = true := by decide +kernel
    have hRun : (run 40 Dividing.text).any (fun result =>
        result.value.toOption.isNone && result.printer.consoleText == "0\n") = true := by
      decide +kernel
    obtain ⟨checked, hCheck, -⟩ := exists_of_any_ok hOk
    obtain ⟨hAccepted, hOutput, -⟩ := runs_agree Dividing.text
    obtain ⟨result, hResult, hEnds⟩ := (Option.any_eq_true ..).mp hRun
    simp only [Bool.and_eq_true, beq_iff_eq] at hEnds
    refine ⟨result, hResult, hEnds.1, hEnds.2, ?_, ?_⟩
    · rw [hAccepted checked hCheck 40, hResult]
    · rw [hOutput 40, hResult]
      rfl
  · have hRejected : (check Dividing.rejected).toOption.isNone = true := by decide +kernel
    cases hCheck : check Dividing.rejected with
    | ok checked =>
      rw [hCheck] at hRejected
      cases hRejected
    | error failure =>
      obtain ⟨hRun, -, hOutput⟩ := (runs_agree Dividing.rejected).2.2 failure hCheck 40
      exact ⟨failure, rfl, hRun, hOutput⟩

end ProcLang.Pipeline
