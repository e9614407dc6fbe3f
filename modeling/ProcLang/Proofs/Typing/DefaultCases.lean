import ProcLang.Pipeline
import ProcLang.Proofs.Grammar.Shape
import ProcLang.Proofs.Typing.Errors

/-! # Counting default cases

The checker counts the default cases of each `SWITCH`. On trees that were read from tokens it never
has anything to object to there, whatever else is wrong with them.
-/

namespace ProcLang

set_option autoImplicit false

/-- The error is not about the number of default cases. -/
def SemanticError.IsUncounted (error : SemanticError) : Prop :=
  ∀ found, error ≠ defaultCaseCount found

open SemanticError (Grounded IsUncounted)

/-- The number of default cases is one in each `SWITCH` that is shaped. -/
theorem SemanticError.Grounded.isUncounted {types : TypeRegistry} {error : SemanticError}
    (h : error.Grounded types Stmt.isShapedNode) : error.IsUncounted := by
  rintro found rfl
  obtain ⟨hCount, subject, cases, hShaped, rfl⟩ := h
  simp only [Stmt.isShapedNode, Bool.and_eq_true, decide_eq_true_eq] at hShaped
  exact hCount hShaped.2.1

theorem Source.uncounted_check {source : Source} (h : source.isShaped = true) :
    FailsAs IsUncounted (checkProgram source) := by
  rw [isShaped, Bool.and_eq_true] at h
  have hBodies : ∀ function ∈ source.functions,
      Stmt.everyIn Stmt.isShapedNode function.body = true := by
    intro function hMem
    have hFunction := List.all_eq_true.mp h.2 function hMem
    simp only [Function.isShaped, Bool.and_eq_true] at hFunction
    exact hFunction.1.2
  have hGrounded : FailsAs (Grounded {} Stmt.isShapedNode) (checkProgram source) :=
    (grounded_check hBodies _ (.initial .initial)).1
  exact fun error hError => (hGrounded error hError).isUncounted

theorem Pipeline.uncounted_check (text : String) :
    FailsAs (fun failure => ∀ found, failure ≠ .semantic (.defaultCaseCount found))
      (Pipeline.check text) := by
  cases hLex : ProcLang.lex text with
  | error error =>
    rw [check, parse, lex, hLex]
    exact failsAs_error fun _ => Failure.noConfusion
  | ok tokens =>
    rw [check, parse_of_lex hLex]
    cases hParse : ProcLang.parse tokens with
    | error error => exact failsAs_error fun _ => Failure.noConfusion
    | ok source =>
      refine failsAs_mapError fun error hError found hFound => ?_
      exact Source.uncounted_check (isShaped_of_parse hParse) error hError found
        (Failure.semantic.inj hFound)

/-- Trees that were read from tokens have empty slots, chains of operators that lean to the left,
lists in typed mutable globals only and one default case at the end of each `SWITCH`, so that no
text fails to be checked for the number of its default cases. -/
theorem parsed_trees_are_shaped :
    (∀ tokens source, parse tokens = .ok source → source.isShaped = true) ∧
      ∀ text found, Pipeline.check text ≠ .error (.semantic (.defaultCaseCount found)) :=
  ⟨fun _ _ => isShaped_of_parse,
    fun text found hCheck => Pipeline.uncounted_check text _ hCheck found rfl⟩

/-- A chain to the right of a chain, and a `SWITCH` in a case of another. -/
def branching : String :=
  "LIST xs: Integer = [1 - 2 - 3 * 4]; FUN f(x: Integer) DO SWITCH x CASE 1: SWITCH x DEFAULT END " ++
    "DEFAULT END END"

theorem parsed_trees_are_shaped_branching : ∃ tokens source, lex branching = .ok tokens ∧
    parse tokens = .ok source ∧ source.isShaped = true := by
  have hTokens : (lex branching).toOption.any
      (fun tokens => (parse tokens).toOption.any fun _ => true) = true := by
    decide +kernel
  obtain ⟨tokens, hLex, hSource⟩ := exists_of_any_ok hTokens
  obtain ⟨source, hParse, -⟩ := exists_of_any_ok hSource
  exact ⟨tokens, source, hLex, hParse, parsed_trees_are_shaped.1 tokens source hParse⟩

end ProcLang
