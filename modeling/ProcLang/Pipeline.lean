import ProcLang.Grammar.Program
import ProcLang.Machine.Run
import ProcLang.Token.Lexer
import ProcLang.Typing.Checker

/-! # From text to result

The stages in order: tokens, tree, checked tree, run. A failure says which stage it comes from.
-/

namespace ProcLang

set_option autoImplicit false

inductive Failure where
  | lex (error : LexError)
  | parse (error : ParseError)
  | semantic (error : SemanticError)
  | runtime (error : RuntimeError)
deriving DecidableEq, Repr

def Failure.message : Failure → String
  | lex error => s!"lex error: {error.message}"
  | parse error => s!"parse error: {error.message}"
  | semantic error => s!"semantic error: {error.message}"
  | runtime error => s!"runtime error: {error.message}"

namespace Pipeline

def lex (text : String) : Except Failure (List Token) :=
  (ProcLang.lex text).mapError .lex

def parse (text : String) : Except Failure Source := do
  let tokens ← lex text
  (ProcLang.parse tokens).mapError .parse

theorem parse_of_lex {text : String} {tokens : List Token} (h : ProcLang.lex text = .ok tokens) :
    parse text = (ProcLang.parse tokens).mapError .parse := by
  rw [parse, lex, h]
  rfl

/-- The checked tree of a text. -/
def check (text : String) : Except Failure Source := do
  let source ← parse text
  (checkProgram source).mapError .semantic

/-- What a run ended with and what it printed. -/
structure Result where
  value : Except Failure Value
  printer : Printer

/-- Runs a tree on a new machine, `none` if `n` steps are not enough. -/
def execute (n : Nat) (destination : Destination) (source : Source) : Option Result :=
  match Exec.run n source (Machine.new destination defaultCallLimit) with
  | .done value machine => some ⟨.ok value, machine.printer⟩
  | .failed error machine => some ⟨.error (.runtime error), machine.printer⟩
  | .exhausted => none

/-- Runs what a text was read as, or prints nothing where that failed. -/
def executeRead (n : Nat) (destination : Destination) : Except Failure Source → Option Result
  | .ok source => execute n destination source
  | .error failure => some ⟨.error failure, { destination }⟩

/-- Checks a text and runs it, printing to the console. -/
def run (n : Nat) (text : String) : Option Result :=
  executeRead n .console (check text)

/-- Runs a text without checking it, printing to the console. -/
def runUnchecked (n : Nat) (text : String) : Option Result :=
  executeRead n .console (parse text)

/-- Checks a text and runs it; the result holds what was printed. -/
def runWithOutput (n : Nat) (text : String) : Option (Except Failure (Value × String)) :=
  (executeRead n .buffer (check text)).map fun result =>
    result.value.map fun value => (value, result.printer.output)

end Pipeline

end ProcLang
