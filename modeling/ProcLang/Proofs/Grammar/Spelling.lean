import ProcLang.Proofs.Grammar.Lexeme
import ProcLang.Decimal.Display
import ProcLang.Tree

/-! # Spelling

The concrete syntax of a tree: the lexemes that the grammar has for it, with parentheses only where
the tree has groups. An `IF` whose `ELSE` branch is empty is spelled without it.
-/

namespace ProcLang

set_option autoImplicit false

namespace Literal

/-- How a character is written between quotes. -/
def escape : Char → List Char
  | '\n' => ['\\', 'n']
  | '\t' => ['\\', 't']
  | '\r' => ['\\', 'r']
  | '\x08' => ['\\', 'b']
  | '\'' => ['\\', '\'']
  | '"' => ['\\', '"']
  | '\\' => ['\\', '\\']
  | c => [c]

def enquote (quote : Char) (text : List Char) : String :=
  String.ofList (quote :: text.flatMap escape ++ [quote])

def spell : Literal → Lexeme
  | nil => .fixed "NIL"
  | boolean true => .fixed "TRUE"
  | boolean false => .fixed "FALSE"
  | integer n => ⟨.integer, toString n⟩
  | decimal d =>
    ⟨.decimal, String.ofList (Decimal.withPoint (Nat.toDigits 10 d.unscaled.natAbs) d.scale)⟩
  | character c => ⟨.character, enquote '\'' [c]⟩
  | string s => ⟨.string, enquote '"' s.toList⟩

end Literal

namespace Expr

mutual

def spell : Expr → List Lexeme
  | literal value _ => [value.spell]
  | group inner _ => .fixed "(" :: (inner.spell ++ [.fixed ")"])
  | binary operator left right _ => left.spell ++ .fixed operator.symbol :: right.spell
  | access name _ _ => [.name name]
  | element name index _ _ => .name name :: .fixed "[" :: (index.spell ++ [.fixed "]"])
  | call name arguments _ _ => .name name :: .fixed "(" :: (spellItems arguments ++ [.fixed ")"])
  | list items _ => .fixed "[" :: (spellItems items ++ [.fixed "]"])

/-- Expressions with commas between them. -/
def spellItems : List Expr → List Lexeme
  | [] => []
  | e :: es => e.spell ++ spellOthers es

/-- Expressions with a comma before each. -/
def spellOthers : List Expr → List Lexeme
  | [] => []
  | e :: es => .fixed "," :: (e.spell ++ spellOthers es)

end

theorem spellOthers_eq (es : List Expr) :
    spellOthers es = es.flatMap fun e => .fixed "," :: e.spell := by
  induction es with
  | nil => rfl
  | cons e es ih => simp [spellOthers, ih]

/-- The spelling of operators with their right operands. -/
def spellSteps (steps : List (Operator × Expr)) : List Lexeme :=
  steps.flatMap fun (operator, right) => .fixed operator.symbol :: right.spell

theorem spell_foldl (steps : List (Operator × Expr)) (first : Expr) :
    (steps.foldl (fun left (operator, right) => .binary operator left right none) first).spell =
      first.spell ++ spellSteps steps := by
  induction steps generalizing first with
  | nil => exact (List.append_nil _).symm
  | cons step steps ih => simp [ih, spell, spellSteps]

end Expr

/-- A type behind a colon, if there is one. -/
def spellTypeName : Option String → List Lexeme
  | none => []
  | some typeName => [.fixed ":", .name typeName]

/-- A value behind an equals sign, if there is one. -/
def spellInitializer : Option Expr → List Lexeme
  | none => []
  | some value => .fixed "=" :: value.spell

namespace Stmt

mutual

def spell : Stmt → List Lexeme
  | expression e => e.spell ++ [.fixed ";"]
  | declaration name typeName value _ =>
    .fixed "LET" :: .name name ::
      (spellTypeName typeName ++ (spellInitializer value ++ [.fixed ";"]))
  | assignment receiver value => receiver.spell ++ .fixed "=" :: (value.spell ++ [.fixed ";"])
  | conditional condition consequent alternative =>
    .fixed "IF" :: (condition.spell ++ .fixed "DO" :: (spellBlock consequent ++
      (spellAlternative alternative ++ [.fixed "END"])))
  | switch subject cases => .fixed "SWITCH" :: (subject.spell ++ (spellCases cases ++ [.fixed "END"]))
  | loop condition body =>
    .fixed "WHILE" :: (condition.spell ++ .fixed "DO" :: (spellBlock body ++ [.fixed "END"]))
  | returns value => .fixed "RETURN" :: (value.spell ++ [.fixed ";"])

def spellBlock : List Stmt → List Lexeme
  | [] => []
  | statement :: rest => statement.spell ++ spellBlock rest

/-- The `ELSE` branch of an `IF`, if it has statements. -/
def spellAlternative : List Stmt → List Lexeme
  | [] => []
  | statement :: rest => .fixed "ELSE" :: (statement.spell ++ spellBlock rest)

def spellCases : List Case → List Lexeme
  | [] => []
  | ⟨some value, body⟩ :: rest =>
    .fixed "CASE" :: (value.spell ++ .fixed ":" :: (spellBlock body ++ spellCases rest))
  | ⟨none, body⟩ :: rest => .fixed "DEFAULT" :: (spellBlock body ++ spellCases rest)

end

theorem spellBlock_eq (statements : List Stmt) : spellBlock statements = statements.flatMap spell := by
  induction statements with
  | nil => rfl
  | cons statement rest ih => simp [spellBlock, ih]

end Stmt

def Case.spell : Case → List Lexeme
  | ⟨some value, body⟩ => .fixed "CASE" :: (value.spell ++ .fixed ":" :: Stmt.spellBlock body)
  | ⟨none, body⟩ => .fixed "DEFAULT" :: Stmt.spellBlock body

theorem Stmt.spellCases_eq (cases : List Case) : spellCases cases = cases.flatMap Case.spell := by
  induction cases with
  | nil => rfl
  | cons case cases ih =>
    obtain ⟨value, body⟩ := case
    cases value <;> simp [spellCases, Case.spell, ih]

theorem Stmt.spellCases_append (before after : List Case) :
    spellCases (before ++ after) = spellCases before ++ spellCases after := by
  simp only [spellCases_eq, List.flatMap_append]

namespace Global

def keyword (global : Global) : String :=
  if global.value.any Expr.isList then "LIST" else if global.isMutable then "VAR" else "VAL"

/-- A global before its semicolon. -/
def spellBody (global : Global) : List Lexeme :=
  .fixed global.keyword :: .name global.name ::
    (spellTypeName global.typeName ++ spellInitializer global.value)

def spell (global : Global) : List Lexeme :=
  global.spellBody ++ [.fixed ";"]

end Global

def spellParameter (parameter : String × String) : List Lexeme :=
  [.name parameter.1, .fixed ":", .name parameter.2]

/-- Parameters with commas between them. -/
def spellParameters : List (String × String) → List Lexeme
  | [] => []
  | parameter :: others =>
    spellParameter parameter ++ others.flatMap fun other => .fixed "," :: spellParameter other

def Function.spell (function : Function) : List Lexeme :=
  .fixed "FUN" :: .name function.name :: .fixed "(" ::
    (spellParameters (function.parameters.zip function.parameterTypes) ++ [.fixed ")"] ++
      (spellTypeName function.returnType ++ .fixed "DO" ::
        (Stmt.spellBlock function.body ++ [.fixed "END"])))

def Source.spell (source : Source) : List Lexeme :=
  source.globals.flatMap Global.spell ++ source.functions.flatMap Function.spell

end ProcLang
