import ProcLang.Grammar.Program
import ProcLang.Proofs.Grammar.Reads

/-! # Productions and the lexeme ahead

The productions in the form in which they are reasoned about: an expression is the loosest level of
a list of levels, the tightest of which has the operands, and a block is a repetition of statements.
All of them decide by the lexeme ahead, so each decision is also a function of that.
-/

namespace ProcLang

set_option autoImplicit false

/-- The levels of binary expressions, loosest first. -/
def Level.all : List Level :=
  [.logical, .comparison, .additive, .multiplicative]

namespace Parser

def seesOperator (level : Level) : Option Lexeme → Option Operator
  | some ⟨.operator, text⟩ =>
    (Operator.ofSymbol? text).filter fun operator => operator.level = level
  | _ => none

theorem sees_operator (level : Level) (cursor : Cursor) :
    cursor.operator? level = seesOperator level (cursor.current.map Token.lexeme) := by
  unfold Cursor.operator?
  cases cursor.current with
  | none => rfl
  | some token =>
    obtain ⟨kind, literal, offset⟩ := token
    cases kind <;> rfl

theorem seesOperator_symbol (level : Level) (operator : Operator) :
    seesOperator level (some (.fixed operator.symbol)) =
      if operator.level = level then some operator else none := by
  cases level <;> cases operator <;> decide

/-- The words that end a block. -/
def blockEnds : List String :=
  ["END", "ELSE", "CASE", "DEFAULT"]

def seesStatement : Option Lexeme → Option Unit
  | none => none
  | some l => if l.text ∈ blockEnds then none else some ()

theorem sees_statement (cursor : Cursor) :
    (if cursor.beginsStatement then some () else none) =
      seesStatement (cursor.current.map Token.lexeme) := by
  obtain ⟨rest, stop⟩ := cursor
  cases rest with
  | nil => rfl
  | cons token rest =>
    simp only [Cursor.beginsStatement, Cursor.atEnd, Cursor.checkAny, List.isEmpty_cons,
      Bool.false_or, List.any_cons, List.any_nil, Bool.or_false, check_text, List.head?_cons,
      Option.map_some, Option.any_some, Cursor.current, seesStatement, blockEnds, List.mem_cons,
      List.not_mem_nil, or_false, Bool.not_eq_true', Bool.or_eq_false_iff, decide_eq_false_iff_not]
    split <;> split <;> tauto

/-- What a repetition asks that goes on at any of some words. -/
def seesAny (texts : List String) (next : Option Lexeme) : Option Unit :=
  if next.any (·.text ∈ texts) then some () else none

theorem sees_checkAny (texts : List String) (cursor : Cursor) :
    (if cursor.checkAny texts then some () else none) =
      seesAny texts (cursor.current.map Token.lexeme) := by
  obtain ⟨rest, stop⟩ := cursor
  simp only [Cursor.checkAny, check_text, seesAny, Cursor.current]
  cases rest <;> simp

end Parser

namespace Grammar

open ProcLang.Parser

/-- An operand of the narrowest level, among at most `n` tokens. -/
def operand (n : Nat) : Parser Expr :=
  primary (expression (n - 1)) (n - 1)

/-- An operator that was seen, with its right operand. -/
def step (right : Parser Expr) (operator : Operator) : Parser (Operator × Expr) := do
  skip
  let right ← right
  return (operator, right)

/-- Expressions of the given levels, among at most `n` tokens. -/
def tightening : List Level → Nat → Parser Expr
  | [], n => operand n
  | level :: levels, n => chain level (tightening levels n) (n - 1)

theorem tightening_zero (levels : List Level) {cursor : Cursor} (h : cursor.rest = []) :
    tightening levels 0 cursor = .error (cursor.error (.expectedExpression none)) := by
  induction levels with
  | nil =>
    refine (bind_of_ok (a := cursor) rfl).trans ?_
    simp only [Cursor.current, h]
    rfl
  | cons level levels ih => exact bind_of_error ih

theorem expression_eq_tightening {n : Nat} {cursor : Cursor} (h : cursor.rest.length ≤ n) :
    expression n cursor = tightening Level.all n cursor := by
  cases n with
  | zero => exact (tightening_zero Level.all (List.length_eq_zero_iff.mp (Nat.le_zero.mp h))).symm
  | succ n => rfl

/-- An operand whose first lexeme is known. -/
def operandAt (l : Lexeme) (expression : Parser Expr) (n : Nat) : Parser Expr :=
  if l.text = "NIL" then do
    skip
    return .literal .nil none
  else if l.text = "TRUE" then do
    skip
    return .literal (.boolean true) none
  else if l.text = "FALSE" then do
    skip
    return .literal (.boolean false) none
  else
    match l.kind with
    | .integer | .decimal | .character | .string => literal l.kind l.text
    | kind =>
      if l.text = "(" then do
        skip
        groupRest expression
      else if kind = .identifier then do
        skip
        nameRest l.text expression n
      else
        fail (.expectedExpression l.text)

section OperandAt

variable {l : Lexeme} (expression : Parser Expr) (n : Nat)

/-- The words that are literals. -/
def literalWords : List String :=
  ["NIL", "TRUE", "FALSE"]

omit expression n in
theorem exists_operandAt_word (hWord : l.text ∈ literalWords) :
    ∃ value, ∀ expression n,
      operandAt l expression n = (do skip; return .literal value none) := by
  obtain ⟨kind, text⟩ := l
  simp only [literalWords, List.mem_cons, List.not_mem_nil, or_false] at hWord
  rcases hWord with rfl | rfl | rfl
  · exact ⟨.nil, fun _ _ => rfl⟩
  · exact ⟨.boolean true, fun _ _ => rfl⟩
  · exact ⟨.boolean false, fun _ _ => rfl⟩

theorem operandAt_literal (hWord : l.text ∉ literalWords)
    (hKind : l.kind ≠ .identifier ∧ l.kind ≠ .operator) :
    operandAt l expression n = literal l.kind l.text := by
  obtain ⟨kind, text⟩ := l
  simp only [literalWords, List.mem_cons, List.not_mem_nil, or_false, not_or] at hWord
  cases kind with
  | identifier => exact absurd rfl hKind.1
  | operator => exact absurd rfl hKind.2
  | integer | decimal | character | string => simp [operandAt, hWord]

theorem operandAt_group (hText : l.text = "(") (hKind : l.kind = .identifier ∨ l.kind = .operator) :
    operandAt l expression n = (do skip; groupRest expression) := by
  rcases hKind with hKind | hKind <;> simp [operandAt, hText, hKind]

theorem operandAt_name (hWord : l.text ∉ literalWords) (hText : l.text ≠ "(")
    (hKind : l.kind = .identifier) :
    operandAt l expression n = (do skip; nameRest l.text expression n) := by
  simp only [literalWords, List.mem_cons, List.not_mem_nil, or_false, not_or] at hWord
  simp [operandAt, hWord, hText, hKind]

theorem operandAt_operator (hWord : l.text ∉ literalWords) (hText : l.text ≠ "(")
    (hKind : l.kind = .operator) :
    operandAt l expression n = fail (.expectedExpression l.text) := by
  simp only [literalWords, List.mem_cons, List.not_mem_nil, or_false, not_or] at hWord
  simp [operandAt, hWord, hText, hKind]

end OperandAt

theorem primary_cons (expression : Parser Expr) (n : Nat) (token : Token) (rest : List Token)
    (stop : Nat) : primary expression n ⟨token :: rest, stop⟩ =
      operandAt token.lexeme expression n ⟨token :: rest, stop⟩ := by
  refine (bind_of_ok (a := (⟨token :: rest, stop⟩ : Cursor)) rfl).trans ?_
  rfl

theorem reads_operand {l : Lexeme} {u : List Lexeme} {outcome : Except ParseFault Expr}
    {next : Option Lexeme} (hHead : u.head?.or next = some l)
    (h : Reads (fun n => operandAt l (expression (n - 1)) (n - 1)) u outcome next) :
    Reads operand u outcome next := by
  intro n tokens rest stop hTokens hNext hLength
  have hCurrent := head?_append_map hTokens hNext
  have hRead := h n tokens rest stop hTokens hNext hLength
  cases hAll : tokens ++ rest with
  | nil => simp [hAll, hHead] at hCurrent
  | cons token others =>
    rw [hAll, hHead] at hCurrent
    obtain rfl := Option.some.inj hCurrent
    rw [operand, primary_cons, ← hRead, hAll]

theorem reads_operand_none :
    Reads operand [] (.error (.expectedExpression none)) none := by
  refine reads_of_nil fun n rest stop hNext _ => ?_
  cases rest with
  | nil => rfl
  | cons token rest => cases hNext

section Operands

variable {l : Lexeme} {u : List Lexeme} {outcome : Except ParseFault Expr} {next : Option Lexeme}

theorem exists_reads_operand_word (hWord : l.text ∈ literalWords) :
    ∃ value, ∀ next, Reads operand [l] (.ok (.literal value none)) next := by
  obtain ⟨value, hOperand⟩ := exists_operandAt_word hWord
  refine ⟨value, fun next => reads_operand rfl ?_⟩
  simp only [hOperand]
  exact (reads_skip l).bind_pure

theorem reads_operand_literal {value : Literal} (hWord : l.text ∉ literalWords)
    (hKind : l.kind ≠ .identifier ∧ l.kind ≠ .operator)
    (hText : Literal.ofText l.kind l.text = .ok value) :
    Reads operand [l] (.ok (.literal value none)) next := by
  refine reads_operand rfl ?_
  simp only [operandAt_literal _ _ hWord hKind, literal, hText]
  exact (reads_skip l).bind_pure

theorem reads_operand_literal_error {error : LiteralError} (hWord : l.text ∉ literalWords)
    (hKind : l.kind ≠ .identifier ∧ l.kind ≠ .operator)
    (hText : Literal.ofText l.kind l.text = .error error) :
    Reads operand [] (.error (.literal error)) (some l) := by
  refine reads_operand rfl ?_
  simp only [operandAt_literal _ _ hWord hKind, literal, hText]
  exact reads_fail (.literal error)

theorem reads_operand_group (hText : l.text = "(")
    (hKind : l.kind = .identifier ∨ l.kind = .operator)
    (h : Reads (fun n => groupRest (expression n)) u outcome next) :
    Reads operand (l :: u) outcome next := by
  refine reads_operand rfl ?_
  simp only [operandAt_group _ _ hText hKind]
  exact Reads.bind_succ (reads_skip l) (by simp) h

theorem reads_operand_name (hWord : l.text ∉ literalWords) (hText : l.text ≠ "(")
    (hKind : l.kind = .identifier)
    (h : Reads (fun n => nameRest l.text (expression n) n) u outcome next) :
    Reads operand (l :: u) outcome next := by
  refine reads_operand rfl ?_
  simp only [operandAt_name _ _ hWord hText hKind]
  exact Reads.bind_succ (reads_skip l) (by simp) h

theorem reads_operand_operator (hWord : l.text ∉ literalWords) (hText : l.text ≠ "(")
    (hKind : l.kind = .operator) :
    Reads operand [] (.error (.expectedExpression l.text)) (some l) := by
  refine reads_operand rfl ?_
  simp only [operandAt_operator _ _ hWord hText hKind]
  exact reads_fail (.expectedExpression l.text)

end Operands

theorem reads_expression_of_tightening {u : List Lexeme} {outcome : Except ParseFault Expr}
    {next : Option Lexeme} (h : Reads (tightening Level.all) u outcome next) :
    Reads expression u outcome next :=
  h.congr fun _ _ => expression_eq_tightening

/-- A statement among at most `n` tokens, where shorter statements are known. -/
def statements (n : Nat) : Parser Stmt :=
  statement (block (n - 1)) n

theorem block_eq_many (n : Nat) : block n =
    many (fun cursor => if cursor.beginsStatement then some () else none)
      (fun _ => statements n) n := by
  cases n <;> rfl

/-- The end of a program, behind its globals and functions. -/
def finish (globals : List Global) (functions : List Function) : Parser Source := do
  match (← get).current with
  | some token => fail (.expectedItem token.literal)
  | none => return ⟨globals, functions⟩

theorem reads_finish (globals : List Global) (functions : List Function) :
    Reads (fun _ => finish globals functions) [] (.ok ⟨globals, functions⟩) none := by
  refine reads_of_nil fun n rest stop hNext _ => ?_
  cases rest with
  | nil => rfl
  | cons token rest => cases hNext

theorem reads_finish_error (globals : List Global) (functions : List Function) (l : Lexeme) :
    Reads (fun _ => finish globals functions) [] (.error (.expectedItem l.text)) (some l) := by
  refine reads_of_nil fun n rest stop hNext _ => ?_
  cases rest with
  | nil => cases hNext
  | cons token rest =>
    obtain rfl := Option.some.inj hNext
    rfl

end Grammar

end ProcLang
