import ProcLang.Grammar.Parser
import ProcLang.Tree

/-! # Reading expressions

    expression     ::= comparison (('&&' | '||') comparison)*
    comparison     ::= additive (('<' | '>' | '==' | '!=') additive)*
    additive       ::= multiplicative (('+' | '-') multiplicative)*
    multiplicative ::= primary (('*' | '/' | '^') primary)*
    primary        ::= 'NIL' | 'TRUE' | 'FALSE' | literal | '(' expression ')'
                     | identifier ('(' arguments ')' | '[' expression ']')?
    arguments      ::= (expression (',' expression)*)?

Chains of operators lean to the left. Each production takes a bound on the tokens that remain.
-/

namespace ProcLang

set_option autoImplicit false

/-- The operator of the given level that the cursor stands before. -/
def Cursor.operator? (level : Level) (cursor : Cursor) : Option Operator :=
  match cursor.current with
  | some ⟨.operator, literal, _⟩ =>
    (Operator.ofSymbol? literal).filter fun operator => operator.level = level
  | _ => none

namespace Grammar

open ProcLang.Parser

/-- Operands joined by operators of one level. -/
def chain (level : Level) (operand : Parser Expr) (n : Nat) : Parser Expr := do
  let first ← operand
  let others ← many (Cursor.operator? level) (fun operator => do
    skip
    let right ← operand
    return (operator, right)) n
  return others.foldl (fun left (operator, right) => .binary operator left right none) first

def literal (kind : TokenKind) (text : String) : Parser Expr :=
  match Literal.ofText kind text with
  | .error error => fail (.literal error)
  | .ok literal => do
    skip
    return .literal literal none

def groupRest (expression : Parser Expr) : Parser Expr := do
  let inner ← expression
  expect ")"
  return .group inner none

/-- A call's arguments behind the opening parenthesis, with the closing one. -/
def arguments (expression : Parser Expr) (n : Nat) : Parser (List Expr) := do
  if ← eat ")" then
    return []
  else
    let arguments ← commaSeparated expression n
    expect ")"
    return arguments

/-- What can follow an identifier in an expression. -/
def nameRest (name : String) (expression : Parser Expr) (n : Nat) : Parser Expr := do
  if ← eat "(" then
    return .call name (← arguments expression n) none none
  else if ← eat "[" then
    let index ← expression
    expect "]"
    return .element name index none none
  else
    return .access name none none

/-- An operand, where `expression` reads the expressions inside it. -/
def primary (expression : Parser Expr) (n : Nat) : Parser Expr := do
  match (← get).current with
  | none => fail (.expectedExpression none)
  | some token =>
    if token.literal = "NIL" then do
      skip
      return .literal .nil none
    else if token.literal = "TRUE" then do
      skip
      return .literal (.boolean true) none
    else if token.literal = "FALSE" then do
      skip
      return .literal (.boolean false) none
    else
      match token.kind with
      | .integer | .decimal | .character | .string => literal token.kind token.literal
      | kind =>
        if token.literal = "(" then do
          skip
          groupRest expression
        else if kind = .identifier then do
          skip
          nameRest token.literal expression n
        else
          fail (.expectedExpression token.literal)

/-- An expression among at most `n` tokens. -/
def expression : Nat → Parser Expr
  | 0 => fail (.expectedExpression none)
  | n + 1 =>
    let multiplicative := chain .multiplicative (primary (expression n) n) n
    let additive := chain .additive multiplicative n
    let comparison := chain .comparison additive n
    chain .logical comparison n

end Grammar

end ProcLang
