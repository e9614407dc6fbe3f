import ProcLang.Grammar.Expression

/-! # Reading statements

    block     ::= statement*
    statement ::= 'LET' identifier (':' identifier)? ('=' expression)? ';'
                | 'SWITCH' expression ('CASE' expression ':' block)* 'DEFAULT' block 'END'
                | 'IF' expression 'DO' block ('ELSE' block)? 'END'
                | 'WHILE' expression 'DO' block 'END'
                | 'RETURN' expression ';'
                | expression ('=' expression)? ';'

A block ends before `END`, `ELSE`, `CASE` and `DEFAULT`, and with the tokens.
-/

namespace ProcLang

set_option autoImplicit false

/-- Whether the cursor stands before a token that does not end a block. -/
def Cursor.beginsStatement (cursor : Cursor) : Bool :=
  !(cursor.atEnd || cursor.checkAny ["END", "ELSE", "CASE", "DEFAULT"])

namespace Grammar

open ProcLang.Parser

def typeAnnotation : Parser (Option String) :=
  optional ":" identifier

def declaration (n : Nat) : Parser Stmt := do
  let name ← identifier
  let typeName ← typeAnnotation
  let value ← optional "=" (expression n)
  expect ";"
  return .declaration name typeName value none

def valuedCase (block : Parser (List Stmt)) (n : Nat) : Parser Case := do
  let value ← expression n
  expect ":"
  let body ← block
  return ⟨some value, body⟩

def switch (block : Parser (List Stmt)) (n : Nat) : Parser Stmt := do
  let subject ← expression n
  let cases ← manyAt "CASE" (valuedCase block n) n
  expect "DEFAULT"
  let body ← block
  expect "END"
  return .switch subject (cases ++ [⟨none, body⟩])

def conditional (block : Parser (List Stmt)) (n : Nat) : Parser Stmt := do
  let condition ← expression n
  expect "DO"
  let consequent ← block
  let alternative ← optional "ELSE" block
  expect "END"
  return .conditional condition consequent (alternative.getD [])

def loop (block : Parser (List Stmt)) (n : Nat) : Parser Stmt := do
  let condition ← expression n
  expect "DO"
  let body ← block
  expect "END"
  return .loop condition body

def returns (n : Nat) : Parser Stmt := do
  let value ← expression n
  expect ";"
  return .returns value

/-- An expression or an assignment; any expression is read as a receiver. -/
def simple (n : Nat) : Parser Stmt := do
  let first ← expression n
  let value ← optional "=" (expression n)
  expect ";"
  match value with
  | some value => return .assignment first value
  | none => return .expression first

/-- A statement, where `block` reads the blocks inside it. -/
def statement (block : Parser (List Stmt)) (n : Nat) : Parser Stmt := do
  if ← eat "LET" then declaration n
  else if ← eat "SWITCH" then switch block n
  else if ← eat "IF" then conditional block n
  else if ← eat "WHILE" then loop block n
  else if ← eat "RETURN" then returns n
  else simple n

/-- A block among at most `n` tokens. -/
def block : Nat → Parser (List Stmt)
  | 0 => pure []
  | n + 1 =>
    many (fun cursor => if cursor.beginsStatement then some () else none)
      (fun _ => statement (block n) (n + 1)) (n + 1)

end Grammar

end ProcLang
