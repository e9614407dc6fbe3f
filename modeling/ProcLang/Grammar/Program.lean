import ProcLang.Grammar.Statement

/-! # Reading programs

    source    ::= global* function*
    global    ::= (list | mutable | immutable) ';'
    list      ::= 'LIST' identifier ':' identifier '=' '[' expression (',' expression)* ']'
    mutable   ::= 'VAR' identifier (':' identifier)? ('=' expression)?
    immutable ::= 'VAL' identifier (':' identifier)? '=' expression
    function  ::= 'FUN' identifier '(' (parameter (',' parameter)*)? ')' (':' identifier)?
                  'DO' block 'END'
    parameter ::= identifier ':' identifier
-/

namespace ProcLang

set_option autoImplicit false

namespace Grammar

open ProcLang.Parser

def listGlobal (n : Nat) : Parser Global := do
  let name ← identifier
  expect ":"
  let typeName ← identifier
  expect "="
  expect "["
  let items ← commaSeparated (expression n) n
  expect "]"
  return {
    name, typeName := some typeName, isMutable := true, value := some (.list items none) }

def mutableGlobal (n : Nat) : Parser Global := do
  let name ← identifier
  let typeName ← typeAnnotation
  let value ← optional "=" (expression n)
  return { name, typeName, isMutable := true, value }

def immutableGlobal (n : Nat) : Parser Global := do
  let name ← identifier
  let typeName ← typeAnnotation
  expect "="
  let value ← expression n
  return { name, typeName, isMutable := false, value := some value }

/-- A global before its semicolon. -/
def globalBody (n : Nat) : Parser Global := do
  if ← eat "LIST" then listGlobal n
  else if ← eat "VAR" then mutableGlobal n
  else do
    expect "VAL"
    immutableGlobal n

def global (n : Nat) : Parser Global := do
  let global ← globalBody n
  expect ";"
  return global

def parameter : Parser (String × String) := do
  let name ← identifier
  expect ":"
  let typeName ← identifier
  return (name, typeName)

/-- A function's parameters behind the opening parenthesis, with the closing one. -/
def parameters (n : Nat) : Parser (List (String × String)) := do
  if ← eat ")" then
    return []
  else
    let parameters ← commaSeparated parameter n
    expect ")"
    return parameters

def function (n : Nat) : Parser Function := do
  expect "FUN"
  let name ← identifier
  expect "("
  let parameters ← parameters n
  let returnType ← typeAnnotation
  expect "DO"
  let body ← block n
  expect "END"
  return {
    name, parameters := parameters.map (·.1), parameterTypes := parameters.map (·.2),
    returnType, body }

/-- A program among at most `n` tokens, which must be all of them. -/
def source (n : Nat) : Parser Source := do
  let globals ← many
    (fun cursor => if cursor.checkAny ["LIST", "VAR", "VAL"] then some () else none)
    (fun _ => global n) n
  let functions ← many
    (fun cursor => if cursor.check (.text "FUN") then some () else none)
    (fun _ => function n) n
  match (← get).current with
  | some token => fail (.expectedItem token.literal)
  | none => return ⟨globals, functions⟩

end Grammar

/-- The program that a list of tokens spells. -/
def parse (tokens : List Token) : Except ParseError Source :=
  (Grammar.source tokens.length (Cursor.ofTokens tokens)).map (·.1)

end ProcLang
