import ProcLang.Cursor

/-! # Parsers

A parser reads a value at a cursor and moves past its tokens, or reports an error. Repetition is
bounded by a number, which is enough if no fewer tokens remain.
-/

namespace ProcLang

set_option autoImplicit false

abbrev Parser (α : Type) := StateT Cursor (Except ParseError) α

namespace Parser

variable {α β : Type}

def fail (fault : ParseFault) : Parser α :=
  fun cursor => .error (cursor.error fault)

def skip : Parser Unit :=
  fun cursor => .ok ((), cursor.next)

def check (text : String) : Parser Bool :=
  fun cursor => .ok (cursor.check (.text text), cursor)

/-- Moves past the current token if it has this text, and tells whether it had. -/
def eat (text : String) : Parser Bool :=
  fun cursor =>
    let (token, rest) := cursor.eat (.text text)
    .ok (token.isSome, rest)

def expect (text : String) : Parser Unit :=
  fun cursor => (cursor.expect (.text text)).map fun (_, rest) => ((), rest)

def identifier : Parser String :=
  fun cursor =>
    (cursor.expect (.kind .identifier)).map fun (token, rest) => (token.literal, rest)

/-- Reads items as long as the cursor stands before one, at most `n` of them. -/
def many (found? : Cursor → Option β) (item : β → Parser α) : Nat → Parser (List α)
  | 0 => pure []
  | n + 1 => do
    match found? (← get) with
    | none => pure []
    | some found => do
      let first ← item found
      let rest ← many found? item n
      return first :: rest

/-- Reads items that each begin with the given text, at most `n` of them. -/
def manyAt (text : String) (item : Parser α) (n : Nat) : Parser (List α) :=
  many (fun cursor => if cursor.check (.text text) then some () else none)
    (fun _ => do skip; item) n

/-- Reads one item and others behind commas, at most `n` of those. -/
def commaSeparated (item : Parser α) (n : Nat) : Parser (List α) := do
  let first ← item
  let rest ← manyAt "," item n
  return first :: rest

/-- Reads an item behind the given text, if that comes next. -/
def optional (text : String) (item : Parser α) : Parser (Option α) := do
  if ← eat text then
    return some (← item)
  else
    return none

end Parser

end ProcLang
