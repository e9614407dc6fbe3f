import ProcLang.Text.Quoted

/-! # Tokens

A token is a piece of a program's text with its kind and the number of characters before it. The
kinds are coarse: keywords are identifiers and all punctuation is operators, so that a reader of
tokens tells them apart by their literal text. Character and string tokens keep their quotes and
escapes.
-/

namespace ProcLang

set_option autoImplicit false

inductive TokenKind where
  | identifier
  | integer
  | decimal
  | character
  | string
  | operator
deriving DecidableEq, Repr

namespace TokenKind

def name : TokenKind → String
  | identifier => "Identifier"
  | integer => "Integer"
  | decimal => "Decimal"
  | character => "Character"
  | string => "String"
  | operator => "Operator"

/-- How messages speak of a token of this kind. -/
def description : TokenKind → String
  | identifier => "identifier"
  | integer => "integer literal"
  | decimal => "decimal literal"
  | character => "character literal"
  | string => "string literal"
  | operator => "operator"

end TokenKind

structure Token where
  kind : TokenKind
  literal : String
  offset : Nat
deriving DecidableEq, Repr

namespace Token

/-- The offset just past the token. -/
def stop (token : Token) : Nat :=
  token.offset + token.literal.length

/-- A token in one line, for people who look at token lists. -/
def summary (token : Token) : String :=
  s!"{token.kind.name}({Text.quoted token.literal}) @ {token.offset}"

end Token

end ProcLang
