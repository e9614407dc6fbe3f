import ProcLang.Literal
import ProcLang.Token

/-! # Cursors

A cursor stands before a token of a list or at its end. Tokens are looked for by kind or by literal
text; an error is reported at the token that the cursor stands before, or just past the last one.
-/

namespace ProcLang

set_option autoImplicit false

inductive Pattern where
  | kind (kind : TokenKind)
  | text (text : String)
deriving DecidableEq, Repr

namespace Pattern

def accepts (pattern : Pattern) (token : Token) : Bool :=
  match pattern with
  | kind wanted => token.kind = wanted
  | text wanted => token.literal = wanted

def description : Pattern → String
  | kind wanted => wanted.description
  | text wanted => s!"'{wanted}'"

end Pattern

/-- Why tokens are not a program. What was found is a token's literal, or nothing at the end. -/
inductive ParseFault where
  | expected (pattern : Pattern) (found : Option String)
  | expectedExpression (found : Option String)
  | expectedItem (found : String)
  | literal (error : LiteralError)
  | other (text : String)
deriving DecidableEq, Repr

namespace ParseFault

def foundText : Option String → String
  | some found => s!"'{found}'"
  | none => "end of input"

def message : ParseFault → String
  | expected pattern found => s!"expected {pattern.description}, found {foundText found}"
  | expectedExpression found => s!"expected expression, found {foundText found}"
  | expectedItem found => s!"expected global or function, found '{found}'"
  | literal error => error.message
  | other words => words

end ParseFault

structure ParseError where
  fault : ParseFault
  offset : Nat
deriving DecidableEq, Repr

def ParseError.message (error : ParseError) : String :=
  s!"{error.fault.message} at offset {error.offset}"

structure Cursor where
  /-- The tokens that were not consumed. -/
  rest : List Token
  /-- The offset just past the last token, zero if there is none. -/
  stop : Nat
deriving DecidableEq, Repr

namespace Cursor

def ofTokens (tokens : List Token) : Cursor :=
  ⟨tokens, (tokens.getLast?.map Token.stop).getD 0⟩

def atEnd (cursor : Cursor) : Bool :=
  cursor.rest.isEmpty

def current (cursor : Cursor) : Option Token :=
  cursor.rest.head?

def check (cursor : Cursor) (pattern : Pattern) : Bool :=
  cursor.current.any pattern.accepts

def checkAny (cursor : Cursor) (texts : List String) : Bool :=
  texts.any fun text => cursor.check (.text text)

def next (cursor : Cursor) : Cursor :=
  { cursor with rest := cursor.rest.tail }

def advance (cursor : Cursor) : Option Token × Cursor :=
  (cursor.current, cursor.next)

/-- Consumes the current token if the pattern accepts it. -/
def eat (cursor : Cursor) (pattern : Pattern) : Option Token × Cursor :=
  if cursor.check pattern then cursor.advance else (none, cursor)

def errorOffset (cursor : Cursor) : Nat :=
  match cursor.current with
  | some token => token.offset
  | none => cursor.stop

def error (cursor : Cursor) (fault : ParseFault) : ParseError :=
  ⟨fault, cursor.errorOffset⟩

/-- Consumes the current token, which the pattern must accept. -/
def expect (cursor : Cursor) (pattern : Pattern) : Except ParseError (Token × Cursor) :=
  match cursor.eat pattern with
  | (some token, rest) => .ok (token, rest)
  | (none, _) => .error (cursor.error (.expected pattern (cursor.current.map Token.literal)))

end Cursor

end ProcLang
