import ProcLang.Decimal.Numeral
import ProcLang.Token
import ProcLang.Value

/-! # Literals

The constants of a program, and how the literal tokens denote them. In characters and strings a
backslash begins an escape: `\n`, `\t`, `\r`, `\b`, `\'`, `\"` and `\\` are all there are.
-/

namespace ProcLang

set_option autoImplicit false

inductive Literal where
  | nil
  | boolean (b : Bool)
  | integer (n : Int)
  | decimal (d : Decimal)
  | character (c : Char)
  | string (s : String)
deriving DecidableEq, Repr

inductive LiteralError where
  | malformed (text : String)
  | invalidInteger (text : String)
  | invalidDecimal (text : String)
  | notOneCharacter (text : String)
  /-- A backslash with what follows it. -/
  | invalidEscape (escaped : Option Char)
deriving DecidableEq, Repr

def LiteralError.message : LiteralError → String
  | malformed text => s!"malformed literal {text}"
  | invalidInteger text => s!"invalid integer literal '{text}'"
  | invalidDecimal text => s!"invalid decimal literal '{text}'"
  | notOneCharacter text => s!"character literal {text} must hold one character"
  | invalidEscape escaped => s!"invalid escape sequence '\\" ++ String.ofList escaped.toList ++ "'"

namespace Literal

def value : Literal → Value
  | nil => .nil
  | boolean b => .boolean b
  | integer n => .integer n
  | decimal d => .decimal d
  | character c => .character c
  | string s => .string s

def unescape? : Char → Option Char
  | 'n' => some '\n'
  | 't' => some '\t'
  | 'r' => some '\r'
  | 'b' => some '\x08'
  | '\'' => some '\''
  | '"' => some '"'
  | '\\' => some '\\'
  | _ => none

/-- The text that the body of a character or string literal denotes. -/
def decodeBody : List Char → Except LiteralError (List Char)
  | [] => .ok []
  | '\\' :: [] => .error (.invalidEscape none)
  | '\\' :: escaped :: rest =>
    match unescape? escaped with
    | none => .error (.invalidEscape escaped)
    | some c => (decodeBody rest).map (c :: ·)
  | c :: rest => (decodeBody rest).map (c :: ·)

/-- What stands between two quotes. -/
def body? (quote : Char) : List Char → Option (List Char)
  | [] => none
  | first :: rest =>
    if first = quote ∧ rest.getLast? = some quote then some rest.dropLast else none

/-- The text that a literal between two quotes denotes. -/
def decode (quote : Char) (text : String) : Except LiteralError (List Char) :=
  match body? quote text.toList with
  | none => .error (.malformed text)
  | some body => decodeBody body

/-- The literal that a text of the given kind denotes; identifiers and operators denote none. -/
def ofText (kind : TokenKind) (text : String) : Except LiteralError Literal :=
  match kind with
  | .integer =>
    match Numeral.integer? text.toList with
    | none => .error (.invalidInteger text)
    | some n => .ok (.integer n)
  | .decimal =>
    match Numeral.decimal? text.toList with
    | none => .error (.invalidDecimal text)
    | some d => .ok (.decimal d)
  | .character =>
    match decode '\'' text with
    | .error error => .error error
    | .ok [c] => .ok (.character c)
    | .ok _ => .error (.notOneCharacter text)
  | .string => (decode '"' text).map fun decoded => .string (String.ofList decoded)
  | .identifier | .operator => .error (.malformed text)

end Literal

end ProcLang
