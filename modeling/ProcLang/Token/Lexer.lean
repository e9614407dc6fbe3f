import ProcLang.Text.Bytes
import ProcLang.Token

/-! # Tokens of a text

At each position that is not blank the longest text that some token rule matches becomes a token.
The first character decides which rule can match: a letter or `@` begins an identifier, a digit a
number, a quote a character or string, and anything else is an operator. So only a text that begins
with a quote can match no rule. Where a piece of the text begins is found as a number of bytes, and
a counter that goes along with the pieces tells how many characters these are.
-/

namespace ProcLang

set_option autoImplicit false

/-- Text that no token rule matches, and the number of characters before it. -/
structure LexError where
  found : String
  offset : Nat
deriving DecidableEq, Repr

def LexError.message (error : LexError) : String :=
  s!"unexpected input {Text.quoted error.found} at offset {error.offset}"

namespace Lexer

/-- Blanks separate tokens: space, tab, carriage return, line feed and backspace. -/
def isBlank (c : Char) : Bool :=
  c == ' ' || c == '\t' || c == '\r' || c == '\n' || c == '\x08'

def isDigit (c : Char) : Bool :=
  '0' ≤ c && c ≤ '9'

def isLetter (c : Char) : Bool :=
  ('a' ≤ c && c ≤ 'z') || ('A' ≤ c && c ≤ 'Z')

def beginsIdentifier (c : Char) : Bool :=
  isLetter c || c == '@'

def continuesIdentifier (c : Char) : Bool :=
  isLetter c || isDigit c || c == '_' || c == '-'

def isLineBreak (c : Char) : Bool :=
  c == '\n' || c == '\r'

/-- Characters that stand for themselves in a literal closed by `quote`. -/
def isPlain (quote c : Char) : Bool :=
  !(c == quote || c == '\\' || isLineBreak c)

/-- The operators of two characters. -/
def isPair (first second : Char) : Bool :=
  (second == '=' && (first == '=' || first == '!')) ||
    (first == second && (first == '&' || first == '|'))

/-- A number after its first digit: its kind and how many characters follow. -/
def number (rest : List Char) : TokenKind × Nat :=
  let whole := (rest.takeWhile isDigit).length
  match rest.drop whole with
  | '.' :: digit :: more =>
    if isDigit digit then (.decimal, whole + 2 + (more.takeWhile isDigit).length)
    else (.integer, whole)
  | _ => (.integer, whole)

/-- How many characters of a character literal follow its opening quote. -/
def character? : List Char → Option Nat
  | '\\' :: escaped :: '\'' :: _ => if isLineBreak escaped then none else some 3
  | c :: '\'' :: _ => if isPlain '\'' c then some 2 else none
  | _ => none

/-- How many characters a string's plain characters and escapes take, up to the first that is
neither. -/
def bodyLength : List Char → Nat
  | '\\' :: escaped :: rest => if isLineBreak escaped then 0 else bodyLength rest + 2
  | c :: rest => if isPlain '"' c then bodyLength rest + 1 else 0
  | [] => 0

/-- How many characters of a string literal follow its opening quote. -/
def string? (rest : List Char) : Option Nat :=
  if rest[bodyLength rest]? = some '"' then some (bodyLength rest + 1) else none

/-- The token that begins with `c`: its kind and how many characters of `rest` belong to it. -/
def lexeme? (c : Char) (rest : List Char) : Option (TokenKind × Nat) :=
  if beginsIdentifier c then
    some (.identifier, (rest.takeWhile continuesIdentifier).length)
  else if isDigit c then
    some (number rest)
  else if c = '\'' then
    (character? rest).map (.character, ·)
  else if c = '"' then
    (string? rest).map (.string, ·)
  else
    some (.operator, if rest.head?.any (isPair c) then 1 else 0)

/-- What is reported where no token begins: an opening quote, for a string with all that could
belong to it. -/
def unmatched (c : Char) (rest : List Char) : List Char :=
  if c = '"' then c :: rest.take (bodyLength rest) else [c]

/-- What stands between blanks: a token, or what no token rule matches and therefore has no kind. It
is found behind `start` bytes. -/
structure Piece where
  kind? : Option TokenKind
  slice : List Char
  start : Nat

/-- The number of bytes before the end of a piece. -/
def Piece.stop (piece : Piece) : Nat :=
  piece.start + Text.byteSize piece.slice

/-- The pieces of a text that has `byte` bytes before it, up to the first that has no kind. -/
def pieces (byte : Nat) : List Char → List Piece
  | [] => []
  | c :: rest =>
    if isBlank c then pieces (byte + c.utf8Size) rest
    else
      match lexeme? c rest with
      | none => [⟨none, unmatched c rest, byte⟩]
      | some (kind, n) =>
        let slice := c :: rest.take n
        ⟨some kind, slice, byte⟩ :: pieces (byte + Text.byteSize slice) (rest.drop n)
termination_by text => text.length

end Lexer

/-- Counts the characters before byte positions of a text, one position after the other. There are
`chars` characters before the last one, `byte`. -/
structure CharOffsets where
  source : List Char
  byte : Nat := 0
  chars : Nat := 0

/-- The number of characters before the next position. The counter stays if that is no place between
characters, or one that it has passed. -/
def CharOffsets.seek (offsets : CharOffsets) (byte : Nat) : Nat × CharOffsets :=
  match Text.slice? offsets.source offsets.byte byte with
  | some skipped =>
    let chars := offsets.chars + skipped.length
    (chars, { offsets with byte, chars })
  | none => (offsets.chars, offsets)

namespace Lexer

/-- Makes tokens of pieces, and an error of one that has no kind. -/
def tokens (offsets : CharOffsets) : List Piece → Except LexError (List Token)
  | [] => .ok []
  | piece :: rest =>
    let (offset, offsets) := offsets.seek piece.start
    match piece.kind? with
    | none => .error ⟨String.ofList piece.slice, offset⟩
    | some kind => do
      let tokens ← tokens offsets rest
      return ⟨kind, String.ofList piece.slice, offset⟩ :: tokens

end Lexer

def lex (text : String) : Except LexError (List Token) :=
  Lexer.tokens { source := text.toList } (Lexer.pieces 0 text.toList)

end ProcLang
