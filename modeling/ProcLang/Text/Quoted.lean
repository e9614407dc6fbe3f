import ProcLang.Text.Printable

/-! # Quoted text

A text between double quotes, in which a character that would not show as itself is escaped.
-/

namespace ProcLang.Text

set_option autoImplicit false

/-- The named escapes of quoted text. -/
def namedEscape? : Char → Option Char
  | '\x00' => some '0'
  | '\t' => some 't'
  | '\n' => some 'n'
  | '\r' => some 'r'
  | '"' => some '"'
  | '\\' => some '\\'
  | _ => none

/-- One character inside quotes: a named escape, itself, or its code point in hexadecimal. -/
def escape (c : Char) : List Char :=
  match namedEscape? c with
  | some name => ['\\', name]
  | none =>
    if isPrintable c then [c]
    else ['\\', 'u', '\x7b'] ++ Nat.toDigits 16 c.toNat ++ ['\x7d']

def quoted (text : String) : String :=
  String.ofList ('"' :: text.toList.flatMap escape ++ ['"'])

end ProcLang.Text
