import ProcLang.Proofs.Grammar.Decoding
import ProcLang.Proofs.Traversal

/-! # Writable trees

The trees that their spelling can be read back to: names are identifiers, slots are empty, operators
bind as the levels say, and each construct has the parts that its production has.
-/

namespace ProcLang

set_option autoImplicit false

def keywords : List String :=
  ["LIST", "VAR", "VAL", "FUN", "DO", "END", "LET", "SWITCH", "CASE", "DEFAULT", "IF", "ELSE",
    "WHILE", "RETURN", "NIL", "TRUE", "FALSE"]

/-- Whether a text is an identifier and not a keyword. -/
def isName (text : String) : Bool :=
  text.toList.head?.any Lexer.beginsIdentifier &&
    text.toList.tail.all Lexer.continuesIdentifier && text ∉ keywords

theorem ne_of_isName {text other : String} (h : isName text = true) (hOther : isName other = false) :
    text ≠ other := by
  rintro rfl
  rw [h] at hOther
  cases hOther

/-- The levels that bind tighter. -/
def Level.tighter : Level → List Level
  | logical => [comparison, additive, multiplicative]
  | comparison => [additive, multiplicative]
  | additive => [multiplicative]
  | multiplicative => []

namespace Expr

/-- Whether an expression can be an operand among expressions of the given levels. -/
def fits (levels : List Level) : Expr → Bool
  | binary operator _ _ _ => operator.level ∈ levels
  | _ => true

/-- What a writable expression has at its root. -/
def isWritableNode : Expr → Bool
  | literal value ty => value.isWritable && ty.isNone
  | group _ ty => ty.isNone
  | binary operator left right ty =>
    left.fits (operator.level :: operator.level.tighter) && right.fits operator.level.tighter &&
      ty.isNone
  | access name symbol ty => isName name && symbol.isNone && ty.isNone
  | element name _ symbol ty => isName name && symbol.isNone && ty.isNone
  | call name _ signature ty => isName name && signature.isNone && ty.isNone
  | list _ _ => false

def isWritable (e : Expr) : Bool :=
  e.every isWritableNode

end Expr

namespace Stmt

/-- What a writable statement has besides its blocks; a `SWITCH` has its default case last. -/
def isWritableNode : Stmt → Bool
  | declaration name typeName value symbol =>
    isName name && typeName.all isName && value.all Expr.isWritable && symbol.isNone
  | switch subject cases =>
    subject.isWritable && (cases.filterMap Case.value).all Expr.isWritable &&
      cases.dropLast.all (!·.isDefault) && cases.getLast?.any Case.isDefault
  | expression e => e.isWritable
  | assignment receiver value => receiver.isWritable && value.isWritable
  | conditional condition _ _ => condition.isWritable
  | loop condition _ => condition.isWritable
  | returns value => value.isWritable

def isWritable (s : Stmt) : Bool :=
  s.every isWritableNode

def blockIsWritable (statements : List Stmt) : Bool :=
  everyIn isWritableNode statements

end Stmt

namespace Global

/-- Lists stand in mutable globals with a type only, and immutable globals have a value. -/
def isWritableValue (global : Global) : Bool :=
  match global.value with
  | some (.list items ty) =>
    global.isMutable && global.typeName.isSome && !items.isEmpty && items.all Expr.isWritable &&
      ty.isNone
  | some value => value.isWritable
  | none => global.isMutable

def isWritable (global : Global) : Bool :=
  isName global.name && global.typeName.all isName && global.isWritableValue && global.symbol.isNone

end Global

def Function.isWritable (function : Function) : Bool :=
  isName function.name && function.parameters.all isName && function.parameterTypes.all isName &&
    function.parameters.length = function.parameterTypes.length && function.returnType.all isName &&
    Stmt.blockIsWritable function.body && function.signature.isNone

def Source.isWritable (source : Source) : Bool :=
  source.globals.all Global.isWritable && source.functions.all Function.isWritable

/-- Texts by which an expression cannot begin, as far as productions decide by them. -/
def Expr.strange : List String :=
  [")", "LET", "SWITCH", "IF", "WHILE", "RETURN", "END", "ELSE", "CASE", "DEFAULT"]

namespace Literal

theorem kinds_of_isDigit {c : Char} (h : Lexer.isDigit c = true) :
    Lexeme.kinds c = [.integer, .decimal] := by
  simp [Lexeme.kinds, Lexer.not_beginsIdentifier_of_isDigit h, h]

/-- The text of a literal with a kind of its own begins as neither words nor punctuation do. -/
theorem exists_first_of_spell {value : Literal} (h : value.isWritable = true)
    (hKind : value.spell.kind ≠ .identifier) :
    ∃ c rest, value.spell.text.toList = c :: rest ∧ .identifier ∉ Lexeme.kinds c ∧
      .operator ∉ Lexeme.kinds c := by
  cases value with
  | nil => exact absurd rfl hKind
  | boolean b => cases b <;> exact absurd rfl hKind
  | integer n =>
    obtain ⟨n, rfl⟩ := Int.eq_ofNat_of_zero_le (of_decide_eq_true h)
    obtain ⟨c, rest, hDigits⟩ := List.exists_cons_of_ne_nil (Nat.toDigits_ne_nil (n := n) (b := 10))
    have hDigit : Lexer.isDigit c = true :=
      Numeral.isDigit_of_mem_toDigits (n := n) (hDigits ▸ List.mem_cons_self)
    have hText : (toString n).toList = c :: rest := by
      rw [Nat.toString_eq_ofList_toDigits, String.toList_ofList, hDigits]
    exact ⟨c, rest, hText, by simp [kinds_of_isDigit hDigit]⟩
  | decimal d =>
    simp only [isWritable, Bool.and_eq_true, decide_eq_true_eq] at h
    obtain ⟨whole, fraction, hText, hWhole, hDigits, -⟩ := Numeral.exists_of_withPoint
      (fun c => Numeral.isDigit_of_mem_toDigits) (Nat.toDigits_ne_nil (n := d.unscaled.natAbs)) h.1.2
    obtain ⟨c, rest, rfl⟩ := List.exists_cons_of_ne_nil hWhole
    have hDigit : Lexer.isDigit c = true := hDigits c List.mem_cons_self
    refine ⟨c, rest ++ '.' :: fraction, ?_, by simp [kinds_of_isDigit hDigit]⟩
    simp [spell, hText]
  | character c => exact ⟨'\'', _, String.toList_ofList, by decide⟩
  | string s => exact ⟨'"', _, String.toList_ofList, by decide⟩

theorem text_ne_of_isFixed {value : Literal} {text : String} (h : value.isWritable = true)
    (hKind : value.spell.kind ≠ .identifier) (hFixed : Lexeme.isFixed text = true) :
    value.spell.text ≠ text := by
  obtain ⟨c, rest, hText, hIdentifier, hOperator⟩ := exists_first_of_spell h hKind
  rintro rfl
  simp only [Lexeme.isFixed, hText, List.head?_cons, Option.any_some, decide_eq_true_eq] at hFixed
  unfold Lexeme.fixed at hFixed
  split at hFixed
  · exact hIdentifier (hFixed ▸ List.mem_singleton_self _)
  · exact hOperator (hFixed ▸ List.mem_singleton_self _)

/-- Words and punctuation marks are not spelled by literals other than the three words. -/
theorem spell_eq_fixed_or (value : Literal) :
    (∃ text ∈ ["NIL", "TRUE", "FALSE"], value.spell = .fixed text) ∨
      value.spell.kind ≠ .identifier := by
  cases value with
  | nil => exact .inl ⟨"NIL", by decide⟩
  | boolean b =>
    cases b with
    | true => exact .inl ⟨"TRUE", by decide⟩
    | false => exact .inl ⟨"FALSE", by decide⟩
  | integer | decimal | character | string => exact .inr (by simp [spell])

end Literal

theorem isFixed_strange : ∀ text ∈ Expr.strange, Lexeme.isFixed text = true := by
  decide

theorem isName_strange : ∀ text ∈ Expr.strange, isName text = false := by
  decide

namespace Expr

theorem exists_head_of_isName {name : String} (h : isName name = true) (others : List Lexeme) :
    ∃ l, (Lexeme.name name :: others).head? = some l ∧ l.text ∉ strange :=
  ⟨.name name, rfl, fun hStrange => ne_of_isName h (isName_strange name hStrange) rfl⟩

theorem isWritable_binary {operator : Operator} {left right : Expr} {ty : Option Ty}
    (h : (binary operator left right ty).isWritable = true) :
    (left.isWritable = true ∧ left.fits (operator.level :: operator.level.tighter) = true) ∧
      (right.isWritable = true ∧ right.fits operator.level.tighter = true) ∧ ty = none := by
  simp only [isWritable, every, isWritableNode, Bool.and_eq_true, Option.isNone_iff_eq_none] at h
  obtain ⟨⟨⟨⟨hLeft, hRight⟩, hTy⟩, hLefts⟩, hRights⟩ := h
  exact ⟨⟨hLefts, hLeft⟩, ⟨hRights, hRight⟩, hTy⟩

/-- No production takes an expression for anything else. -/
theorem exists_head {e : Expr} (h : e.isWritable = true) :
    ∃ l, e.spell.head? = some l ∧ l.text ∉ strange := by
  cases e with
  | literal value ty =>
    simp only [isWritable, every, isWritableNode, Bool.and_eq_true] at h
    refine ⟨value.spell, rfl, fun hStrange => ?_⟩
    rcases value.spell_eq_fixed_or with ⟨text, hText, hSpell⟩ | hKind
    · have hFixed : ∀ text ∈ ["NIL", "TRUE", "FALSE"], text ∉ strange := by decide
      exact hFixed text hText (by rwa [hSpell] at hStrange)
    · exact Literal.text_ne_of_isFixed h.1 hKind (isFixed_strange _ hStrange) rfl
  | group inner ty => exact ⟨.fixed "(", rfl, by decide⟩
  | binary operator left right ty =>
    obtain ⟨⟨hLeft, -⟩, -⟩ := isWritable_binary h
    obtain ⟨l, hHead, hStrange⟩ := exists_head hLeft
    exact ⟨l, by simp [spell, List.head?_append, hHead], hStrange⟩
  | access name symbol ty =>
    simp only [isWritable, every, isWritableNode, Bool.and_eq_true] at h
    exact exists_head_of_isName h.1.1 _
  | element name index symbol ty =>
    simp only [isWritable, every, isWritableNode, Bool.and_eq_true] at h
    exact exists_head_of_isName h.1.1.1 _
  | call name arguments signature ty =>
    simp only [isWritable, every, isWritableNode, Bool.and_eq_true] at h
    exact exists_head_of_isName h.1.1.1 _
  | list items ty => simp [isWritable, every, isWritableNode] at h

end Expr

end ProcLang
