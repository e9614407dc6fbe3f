import Mathlib.Computability.Language
import ProcLang.Proofs.Grammar.Lexeme

/-! # Token rules

Each kind of token has a rule, a regular language of the texts that such tokens can have. No text
obeys the rules of two kinds, and the first character of a text leaves at most two rules to try.
-/

namespace ProcLang

set_option autoImplicit false

open scoped Computability

namespace Lexer

/-- The texts of one character of a class. -/
def one (p : Char → Bool) : Language Char :=
  {text | ∃ c, text = [c] ∧ p c = true}

def digits : Language Char :=
  one isDigit * (one isDigit)∗

/-- What can stand between quotes: characters that stand for themselves, and escapes. -/
def piece (quote : Char) : Language Char :=
  one (isPlain quote) + {['\\']} * one fun c => !isLineBreak c

/-- Characters that are tokens by themselves. -/
def isSymbol (c : Char) : Bool :=
  !(isBlank c || isLetter c || isDigit c || c == '@' || c == '\'' || c == '"')

end Lexer

open Lexer in
/-- The texts of tokens of a kind. -/
def TokenKind.rule : TokenKind → Language Char
  | identifier => one beginsIdentifier * (one continuesIdentifier)∗
  | integer => digits
  | decimal => digits * ({['.']} * digits)
  | character => {['\'']} * (piece '\'' * {['\'']})
  | string => {['"']} * ((piece '"')∗ * {['"']})
  | operator => {['=', '='], ['!', '='], ['&', '&'], ['|', '|']} + one isSymbol

namespace Lexer

variable {p : Char → Bool} {l : Language Char} {text : List Char} {quote c : Char}

theorem mem_one : text ∈ one p ↔ ∃ c, text = [c] ∧ p c = true :=
  Iff.rfl

theorem mem_one_kstar : text ∈ (one p)∗ ↔ ∀ c ∈ text, p c = true := by
  constructor
  · rintro ⟨pieces, rfl, hPieces⟩ c hc
    obtain ⟨piece, hPiece, hc⟩ := List.mem_flatten.mp hc
    obtain ⟨c', rfl, hp⟩ := hPieces piece hPiece
    obtain rfl := List.mem_singleton.mp hc
    exact hp
  · intro hText
    have hJoin : text = (text.map fun c => [c]).flatten := by
      rw [← List.flatMap_def, List.flatMap_singleton']
    refine ⟨text.map fun c => [c], hJoin, fun piece hPiece => ?_⟩
    obtain ⟨c, hc, rfl⟩ := List.mem_map.mp hPiece
    exact ⟨c, rfl, hText c hc⟩

theorem mem_one_mul : text ∈ one p * l ↔ ∃ c rest, text = c :: rest ∧ p c = true ∧ rest ∈ l := by
  rw [Language.mem_mul]
  constructor
  · rintro ⟨_, ⟨c, rfl, hp⟩, rest, hRest, rfl⟩
    exact ⟨c, rest, rfl, hp, hRest⟩
  · rintro ⟨c, rest, rfl, hp, hRest⟩
    exact ⟨[c], ⟨c, rfl, hp⟩, rest, hRest, rfl⟩

theorem mem_singleton_mul : text ∈ {[c]} * l ↔ ∃ rest, text = c :: rest ∧ rest ∈ l := by
  rw [Language.mem_mul]
  constructor
  · rintro ⟨_, rfl, rest, hRest, rfl⟩
    exact ⟨rest, rfl, hRest⟩
  · rintro ⟨rest, rfl, hRest⟩
    exact ⟨[c], rfl, rest, hRest, rfl⟩

theorem mem_mul_singleton : text ∈ l * {[c]} ↔ ∃ body, text = body ++ [c] ∧ body ∈ l := by
  rw [Language.mem_mul]
  constructor
  · rintro ⟨body, hBody, _, rfl, rfl⟩
    exact ⟨body, rfl, hBody⟩
  · rintro ⟨body, rfl, hBody⟩
    exact ⟨body, hBody, [c], rfl, rfl⟩

theorem mem_digits : text ∈ digits ↔ text ≠ [] ∧ ∀ c ∈ text, isDigit c = true := by
  rw [digits, mem_one_mul]
  constructor
  · rintro ⟨c, rest, rfl, hFirst, hRest⟩
    exact ⟨by simp, isDigit_of_mem_cons hFirst (mem_one_kstar.mp hRest)⟩
  · rintro ⟨hText, hDigits⟩
    cases text with
    | nil => exact absurd rfl hText
    | cons c rest =>
      refine ⟨c, rest, rfl, hDigits c List.mem_cons_self, mem_one_kstar.mpr fun d hd => ?_⟩
      exact hDigits d (List.mem_cons_of_mem c hd)

theorem mem_piece : text ∈ piece quote ↔ (∃ c, text = [c] ∧ isPlain quote c = true) ∨
    ∃ c, text = ['\\', c] ∧ isLineBreak c = false := by
  rw [piece, Language.mem_add, mem_one, mem_singleton_mul]
  apply or_congr Iff.rfl
  constructor
  · rintro ⟨_, rfl, c, rfl, hc⟩
    exact ⟨c, rfl, by simpa using hc⟩
  · rintro ⟨c, rfl, hc⟩
    exact ⟨[c], rfl, c, rfl, by simpa using hc⟩

theorem mem_rule_identifier : text ∈ TokenKind.identifier.rule ↔ ∃ c rest, text = c :: rest ∧
    beginsIdentifier c = true ∧ ∀ d ∈ rest, continuesIdentifier d = true := by
  rw [TokenKind.rule, mem_one_mul]
  simp only [mem_one_kstar]

theorem mem_rule_decimal : text ∈ TokenKind.decimal.rule ↔
    ∃ whole fraction, text = whole ++ '.' :: fraction ∧ whole ∈ digits ∧ fraction ∈ digits := by
  rw [TokenKind.rule, Language.mem_mul]
  constructor
  · rintro ⟨whole, hWhole, _, hPoint, rfl⟩
    obtain ⟨fraction, rfl, hFraction⟩ := mem_singleton_mul.mp hPoint
    exact ⟨whole, fraction, rfl, hWhole, hFraction⟩
  · rintro ⟨whole, fraction, rfl, hWhole, hFraction⟩
    exact ⟨whole, hWhole, _, mem_singleton_mul.mpr ⟨fraction, rfl, hFraction⟩, rfl⟩

theorem mem_quoted : text ∈ {[quote]} * (l * {[quote]}) ↔
    ∃ body, text = quote :: (body ++ [quote]) ∧ body ∈ l := by
  rw [mem_singleton_mul]
  constructor
  · rintro ⟨_, rfl, hRest⟩
    obtain ⟨body, rfl, hBody⟩ := mem_mul_singleton.mp hRest
    exact ⟨body, rfl, hBody⟩
  · rintro ⟨body, rfl, hBody⟩
    exact ⟨_, rfl, mem_mul_singleton.mpr ⟨body, rfl, hBody⟩⟩

theorem isPair_iff {first second : Char} : isPair first second = true ↔
    [first, second] ∈ ({['=', '='], ['!', '='], ['&', '&'], ['|', '|']} : Language Char) := by
  constructor
  · intro h
    simp only [isPair, Bool.or_eq_true, Bool.and_eq_true, beq_iff_eq] at h
    rcases h with ⟨rfl, rfl | rfl⟩ | ⟨rfl, rfl | rfl⟩
    · exact .inl rfl
    · exact .inr (.inl rfl)
    · exact .inr (.inr (.inl rfl))
    · exact .inr (.inr (.inr rfl))
  · rintro (h | h | h | h) <;> cases h <;> rfl

theorem mem_rule_operator : text ∈ TokenKind.operator.rule ↔
    (∃ first second, text = [first, second] ∧ isPair first second = true) ∨
      ∃ c, text = [c] ∧ isSymbol c = true := by
  rw [TokenKind.rule, Language.mem_add]
  apply or_congr _ Iff.rfl
  constructor
  · intro h
    obtain ⟨first, second, rfl⟩ : ∃ first second, text = [first, second] := by
      rcases h with rfl | rfl | rfl | rfl <;> exact ⟨_, _, rfl⟩
    exact ⟨first, second, rfl, isPair_iff.mpr h⟩
  · rintro ⟨first, second, rfl, hPair⟩
    exact isPair_iff.mp hPair

theorem eq_of_isBlank (h : isBlank c = true) :
    c = ' ' ∨ c = '\t' ∨ c = '\r' ∨ c = '\n' ∨ c = '\x08' := by
  simpa [isBlank, or_assoc] using h

theorem isSymbol_of_isPair {first second : Char} (h : isPair first second = true) :
    isSymbol first = true := by
  rcases isPair_iff.mp h with h | h | h | h <;> cases h <;> decide

theorem kinds_of_beginsIdentifier (h : beginsIdentifier c = true) :
    Lexeme.kinds c = [.identifier] := by
  rw [Lexeme.kinds, if_pos h]

theorem kinds_of_isDigit (h : isDigit c = true) : Lexeme.kinds c = [.integer, .decimal] := by
  rw [Lexeme.kinds, not_beginsIdentifier_of_isDigit h, if_neg (by decide), if_pos h]

theorem kinds_of_isSymbol (h : isSymbol c = true) : Lexeme.kinds c = [.operator] := by
  simp only [isSymbol, Bool.not_eq_true', Bool.or_eq_false_iff, beq_eq_false_iff_ne] at h
  obtain ⟨⟨⟨⟨⟨-, hLetter⟩, hDigit⟩, hAt⟩, hQuote⟩, hQuotes⟩ := h
  simp [Lexeme.kinds, beginsIdentifier, hLetter, hDigit, hAt, hQuote, hQuotes]

/-- A text that obeys the rule of a kind begins with a character that announces the kind. -/
theorem kind_mem_of_rule {kind : TokenKind} (h : text ∈ kind.rule) :
    ∃ c rest, text = c :: rest ∧ kind ∈ Lexeme.kinds c := by
  cases kind with
  | identifier =>
    obtain ⟨c, rest, rfl, hFirst, -⟩ := mem_rule_identifier.mp h
    exact ⟨c, rest, rfl, by simp [kinds_of_beginsIdentifier hFirst]⟩
  | integer =>
    obtain ⟨c, rest, rfl, hFirst, -⟩ := mem_one_mul.mp h
    exact ⟨c, rest, rfl, by simp [kinds_of_isDigit hFirst]⟩
  | decimal =>
    obtain ⟨whole, fraction, rfl, hWhole, -⟩ := mem_rule_decimal.mp h
    obtain ⟨c, rest, rfl, hFirst, -⟩ := mem_one_mul.mp hWhole
    exact ⟨c, _, rfl, by simp [kinds_of_isDigit hFirst]⟩
  | character =>
    obtain ⟨body, rfl, -⟩ := mem_quoted.mp h
    exact ⟨'\'', _, rfl, by decide⟩
  | string =>
    obtain ⟨body, rfl, -⟩ := mem_quoted.mp h
    exact ⟨'"', _, rfl, by decide⟩
  | operator =>
    obtain ⟨first, second, rfl, hPair⟩ | ⟨c, rfl, hSymbol⟩ := mem_rule_operator.mp h
    · exact ⟨first, [second], rfl, by simp [kinds_of_isSymbol (isSymbol_of_isPair hPair)]⟩
    · exact ⟨c, [], rfl, by simp [kinds_of_isSymbol hSymbol]⟩

theorem not_mem_decimal_of_digits (h : text ∈ digits) : text ∉ TokenKind.decimal.rule := by
  intro hDecimal
  obtain ⟨whole, fraction, rfl, -⟩ := mem_rule_decimal.mp hDecimal
  have hPoint := (mem_digits.mp h).2 '.' (by simp)
  exact absurd hPoint (by decide)

/-- Only numbers have the same first characters and different kinds. -/
theorem eq_or_number_of_mem_kinds {kind kind' : TokenKind} (h : kind ∈ Lexeme.kinds c)
    (h' : kind' ∈ Lexeme.kinds c) : kind = kind' ∨ kind = .integer ∧ kind' = .decimal ∨
      kind = .decimal ∧ kind' = .integer := by
  unfold Lexeme.kinds at h h'
  grind

/-- No text obeys two rules. -/
theorem kind_eq_of_rule {kind kind' : TokenKind} (h : text ∈ kind.rule) (h' : text ∈ kind'.rule) :
    kind = kind' := by
  obtain ⟨c, rest, rfl, hKind⟩ := kind_mem_of_rule h
  obtain ⟨_, _, hText, hKind'⟩ := kind_mem_of_rule h'
  obtain ⟨rfl, rfl⟩ := List.cons.inj hText
  obtain hSame | ⟨rfl, rfl⟩ | ⟨rfl, rfl⟩ := eq_or_number_of_mem_kinds hKind hKind'
  · exact hSame
  · exact absurd h' (not_mem_decimal_of_digits h)
  · exact absurd h (not_mem_decimal_of_digits h')

end Lexer

end ProcLang
