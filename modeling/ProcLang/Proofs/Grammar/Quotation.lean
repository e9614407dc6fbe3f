import ProcLang.Pipeline
import ProcLang.Proofs.Grammar.RoundTrip
import ProcLang.Proofs.Token.Layout

/-! # Quotation

Every string and every character can be written between quotes. The lexer ends the literal where it
was ended, and the parser reads what was written.
-/

namespace ProcLang

set_option autoImplicit false

open scoped Computability

open Lexer

namespace Literal

theorem escape_mem_piece {quote : Char} (hQuote : quote = '\'' ∨ quote = '"') (c : Char) :
    escape c ∈ piece quote := by
  unfold escape
  split
  case h_8 hLineFeed _ hReturn _ hSingle hDouble hBackslash =>
    refine mem_piece.mpr (.inl ⟨c, rfl, ?_⟩)
    rcases hQuote with rfl | rfl <;> simp_all [isPlain, isLineBreak]
  all_goals exact mem_piece.mpr (.inr ⟨_, rfl, rfl⟩)

theorem flatMap_escape_mem (text : List Char) : text.flatMap escape ∈ (piece '"')∗ := by
  induction text with
  | nil => exact Language.nil_mem_kstar _
  | cons c text ih => exact append_mem_kstar (escape_mem_piece (.inr rfl) c) ih

/-- Literals that are written between quotes. -/
def isQuoted : Literal → Bool
  | character _ | string _ => true
  | nil | boolean _ | integer _ | decimal _ => false

variable {value : Literal} (h : value.isQuoted = true)

include h

theorem kind_of_isQuoted : value.spell.kind = .character ∨ value.spell.kind = .string := by
  cases value with
  | character c => exact .inl rfl
  | string s => exact .inr rfl
  | nil | boolean | integer | decimal => cases h

theorem isWritable_of_isQuoted : value.isWritable = true := by
  cases value with
  | character c => rfl
  | string s => rfl
  | nil | boolean | integer | decimal => cases h

theorem spell_mem_rule : value.spell.text.toList ∈ value.spell.kind.rule := by
  cases value with
  | character c =>
    refine mem_quoted.mpr ⟨escape c, ?_, escape_mem_piece (.inl rfl) c⟩
    simp [spell, enquote]
  | string s =>
    refine mem_quoted.mpr ⟨s.toList.flatMap escape, ?_, flatMap_escape_mem s.toList⟩
    simp [spell, enquote]
  | nil | boolean | integer | decimal => cases h

end Literal

namespace Lexer

variable {kind : TokenKind} {text rest : List Char}

theorem exists_quote_of_rule (hKind : kind = .character ∨ kind = .string) (h : text ∈ kind.rule) :
    ∃ c more, text = c :: more ∧ (c = '\'' ∨ c = '"') := by
  rcases hKind with rfl | rfl
  · obtain ⟨body, rfl, -⟩ := mem_quoted.mp h
    exact ⟨'\'', _, rfl, .inl rfl⟩
  · obtain ⟨body, rfl, -⟩ := mem_quoted.mp h
    exact ⟨'"', _, rfl, .inr rfl⟩

/-- A quoted text is one token, whatever stands behind it. -/
theorem scan_quoted (hKind : kind = .character ∨ kind = .string) (h : text ∈ kind.rule)
    (offset : Nat) : scan offset (text ++ rest) = (scan (offset + text.length) rest).map
      (⟨kind, String.ofList text, offset⟩ :: ·) := by
  obtain ⟨c, text, rfl, hQuote⟩ := exists_quote_of_rule hKind h
  have hBlank := not_isBlank_of_rule h
  have hAlone : lexeme? c (text ++ []) = some (kind, text.length) :=
    (munch_of_rule h).lexeme?_eq hBlank
  rw [List.append_nil] at hAlone
  have hMunch := munch_of_lexeme? hBlank (lexeme?_append_of_quote hQuote hAlone rest)
  rw [List.take_left, List.drop_left] at hMunch
  exact scan_munch hMunch hBlank offset

end Lexer

/-- The text that defines a constant, given how its value is written. -/
def constantText (written : String) : String :=
  "VAL x = " ++ written ++ ";"

def constantTokens (kind : TokenKind) (written : String) : List Token :=
  [⟨.identifier, "VAL", 0⟩, ⟨.identifier, "x", 4⟩, ⟨.operator, "=", 6⟩, ⟨kind, written, 8⟩,
    ⟨.operator, ";", 8 + written.length⟩]

def constantSource (value : Literal) : Source where
  globals := [⟨"x", none, false, some (.literal value none), none⟩]
  functions := []

theorem lex_constant {kind : TokenKind} {written : String}
    (hKind : kind = .character ∨ kind = .string) (h : written.toList ∈ kind.rule) :
    lex (constantText written) = .ok (constantTokens kind written) := by
  have hText : (constantText written).toList =
      "VAL x =".toList ++ ' ' :: (written.toList ++ [';']) := by
    simp [constantText]
  have hFront : scan 0 "VAL x =".toList =
      .ok [⟨.identifier, "VAL", 0⟩, ⟨.identifier, "x", 4⟩, ⟨.operator, "=", 6⟩] := by
    cbv
  have hSemicolon : [';'] ∈ TokenKind.operator.rule := mem_rule_operator.mpr (.inr ⟨';', rfl, rfl⟩)
  rw [lex_eq_scan, hText, scan_append rfl hFront, scan_quoted hKind h, scan_of_rule hSemicolon,
    String.ofList_toList, String.length_toList]
  rfl

section ReadBack

variable {value : Literal} (h : value.isQuoted = true)

include h

theorem isWritable_constantSource : (constantSource value).isWritable = true := by
  have hName : isName "x" = true := by decide
  simp [constantSource, Source.isWritable, Global.isWritable, Global.isWritableValue,
    Expr.isWritable, Expr.every, Expr.isWritableNode, hName, Literal.isWritable_of_isQuoted h]

theorem parse_constant :
    parse (constantTokens value.spell.kind value.spell.text) = .ok (constantSource value) := by
  refine parse_of_reads (Grammar.reads_source (isWritable_constantSource h)) ?_
  have hSpell : (constantSource value).spell =
      [.fixed "VAL", .name "x", .fixed "=", value.spell, .fixed ";"] := rfl
  have hFixed : Lexeme.fixed "VAL" = ⟨.identifier, "VAL"⟩ ∧ Lexeme.fixed "=" = ⟨.operator, "="⟩ ∧
      Lexeme.fixed ";" = ⟨.operator, ";"⟩ := by decide
  rw [hSpell, hFixed.1, hFixed.2.1, hFixed.2.2]
  rfl

theorem constant_read_back :
    lex (constantText value.spell.text) =
        .ok (constantTokens value.spell.kind value.spell.text) ∧
      Pipeline.parse (constantText value.spell.text) = .ok (constantSource value) := by
  have hLex := lex_constant (Literal.kind_of_isQuoted h) (Literal.spell_mem_rule h)
  refine ⟨hLex, ?_⟩
  rw [Pipeline.parse_of_lex hLex, parse_constant h]
  rfl

end ReadBack

/-- Every string and every character is one token between quotes and is read back, if line feeds,
tabs, carriage returns, backspaces, quotes of both kinds and backslashes are escaped. -/
theorem quoted_read_back (s : String) (c : Char) :
    (lex (constantText (Literal.enquote '"' s.toList)) =
        .ok (constantTokens .string (Literal.enquote '"' s.toList)) ∧
      Pipeline.parse (constantText (Literal.enquote '"' s.toList)) =
        .ok (constantSource (.string s))) ∧
    lex (constantText (Literal.enquote '\'' [c])) =
        .ok (constantTokens .character (Literal.enquote '\'' [c])) ∧
      Pipeline.parse (constantText (Literal.enquote '\'' [c])) =
        .ok (constantSource (.character c)) :=
  ⟨@constant_read_back (.string s) rfl, @constant_read_back (.character c) rfl⟩

example : Literal.enquote '"' ['a', '\n', '"', '\x08', '\\'] = "\"a\\n\\\"\\b\\\\\"" := by
  decide

end ProcLang
