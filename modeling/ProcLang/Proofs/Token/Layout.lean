import ProcLang.Pipeline
import ProcLang.Proofs.Grammar.Decisions
import ProcLang.Proofs.Grammar.RoundTrip
import ProcLang.Proofs.Token.Append

/-! # Layout

How tokens are spread over a text does not matter, as long as blanks stand between them: the text
has the same lexemes, and is parsed to the same program or with the same fault.
-/

namespace ProcLang

set_option autoImplicit false

open Lexer

/-- A text that has the literals of tokens in their order, with blanks between neighbours and any
number of blanks around all. -/
inductive Layout : List Token → List Char → Prop
  | nil {gap} (hGap : ∀ c ∈ gap, isBlank c = true) : Layout [] gap
  | last {gap token} (hGap : ∀ c ∈ gap, isBlank c = true) :
    Layout [token] (gap ++ token.literal.toList)
  | cons {gap token b tokens text} (hGap : ∀ c ∈ gap, isBlank c = true) (hBlank : isBlank b = true)
      (hLayout : Layout tokens text) :
    Layout (token :: tokens) (gap ++ (token.literal.toList ++ b :: text))

namespace Lexer

variable {kind : TokenKind} {c : Char} {text : List Char}

theorem not_isBlank_of_rule (h : c :: text ∈ kind.rule) : isBlank c = false := by
  by_contra hFirst
  have hBlank : isBlank c = true := eq_true_of_ne_false hFirst
  obtain ⟨d, rest, hText, hKind⟩ := kind_mem_of_rule h
  obtain ⟨rfl, rfl⟩ := List.cons.inj hText
  have hKinds : Lexeme.kinds c = [.operator] := by
    rcases eq_of_isBlank hBlank with rfl | rfl | rfl | rfl | rfl <;> rfl
  obtain rfl : kind = .operator := by simpa [hKinds] using hKind
  have hSymbol : isSymbol c = true := by
    obtain ⟨first, second, hText, hPair⟩ | ⟨d, hText, hSymbol⟩ := mem_rule_operator.mp h
    · cases hText
      exact isSymbol_of_isPair hPair
    · cases hText
      exact hSymbol
  simp [isSymbol, hBlank] at hSymbol

/-- At the end of a text, nothing is longer than what is left of it. -/
theorem munch_of_rule (h : text ∈ kind.rule) : Munch kind text [] where
  mem_rule := h
  longest other _ _ hPrefix := by simpa using hPrefix.length_le

/-- What obeys the rule of a kind is one token. -/
theorem scan_of_rule (h : text ∈ kind.rule) (offset : Nat) :
    scan offset text = .ok [⟨kind, String.ofList text, offset⟩] := by
  obtain ⟨c, rest, rfl, -⟩ := kind_mem_of_rule h
  rw [← List.append_nil (c :: rest), scan_munch (munch_of_rule h) (not_isBlank_of_rule h), scan]
  simp [Except.map]

theorem Scanned.rule {before rest : List Char} {tokens : List Token}
    (h : Scanned before tokens rest) : ∀ token ∈ tokens, token.literal.toList ∈ token.kind.rule := by
  induction h with
  | start hSkips => simp
  | next hScanned hMunch hSkips ih =>
    intro token hToken
    rcases List.mem_append.mp hToken with hToken | hToken
    · exact ih token hToken
    · rw [List.mem_singleton.mp hToken, String.toList_ofList]
      exact hMunch.mem_rule

end Lexer

theorem Layout.scan_eq {tokens : List Token} {text : List Char} (h : Layout tokens text)
    (hRule : ∀ token ∈ tokens, token.literal.toList ∈ token.kind.rule) (offset : Nat) :
    ∃ others, scan offset text = .ok others ∧
      others.map Token.lexeme = tokens.map Token.lexeme := by
  induction h generalizing offset with
  | @nil gap hGap =>
    refine ⟨[], ?_, rfl⟩
    rw [← List.append_nil gap, scan_blanks hGap, scan]
  | @last gap token hGap =>
    rw [scan_blanks hGap, scan_of_rule (hRule token List.mem_cons_self), String.ofList_toList]
    exact ⟨_, rfl, rfl⟩
  | @cons gap token b tokens text hGap hBlank hLayout ih =>
    obtain ⟨hFirst, hOthers⟩ := List.forall_mem_cons.mp hRule
    obtain ⟨others, hScan, hLexemes⟩ :=
      ih hOthers (offset + gap.length + token.literal.toList.length + 1)
    rw [scan_blanks hGap, scan_append hBlank (scan_of_rule hFirst _), hScan, String.ofList_toList]
    exact ⟨_, rfl, congrArg (token.lexeme :: ·) hLexemes⟩

theorem parse_of_lexemes {tokens : List Token} {u rest : List Lexeme}
    {outcome : Except ParseFault Source} (h : Parser.Reads Grammar.source u outcome rest.head?)
    (hTokens : tokens.map Token.lexeme = u ++ rest) :
    ∃ cursor, parse tokens = (Parser.ending cursor outcome).map (·.1) := by
  obtain ⟨front, back, rfl, rfl, rfl⟩ := List.map_eq_append_iff.mp hTokens
  rw [List.head?_map] at h
  exact ⟨_, parse_append_of_reads h⟩

/-- The parser looks at the lexemes of tokens only, but for where an error stands. -/
theorem exists_parse_outcome (lexemes : List Lexeme) :
    ∃ outcome, ∀ tokens, tokens.map Token.lexeme = lexemes →
      ∃ cursor, parse tokens = (Parser.ending cursor outcome).map (·.1) := by
  have hPredictive := Grammar.predictive_source (lexemes.length + 1)
  cases hPredictive.decided lexemes (Nat.lt_succ_self _) with
  | reads u rest source hSplit hHere =>
    exact ⟨.ok source, fun tokens hTokens => parse_of_lexemes hHere (hTokens.trans hSplit)⟩
  | rejects u rest fault v source hSplit hHere =>
    exact ⟨.error fault, fun tokens hTokens => parse_of_lexemes hHere (hTokens.trans hSplit)⟩

/-- Blanks do no more than separate tokens: any other text with the literals of a text's tokens has
the same kinds and literals in turn, and is parsed to the same program or with the same fault. -/
theorem layout_irrelevant {text other : String} {tokens : List Token} (hLex : lex text = .ok tokens)
    (hLayout : Layout tokens other.toList) :
    (∃ others, lex other = .ok others ∧ others.map Token.lexeme = tokens.map Token.lexeme) ∧
    (∀ source, Pipeline.parse text = .ok source → Pipeline.parse other = .ok source) ∧
    ∀ error, Pipeline.parse text = .error (.parse error) →
      ∃ found, Pipeline.parse other = .error (.parse found) ∧ found.fault = error.fault := by
  obtain ⟨others, hOthers, hLexemes⟩ := hLayout.scan_eq (lex_eq_ok_iff.mp hLex).rule 0
  rw [← lex_eq_scan] at hOthers
  obtain ⟨outcome, hOutcome⟩ := exists_parse_outcome (tokens.map Token.lexeme)
  obtain ⟨cursor, hFirst⟩ := hOutcome tokens rfl
  obtain ⟨cursor', hSecond⟩ := hOutcome others hLexemes
  refine ⟨⟨others, hOthers, hLexemes⟩, ?_⟩
  rw [Pipeline.parse_of_lex hLex, Pipeline.parse_of_lex hOthers, hFirst, hSecond]
  cases outcome with
  | ok source => exact ⟨fun _ h => h, nofun⟩
  | error fault =>
    refine ⟨nofun, ?_⟩
    rintro _ ⟨⟩
    exact ⟨_, rfl, rfl⟩

namespace Layout

/-- A constant whose value lacks an operand, without a blank but the one that is quoted. -/
def dense : List Token :=
  [⟨.identifier, "VAL", 0⟩, ⟨.identifier, "s", 4⟩, ⟨.operator, "=", 5⟩, ⟨.character, "' '", 6⟩,
    ⟨.operator, "-", 9⟩, ⟨.operator, ";", 10⟩]

theorem dense_spread : Layout dense "\n VAL\ts = ' ' - \x08; ".toList := by
  have hNone : ∀ c ∈ [], isBlank c = true := nofun
  have hSemicolon : Layout [⟨.operator, ";", 10⟩] ['\x08', ';', ' '] :=
    @cons ['\x08'] ⟨.operator, ";", 10⟩ ' ' _ _ (by simp [isBlank]) rfl (nil hNone)
  have hMinus := @cons [] ⟨.operator, "-", 9⟩ ' ' _ _ hNone rfl hSemicolon
  have hValue := @cons [] ⟨.character, "' '", 6⟩ ' ' _ _ hNone rfl hMinus
  have hEquals := @cons [] ⟨.operator, "=", 5⟩ ' ' _ _ hNone rfl hValue
  have hName := @cons [] ⟨.identifier, "s", 4⟩ ' ' _ _ hNone rfl hEquals
  exact @cons ['\n', ' '] ⟨.identifier, "VAL", 0⟩ '\t' _ _ (by simp [isBlank]) rfl hName

end Layout

theorem layout_irrelevant_spread :
    lex "VAL s=' '-;" = .ok Layout.dense ∧
      Layout Layout.dense "\n VAL\ts = ' ' - \x08; ".toList ∧
      (∃ others, lex "\n VAL\ts = ' ' - \x08; " = .ok others ∧
        others.map Token.lexeme = Layout.dense.map Token.lexeme) ∧
      Pipeline.parse "VAL s=' '-;" =
        .error (.parse ⟨.expectedExpression (some ";"), 10⟩) ∧
      ∃ found, Pipeline.parse "\n VAL\ts = ' ' - \x08; " = .error (.parse found) ∧
        found.fault = .expectedExpression (some ";") := by
  have hLex : lex "VAL s=' '-;" = .ok Layout.dense := by decide +kernel
  have hParse : Pipeline.parse "VAL s=' '-;" =
      .error (.parse ⟨.expectedExpression (some ";"), 10⟩) := by
    rw [Pipeline.parse_of_lex hLex]
    rfl
  obtain ⟨hOthers, -, hFault⟩ := layout_irrelevant hLex Layout.dense_spread
  exact ⟨hLex, Layout.dense_spread, hOthers, hParse, hFault _ hParse⟩

end ProcLang
