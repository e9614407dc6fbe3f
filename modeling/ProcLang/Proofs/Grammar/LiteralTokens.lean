import ProcLang.Proofs.Grammar.Faults
import ProcLang.Proofs.Token.Layout
import ProcLang.Proofs.Token.Tiling

/-! # Literal tokens of texts

What the lexer makes a literal token can be decoded, unless a character or string has an escape that
denotes nothing; this is the only thing that can be wrong with a literal of a program.
-/

namespace ProcLang

set_option autoImplicit false

open scoped Computability

open Lexer

namespace Literal

/-- The characters that make an escape behind a backslash. -/
def escapes : List Char :=
  ['n', 't', 'r', 'b', '\'', '"', '\\']

theorem unescape?_eq_none_iff {c : Char} : unescape? c = none ↔ c ∉ escapes := by
  unfold unescape?
  split <;> simp_all [escapes]

/-- The characters behind the backslashes of a text that is read from the left. -/
def escaped : List Char → List Char
  | '\\' :: c :: rest => c :: escaped rest
  | _ :: rest => escaped rest
  | [] => []

/-- The first escaped character that makes no escape. -/
def unknownEscape? (text : List Char) : Option Char :=
  (escaped text).find? (· ∉ escapes)

theorem escaped_cons {c : Char} (h : c ≠ '\\') (rest : List Char) :
    escaped (c :: rest) = escaped rest := by
  rw [escaped]
  intro _ _ hc
  exact absurd hc h

theorem infix_of_mem_escaped {c : Char} {text : List Char} (h : c ∈ escaped text) :
    ['\\', c] <:+: text := by
  induction text using escaped.induct with
  | case1 d rest ih =>
    rw [escaped] at h
    rcases List.mem_cons.mp h with rfl | h
    · exact (List.prefix_append ['\\', c] rest).isInfix
    · exact (ih h).trans (List.suffix_append ['\\', d] rest).isInfix
  | case2 d rest hOther ih =>
    rw [escaped] at h
    · exact (ih h).trans (List.suffix_cons d rest).isInfix
    · exact hOther
  | case3 => cases h

theorem of_unknownEscape? {c : Char} {text : List Char} (h : unknownEscape? text = some c) :
    c ∉ escapes ∧ ['\\', c] <:+: text :=
  ⟨by simpa using List.find?_some h, infix_of_mem_escaped (List.mem_of_find?_eq_some h)⟩

section Pieces

variable {quote : Char} {first body : List Char}

/-- A piece stands for one character, or it is an escape that denotes nothing. -/
theorem piece_cases (h : first ∈ piece quote) :
    (∃ c, ∀ rest, decodeBody (first ++ rest) = (decodeBody rest).map (c :: ·) ∧
      unknownEscape? (first ++ rest) = unknownEscape? rest) ∨
    ∃ c, ∀ rest, decodeBody (first ++ rest) = .error (.invalidEscape (some c)) ∧
      unknownEscape? (first ++ rest) = some c := by
  obtain ⟨c, rfl, hPlain⟩ | ⟨c, rfl, -⟩ := mem_piece.mp h
  · have hc := ne_backslash_of_isPlain hPlain
    refine .inl ⟨c, fun rest => ⟨?_, ?_⟩⟩
    · exact decodeBody.eq_4 c rest (fun h => absurd h hc) fun _ _ h => absurd h hc
    · rw [List.singleton_append, unknownEscape?, escaped_cons hc, unknownEscape?]
  · cases hEscape : unescape? c with
    | none =>
      have hUnknown := unescape?_eq_none_iff.mp hEscape
      refine .inr ⟨c, fun rest => ⟨?_, ?_⟩⟩
      · simp [decodeBody, hEscape]
      · simp [unknownEscape?, escaped, hUnknown]
    | some d =>
      have hKnown : c ∈ escapes := by
        by_contra hUnknown
        rw [unescape?_eq_none_iff.mpr hUnknown] at hEscape
        cases hEscape
      refine .inl ⟨d, fun rest => ⟨?_, ?_⟩⟩
      · simp [decodeBody, hEscape]
      · simp [unknownEscape?, escaped, hKnown]

theorem decodeBody_of_piece (h : first ∈ piece quote) :
    (unknownEscape? first = none → ∃ c, decodeBody first = .ok [c]) ∧
      ∀ c, unknownEscape? first = some c →
        decodeBody first = .error (.invalidEscape (some c)) := by
  rcases piece_cases h with ⟨c, hPiece⟩ | ⟨c, hPiece⟩
  · obtain ⟨hDecode, hUnknown⟩ := hPiece []
    rw [List.append_nil] at hDecode hUnknown
    rw [hDecode, hUnknown]
    exact ⟨fun _ => ⟨c, rfl⟩, nofun⟩
  · obtain ⟨hDecode, hUnknown⟩ := hPiece []
    rw [List.append_nil] at hDecode hUnknown
    rw [hDecode, hUnknown]
    refine ⟨nofun, fun d hd => ?_⟩
    rw [Option.some.inj hd]

theorem decodeBody_of_pieces (h : body ∈ (piece quote)∗) :
    (unknownEscape? body = none → ∃ text, decodeBody body = .ok text) ∧
      ∀ c, unknownEscape? body = some c →
        decodeBody body = .error (.invalidEscape (some c)) := by
  obtain ⟨pieces, rfl, hPieces⟩ := h
  induction pieces with
  | nil => exact ⟨fun _ => ⟨[], rfl⟩, nofun⟩
  | cons first pieces ih =>
    obtain ⟨hFirst, hOthers⟩ := List.forall_mem_cons.mp hPieces
    obtain ⟨hKnown, hUnknown⟩ := ih hOthers
    rw [List.flatten_cons]
    rcases piece_cases hFirst with ⟨c, hPiece⟩ | ⟨c, hPiece⟩
    · rw [(hPiece pieces.flatten).1, (hPiece pieces.flatten).2]
      refine ⟨fun hNone => ?_, fun d hd => ?_⟩
      · obtain ⟨text, hText⟩ := hKnown hNone
        exact ⟨c :: text, by rw [hText]; rfl⟩
      · rw [hUnknown d hd]
        rfl
    · rw [(hPiece pieces.flatten).1, (hPiece pieces.flatten).2]
      refine ⟨nofun, fun d hd => ?_⟩
      rw [Option.some.inj hd]

/-- The quotes around a body make no escapes. -/
theorem unknownEscape?_quoted (hQuote : quote ≠ '\\') (h : body ∈ (piece quote)∗) :
    unknownEscape? (quote :: (body ++ [quote])) = unknownEscape? body := by
  have hClosing : unknownEscape? (body ++ [quote]) = unknownEscape? body := by
    obtain ⟨pieces, rfl, hPieces⟩ := h
    induction pieces with
    | nil => simp [unknownEscape?, escaped_cons hQuote]
    | cons first pieces ih =>
      obtain ⟨hFirst, hOthers⟩ := List.forall_mem_cons.mp hPieces
      rw [List.flatten_cons, List.append_assoc]
      rcases piece_cases hFirst with ⟨c, hPiece⟩ | ⟨c, hPiece⟩
      · rw [(hPiece _).2, (hPiece _).2, ih hOthers]
      · rw [(hPiece _).2, (hPiece _).2]
  rw [unknownEscape?, escaped_cons hQuote]
  exact hClosing

theorem decode_quoted {text : String} (hText : text.toList = quote :: (body ++ [quote])) :
    decode quote text = decodeBody body := by
  have hBody : body? quote text.toList = some body := by simp [hText, body?]
  rw [decode, hBody]

end Pieces

end Literal

open Literal (escapes unknownEscape?)

/-- What is made of a token where an operand is expected, whatever stands behind it. -/
def Token.ReadsAs (token : Token) (outcome : Except ParseError Literal) : Prop :=
  ∀ expression n rest stop, Grammar.primary expression n ⟨token :: rest, stop⟩ =
    outcome.map fun value => (Expr.literal value none, ⟨rest, stop⟩)

/-- Numbers are read as their digits say, with a place for each digit behind the point. Characters
and strings are read unless an escape is unknown, and then the first such escape is reported. -/
structure Token.Decodes (token : Token) : Prop where
  integer : token.kind = .integer → token.literal.toList ≠ [] ∧
    (∀ c ∈ token.literal.toList, isDigit c = true) ∧
    token.ReadsAs (.ok (.integer (Nat.ofDigitChars 10 token.literal.toList 0)))
  decimal : token.kind = .decimal → ∃ whole fraction,
    token.literal.toList = whole ++ '.' :: fraction ∧ whole ≠ [] ∧ fraction ≠ [] ∧
    (∀ c ∈ whole ++ fraction, isDigit c = true) ∧
    token.ReadsAs (.ok (.decimal ⟨Nat.ofDigitChars 10 (whole ++ fraction) 0, fraction.length⟩))
  character : token.kind = .character → unknownEscape? token.literal.toList = none →
    ∃ c, token.ReadsAs (.ok (.character c))
  string : token.kind = .string → unknownEscape? token.literal.toList = none →
    ∃ s, token.ReadsAs (.ok (.string s))
  unknown : token.kind = .character ∨ token.kind = .string →
    ∀ c, unknownEscape? token.literal.toList = some c →
      token.ReadsAs (.error ⟨.literal (.invalidEscape (some c)), token.offset⟩)

/-- A quoted text that is decoded unless it has an unknown escape fails for nothing else. -/
theorem exists_unknownEscape_of_error {text : List Char} {outcome : Except LiteralError Literal}
    (hKnown : unknownEscape? text = none → ∃ value, outcome = .ok value)
    (hUnknown : ∀ c, unknownEscape? text = some c → outcome = .error (.invalidEscape (some c)))
    {error : LiteralError} (h : outcome = .error error) :
    ∃ c, unknownEscape? text = some c ∧ error = .invalidEscape (some c) := by
  cases hEscape : unknownEscape? text with
  | none =>
    obtain ⟨value, hValue⟩ := hKnown hEscape
    cases hValue.symm.trans h
  | some c => exact ⟨c, rfl, Except.error.inj (h.symm.trans (hUnknown c hEscape))⟩

section Decodes

variable {token : Token}

theorem Lexeme.Formed.not_mem_literalWords (hFormed : token.lexeme.Formed)
    (hKind : token.kind.isLiteral = true) : token.literal ∉ Grammar.literalWords := by
  intro hWord
  have hFixed : ∀ text ∈ Grammar.literalWords,
      isFixed text = true ∧ (fixed text).kind = .identifier := by decide
  obtain ⟨hFixed, hIdentifier⟩ := hFixed _ hWord
  have hLexeme : token.lexeme = fixed token.literal := hFormed.eq_fixed rfl hFixed
  rw [← hLexeme] at hIdentifier
  have hName : token.kind = .identifier := hIdentifier
  rw [hName] at hKind
  cases hKind

theorem Token.readsAs_of_ofText {outcome : Except LiteralError Literal}
    (hFormed : token.lexeme.Formed) (hKind : token.kind.isLiteral = true)
    (hText : Literal.ofText token.kind token.literal = outcome) :
    token.ReadsAs (outcome.mapError fun error => ⟨.literal error, token.offset⟩) := by
  intro expression n rest stop
  subst hText
  have hWord := hFormed.not_mem_literalWords hKind
  have hOther : token.kind ≠ .identifier ∧ token.kind ≠ .operator := by
    constructor <;> intro h <;> rw [h] at hKind <;> cases hKind
  rw [Grammar.primary_cons, Grammar.operandAt_literal expression n hWord hOther, Token.lexeme,
    Grammar.literal]
  cases Literal.ofText token.kind token.literal <;> rfl

variable (hRule : token.literal.toList ∈ token.kind.rule)

include hRule

theorem ofText_of_integer (hKind : token.kind = .integer) :
    token.literal.toList ≠ [] ∧ (∀ c ∈ token.literal.toList, isDigit c = true) ∧
      Literal.ofText token.kind token.literal =
        .ok (.integer (Nat.ofDigitChars 10 token.literal.toList 0)) := by
  rw [hKind] at hRule ⊢
  obtain ⟨hSome, hDigits⟩ := mem_digits.mp hRule
  refine ⟨hSome, hDigits, ?_⟩
  rw [Literal.ofText, Numeral.integer?_of_digits hDigits hSome, Numeral.natural_eq_ofDigitChars]

theorem ofText_of_decimal (hKind : token.kind = .decimal)
    (hSize : token.literal.toList.length < 2 ^ 63) :
    ∃ whole fraction, token.literal.toList = whole ++ '.' :: fraction ∧ whole ≠ [] ∧
      fraction ≠ [] ∧ (∀ c ∈ whole ++ fraction, isDigit c = true) ∧
      Literal.ofText token.kind token.literal =
        .ok (.decimal ⟨Nat.ofDigitChars 10 (whole ++ fraction) 0, fraction.length⟩) := by
  rw [hKind] at hRule ⊢
  obtain ⟨whole, fraction, hText, hWhole, hFraction⟩ := mem_rule_decimal.mp hRule
  obtain ⟨hSome, hDigits⟩ := mem_digits.mp hWhole
  obtain ⟨hPlaces, hPlaceDigits⟩ := mem_digits.mp hFraction
  have hFits : Decimal.scaleFits fraction.length = true := by
    rw [hText, List.length_append, List.length_cons] at hSize
    rw [Decimal.scaleFits_iff]
    omega
  refine ⟨whole, fraction, hText, hSome, hPlaces, List.forall_mem_append.mpr ⟨hDigits, hPlaceDigits⟩,
    ?_⟩
  rw [Literal.ofText, hText, Numeral.decimal?_of_digits hDigits hSome hPlaceDigits, if_pos hFits,
    Numeral.natural_eq_ofDigitChars]

theorem ofText_of_character (hKind : token.kind = .character) :
    (unknownEscape? token.literal.toList = none →
      ∃ c, Literal.ofText token.kind token.literal = .ok (.character c)) ∧
    ∀ c, unknownEscape? token.literal.toList = some c →
      Literal.ofText token.kind token.literal = .error (.invalidEscape (some c)) := by
  rw [hKind] at hRule ⊢
  obtain ⟨body, hText, hBody⟩ := mem_quoted.mp hRule
  obtain ⟨hKnown, hUnknown⟩ := Literal.decodeBody_of_piece hBody
  have hPieces : body ∈ (piece '\'')∗ := by
    have hAppend := append_mem_kstar hBody (Language.nil_mem_kstar _)
    rwa [List.append_nil] at hAppend
  rw [hText, Literal.unknownEscape?_quoted (by decide) hPieces]
  simp only [Literal.ofText, Literal.decode_quoted hText]
  refine ⟨fun hNone => ?_, fun c hc => ?_⟩
  · obtain ⟨c, hDecode⟩ := hKnown hNone
    exact ⟨c, by rw [hDecode]⟩
  · rw [hUnknown c hc]

theorem ofText_of_string (hKind : token.kind = .string) :
    (unknownEscape? token.literal.toList = none →
      ∃ s, Literal.ofText token.kind token.literal = .ok (.string s)) ∧
    ∀ c, unknownEscape? token.literal.toList = some c →
      Literal.ofText token.kind token.literal = .error (.invalidEscape (some c)) := by
  rw [hKind] at hRule ⊢
  obtain ⟨body, hText, hBody⟩ := mem_quoted.mp hRule
  obtain ⟨hKnown, hUnknown⟩ := Literal.decodeBody_of_pieces hBody
  rw [hText, Literal.unknownEscape?_quoted (by decide) hBody]
  simp only [Literal.ofText, Literal.decode_quoted hText]
  refine ⟨fun hNone => ?_, fun c hc => ?_⟩
  · obtain ⟨text, hDecode⟩ := hKnown hNone
    exact ⟨String.ofList text, by rw [hDecode]; rfl⟩
  · rw [hUnknown c hc]
    rfl

theorem Token.decodes_of_rule (hFormed : token.lexeme.Formed)
    (hSize : token.literal.toList.length < 2 ^ 63) : token.Decodes := by
  constructor
  · intro hKind
    obtain ⟨hSome, hDigits, hText⟩ := ofText_of_integer hRule hKind
    exact ⟨hSome, hDigits, Token.readsAs_of_ofText hFormed (hKind ▸ rfl) hText⟩
  · intro hKind
    obtain ⟨whole, fraction, hLiteral, hWhole, hFraction, hDigits, hText⟩ :=
      ofText_of_decimal hRule hKind hSize
    exact ⟨whole, fraction, hLiteral, hWhole, hFraction, hDigits,
      Token.readsAs_of_ofText hFormed (hKind ▸ rfl) hText⟩
  · intro hKind hNone
    obtain ⟨c, hText⟩ := (ofText_of_character hRule hKind).1 hNone
    exact ⟨c, Token.readsAs_of_ofText hFormed (hKind ▸ rfl) hText⟩
  · intro hKind hNone
    obtain ⟨s, hText⟩ := (ofText_of_string hRule hKind).1 hNone
    exact ⟨s, Token.readsAs_of_ofText hFormed (hKind ▸ rfl) hText⟩
  · rintro (hKind | hKind) c hc
    · exact Token.readsAs_of_ofText hFormed (hKind ▸ rfl) ((ofText_of_character hRule hKind).2 c hc)
    · exact Token.readsAs_of_ofText hFormed (hKind ▸ rfl) ((ofText_of_string hRule hKind).2 c hc)

/-- An unknown escape is all that can be wrong with a literal token. -/
theorem exists_unknownEscape_of_ofText (hSize : token.literal.toList.length < 2 ^ 63)
    (hKind : token.kind.isLiteral = true) {error : LiteralError}
    (h : Literal.ofText token.kind token.literal = .error error) :
    (token.kind = .character ∨ token.kind = .string) ∧
      ∃ c, unknownEscape? token.literal.toList = some c ∧ error = .invalidEscape (some c) := by
  cases hCase : token.kind with
  | identifier | operator =>
    rw [hCase] at hKind
    cases hKind
  | integer =>
    obtain ⟨-, -, hText⟩ := ofText_of_integer hRule hCase
    cases hText.symm.trans h
  | decimal =>
    obtain ⟨whole, fraction, -, -, -, -, hText⟩ := ofText_of_decimal hRule hCase hSize
    cases hText.symm.trans h
  | character =>
    obtain ⟨hKnown, hUnknown⟩ := ofText_of_character hRule hCase
    refine ⟨.inl rfl, exists_unknownEscape_of_error (fun hNone => ?_) hUnknown h⟩
    obtain ⟨c, hText⟩ := hKnown hNone
    exact ⟨_, hText⟩
  | string =>
    obtain ⟨hKnown, hUnknown⟩ := ofText_of_string hRule hCase
    refine ⟨.inr rfl, exists_unknownEscape_of_error (fun hNone => ?_) hUnknown h⟩
    obtain ⟨s, hText⟩ := hKnown hNone
    exact ⟨_, hText⟩

end Decodes

theorem length_literal_le {text : String} {tokens : List Token} (hLex : lex text = .ok tokens)
    {token : Token} (hToken : token ∈ tokens) : token.literal.toList.length ≤ text.length := by
  obtain ⟨front, back, hText, -⟩ := (lex_eq_ok_iff.mp hLex).exists_split hToken
  rw [← String.length_toList, hText, List.length_append, List.length_append]
  omega

theorem message_invalidEscape (c : Char) (offset : Nat) :
    ParseError.message ⟨.literal (.invalidEscape (some c)), offset⟩ =
      "invalid escape sequence '\\" ++ String.singleton c ++ "' at offset " ++ toString offset := by
  have hQuote : "'" ++ " at offset " = "' at offset " := by decide
  rw [← hQuote, ← String.append_assoc, String.singleton_eq_ofList]
  rfl

/-- In a text of less than `2 ^ 63` characters, as all are that can be stored, every literal is read
as its rule says, and the only literals that are errors are characters and strings with unknown
escapes. -/
theorem lexed_literals_decode {text : String} {tokens : List Token} (hLex : lex text = .ok tokens)
    (hSize : text.length < 2 ^ 63) :
    (∀ token ∈ tokens, token.Decodes) ∧
    ∀ error reason, parse tokens = .error error → error.fault = .literal reason →
      ∃ token ∈ tokens, (token.kind = .character ∨ token.kind = .string) ∧
        ∃ c, c ∉ escapes ∧ ['\\', c] <:+: token.literal.toList ∧
          error = ⟨.literal (.invalidEscape (some c)), token.offset⟩ ∧
          error.message = "invalid escape sequence '\\" ++ String.singleton c ++ "' at offset " ++
            toString token.offset := by
  have hRules := (lex_eq_ok_iff.mp hLex).rule
  have hShort : ∀ token ∈ tokens, token.literal.toList.length < 2 ^ 63 := fun token hToken =>
    (length_literal_le hLex hToken).trans_lt hSize
  refine ⟨fun token hToken => ?_, ?_⟩
  · exact token.decodes_of_rule (hRules token hToken) (formed_of_lex hLex token hToken)
      (hShort token hToken)
  · rintro ⟨fault, offset⟩ reason hParse rfl
    obtain ⟨front, back, hSplit, ⟨token, hHead, hKind, hText⟩, hOffset⟩ :=
      exists_fault_of_parse hParse
    have hToken : token ∈ tokens :=
      hSplit ▸ List.mem_append_right front (List.mem_of_mem_head? hHead)
    obtain ⟨hQuoted, c, hEscape, rfl⟩ :=
      exists_unknownEscape_of_ofText (hRules token hToken) (hShort token hToken) hKind hText
    obtain ⟨hUnknown, hInfix⟩ := Literal.of_unknownEscape? hEscape
    obtain rfl : token.offset = offset := by
      rw [Cursor.errorOffset, Cursor.current, hHead] at hOffset
      exact hOffset.symm
    exact ⟨token, hToken, hQuoted, c, hUnknown, hInfix, rfl, message_invalidEscape c token.offset⟩

/-- The tokens of a constant whose value ends in a string with an unknown escape. -/
def misquoted : List Token :=
  [⟨.identifier, "VAL", 0⟩, ⟨.identifier, "x", 4⟩, ⟨.operator, "=", 6⟩, ⟨.integer, "07", 8⟩,
    ⟨.operator, "*", 11⟩, ⟨.decimal, "2.50", 13⟩, ⟨.operator, "+", 18⟩,
    ⟨.string, "\"\\\\\\q\"", 20⟩, ⟨.operator, ";", 26⟩]

theorem lexed_literals_decode_misquoted :
    lex "VAL x = 07 * 2.50 + \"\\\\\\q\";" = .ok misquoted ∧
      (Token.mk .integer "07" 8).ReadsAs (.ok (.integer 7)) ∧
      (∃ d, (Token.mk .decimal "2.50" 13).ReadsAs (.ok (.decimal d))) ∧
      (Token.mk .string "\"\\\\\\q\"" 20).ReadsAs
        (.error ⟨.literal (.invalidEscape (some 'q')), 20⟩) ∧
      parse misquoted = .error ⟨.literal (.invalidEscape (some 'q')), 20⟩ ∧
      ∃ token ∈ misquoted, ∃ c, c ∉ escapes ∧ ['\\', c] <:+: token.literal.toList ∧
        token.offset = 20 := by
  have hLex : lex "VAL x = 07 * 2.50 + \"\\\\\\q\";" = .ok misquoted := by decide +kernel
  have hParse : parse misquoted = .error ⟨.literal (.invalidEscape (some 'q')), 20⟩ := rfl
  obtain ⟨hDecodes, hErrors⟩ := lexed_literals_decode hLex (by decide)
  obtain ⟨-, -, hInteger⟩ := (hDecodes ⟨.integer, "07", 8⟩ (by decide)).integer rfl
  obtain ⟨_, _, -, -, -, -, hDecimal⟩ := (hDecodes ⟨.decimal, "2.50", 13⟩ (by decide)).decimal rfl
  have hString := (hDecodes ⟨.string, "\"\\\\\\q\"", 20⟩ (by decide)).unknown (.inr rfl) 'q' rfl
  obtain ⟨token, hToken, -, c, hUnknown, hInfix, hError, -⟩ := hErrors _ _ hParse rfl
  have hOffset : token.offset = 20 := congrArg ParseError.offset hError.symm
  exact ⟨hLex, hInteger, ⟨_, hDecimal⟩, hString, hParse, token, hToken, c, hUnknown, hInfix, hOffset⟩

end ProcLang
