import ProcLang.Pipeline
import ProcLang.Proofs.Grammar.EarliestError
import ProcLang.Proofs.Token.MaximalMunch

/-! # Tiling

Offsets count characters: a token's literal is what the text has from the token's offset on, and
what no token covers is blank. The bytes before the piece that became the token are those of the
characters before its offset. An error of the lexer points at what it found, inside the text, and an
error of the parser never points behind the text.
-/

namespace ProcLang

set_option autoImplicit false

/-- Tokens that are pieces of a text, one behind the other, with nothing but blanks outside them. -/
structure Tiles (tokens : List Token) (text : List Char) : Prop where
  spaced : Spaced tokens
  stop_le : ∀ token ∈ tokens, token.stop ≤ text.length
  literal : ∀ token ∈ tokens, token.literal.toList = text.extract token.offset token.stop
  blank : ∀ i c, text[i]? = some c → (∀ token ∈ tokens, i < token.offset ∨ token.stop ≤ i) →
    c = ' ' ∨ c = '\t' ∨ c = '\r' ∨ c = '\n' ∨ c = '\x08'

namespace Lexer

/-- A token with the text of a piece's bytes, before which there are as many characters as take the
bytes before the piece. -/
structure Piece.Becomes (text : List Char) (piece : Piece) (token : Token) : Prop where
  kind_eq : piece.kind? = some token.kind
  slice_eq : Text.slice? text piece.start piece.stop = some token.literal.toList
  start_eq : piece.start = Text.byteSize (text.take token.offset)

theorem Piece.becomes (before slice back : List Char) (kind : TokenKind) :
    (Piece.mk (some kind) slice (Text.byteSize before)).Becomes (before ++ (slice ++ back))
      ⟨kind, String.ofList slice, before.length⟩ where
  kind_eq := rfl
  slice_eq := by
    rw [String.toList_ofList, Text.slice?_eq_some_iff]
    exact ⟨before, back, rfl, rfl, Text.byteSize_append before slice⟩
  start_eq := by rw [List.take_left]

theorem becomes_of_scan (before : List Char) {rest : List Char} {tokens : List Token}
    (h : scan before.length rest = .ok tokens) :
    List.Forall₂ (Piece.Becomes (before ++ rest)) (pieces (Text.byteSize before) rest) tokens := by
  generalize hOffset : before.length = offset at h
  fun_induction scan offset rest generalizing before tokens with
  | case1 offset =>
    cases h
    rw [pieces]
    exact .nil
  | case2 offset c rest hBlank ih =>
    have hRest := ih (before ++ [c]) (by simp [hOffset]) h
    rw [pieces, if_pos hBlank]
    simpa [Text.byteSize] using hRest
  | case3 => cases h
  | case4 offset c rest hBlank kind n hLexeme ih =>
    obtain ⟨others, hOthers, h⟩ := except_bind_ok h
    cases h
    have hBound := lexeme?_le hLexeme
    have hText : c :: rest.take n ++ rest.drop n = c :: rest := by simp
    have hRest := ih (before ++ c :: rest.take n) (by grind) hOthers
    have hPiece := Piece.becomes before (c :: rest.take n) (rest.drop n) kind
    rw [hText, hOffset] at hPiece
    rw [List.append_assoc, hText, Text.byteSize_append] at hRest
    rw [pieces, if_neg hBlank, hLexeme]
    exact .cons hPiece hRest

end Lexer

namespace Lexer.Scanned

variable {before rest : List Char} {tokens : List Token} {token : Token}

/-- The literal of each token begins at its offset. -/
theorem exists_split (h : Scanned before tokens rest) (hToken : token ∈ tokens) :
    ∃ front back,
      before = front ++ (token.literal.toList ++ back) ∧ token.offset = front.length := by
  induction h with
  | start hSkips => cases hToken
  | @next before tokens kind lexeme blanks rest hScanned hMunch hSkips ih =>
    rcases List.mem_append.mp hToken with hToken | hToken
    · obtain ⟨front, back, rfl, hOffset⟩ := ih hToken
      exact ⟨front, back ++ (lexeme ++ blanks), by simp, hOffset⟩
    · obtain rfl := List.mem_singleton.mp hToken
      exact ⟨before, blanks, by rw [String.toList_ofList], rfl⟩

theorem isBlank_of_outside {i : Nat} {c : Char} (h : Scanned before tokens rest)
    (hc : before[i]? = some c) (hOutside : ∀ token ∈ tokens, i < token.offset ∨ token.stop ≤ i) :
    isBlank c = true := by
  induction h with
  | start hSkips => exact hSkips.isBlank c (List.mem_of_getElem? hc)
  | @next before tokens kind lexeme blanks rest hScanned hMunch hSkips ih =>
    rw [List.forall_mem_append, List.forall_mem_singleton] at hOutside
    obtain ⟨hOthers, hToken⟩ := hOutside
    have hLast : i < before.length ∨ before.length + lexeme.length ≤ i := by
      simpa [Token.stop] using hToken
    rcases hLast with hBefore | hBehind
    · rw [List.getElem?_append_left hBefore] at hc
      exact ih hc hOthers
    · rw [List.getElem?_append_right (by omega), List.getElem?_append_right (by omega)] at hc
      exact hSkips.isBlank c (List.mem_of_getElem? hc)

theorem tiles (h : Scanned before tokens rest) : Tiles tokens before where
  spaced := spaced_of_lex (lex_before h)
  stop_le token hToken := by
    obtain ⟨front, back, rfl, hOffset⟩ := h.exists_split hToken
    rw [Token.stop, hOffset, ← String.length_toList, List.length_append, List.length_append]
    omega
  literal token hToken := by
    obtain ⟨front, back, rfl, hOffset⟩ := h.exists_split hToken
    rw [Token.stop, hOffset, ← String.length_toList, List.extract_eq_take_drop, List.drop_left,
      Nat.add_sub_cancel_left, List.take_left]
  blank i c hc hOutside := eq_of_isBlank (h.isBlank_of_outside hc hOutside)

end Lexer.Scanned

theorem Lexer.exists_unmatched_append (c : Char) (rest : List Char) :
    ∃ back, c :: rest = unmatched c rest ++ back := by
  unfold unmatched
  split
  · exact ⟨rest.drop (bodyLength rest), by simp⟩
  · exact ⟨rest, rfl⟩

/-- Where lexing fails, something is found behind the tokens that were scanned. -/
theorem Lexer.exists_scanned_of_error {text : String} {error : LexError}
    (h : lex text = .error error) :
    ∃ before back tokens, text.toList = before ++ (error.found.toList ++ back) ∧
      error.found ≠ "" ∧ error.offset = before.length ∧
      Scanned before tokens (error.found.toList ++ back) := by
  obtain ⟨_, -, hOk⟩ | ⟨before, tokens, c, rest, hText, hScanned, -, hError⟩ := lex_cases text
  · cases h.symm.trans hOk
  obtain rfl := Except.error.inj (hError.symm.trans h)
  obtain ⟨back, hFound⟩ := exists_unmatched_append c rest
  rw [hFound] at hText hScanned
  refine ⟨before, back, tokens, ?_, ?_, rfl, ?_⟩
  · rw [String.toList_ofList, hText]
  · unfold unmatched
    split <;> simp
  · rwa [String.toList_ofList]

theorem Pipeline.exists_tokens_of_error {text : String} {error : ParseError}
    (h : Pipeline.parse text = .error (.parse error)) :
    ∃ tokens, ProcLang.lex text = .ok tokens ∧ ProcLang.parse tokens = .error error := by
  cases hLex : ProcLang.lex text with
  | error found =>
    rw [Pipeline.parse, Pipeline.lex, hLex] at h
    cases h
  | ok tokens =>
    rw [Pipeline.parse_of_lex hLex] at h
    cases hTree : ProcLang.parse tokens with
    | ok source =>
      rw [hTree] at h
      cases h
    | error found =>
      rw [hTree] at h
      cases h
      exact ⟨tokens, rfl, hTree⟩

theorem offsetAt_le {tokens : List Token} {bound k : Nat}
    (hBound : ∀ token ∈ tokens, token.stop ≤ bound) : offsetAt tokens k ≤ bound := by
  unfold offsetAt
  split
  · rename_i token hToken
    exact (Nat.le_add_right _ _).trans (hBound token (List.mem_of_getElem? hToken))
  · cases hLast : tokens.getLast? with
    | none => exact Nat.zero_le _
    | some token => exact hBound token (List.mem_of_getLast? hLast)

theorem offset_le_of_parse {tokens : List Token} {error : ParseError} {bound : Nat}
    (hBound : ∀ token ∈ tokens, token.stop ≤ bound) (h : parse tokens = .error error) :
    error.offset ≤ bound := by
  rcases accepted_or_refused tokens with ⟨source, hParse⟩ | ⟨front, back, fault, rfl, hRefused⟩
  · cases h.symm.trans hParse
  · obtain rfl := Except.error.inj (h.symm.trans hRefused.parse_eq)
    exact offsetAt_le hBound

open Lexer

/-- The tokens of a text tile it, and are its pieces with the bytes before them turned into
characters. If lexing fails, the tokens in front of what was found tile the text up to there, and
something was found. No error of parsing is reported behind the text. -/
theorem lex_tiles (text : String) :
    (∀ tokens, lex text = .ok tokens → Tiles tokens text.toList ∧
      List.Forall₂ (Piece.Becomes text.toList) (pieces 0 text.toList) tokens) ∧
    (∀ error, lex text = .error error → ∃ before back tokens,
      text.toList = before ++ (error.found.toList ++ back) ∧ error.found ≠ "" ∧
      error.offset = before.length ∧ error.offset < text.length ∧
      Scanned before tokens (error.found.toList ++ back) ∧
      lex (String.ofList before) = .ok tokens ∧ Tiles tokens before) ∧
    ∀ error, Pipeline.parse text = .error (.parse error) → error.offset ≤ text.length := by
  refine ⟨fun tokens hLex => ⟨(lex_eq_ok_iff.mp hLex).tiles, ?_⟩, fun error hLex => ?_,
    fun error hParse => ?_⟩
  · rw [lex_eq_scan] at hLex
    exact becomes_of_scan [] hLex
  · obtain ⟨before, back, tokens, hText, hFound, hOffset, hScanned⟩ := exists_scanned_of_error hLex
    have hLength := congrArg List.length hText
    have hSome : error.found.toList.length ≠ 0 := by simpa using hFound
    have hInside : error.offset < text.length := by
      rw [← String.length_toList, hOffset, hLength, List.length_append, List.length_append]
      omega
    exact ⟨before, back, tokens, hText, hFound, hOffset, hInside, hScanned, lex_before hScanned,
      hScanned.tiles⟩
  · obtain ⟨tokens, hLex, hTree⟩ := Pipeline.exists_tokens_of_error hParse
    rw [← String.length_toList]
    exact offset_le_of_parse (lex_eq_ok_iff.mp hLex).tiles.stop_le hTree

/-- Characters count as one whatever their codes, in front of errors too. -/
theorem lex_tiles_accented :
    lex "\"é\"\n-2" = .ok [⟨.string, "\"é\"", 0⟩, ⟨.operator, "-", 4⟩, ⟨.integer, "2", 5⟩] ∧
      Tiles [⟨.string, "\"é\"", 0⟩, ⟨.operator, "-", 4⟩, ⟨.integer, "2", 5⟩] "\"é\"\n-2".toList ∧
      lex "é \"ab" = .error ⟨"\"ab", 2⟩ ∧
      (∃ before back tokens, "é \"ab".toList = before ++ ("\"ab".toList ++ back) ∧
        before.length = 2 ∧ lex (String.ofList before) = .ok tokens ∧ Tiles tokens before) ∧
      Pipeline.parse "VAL é" = .error (.parse ⟨.expected (.kind .identifier) (some "é"), 4⟩) ∧
      4 ≤ "VAL é".length := by
  have hOk : lex "\"é\"\n-2" =
      .ok [⟨.string, "\"é\"", 0⟩, ⟨.operator, "-", 4⟩, ⟨.integer, "2", 5⟩] := by decide +kernel
  have hError : lex "é \"ab" = .error ⟨"\"ab", 2⟩ := by decide +kernel
  have hOperator : lex "VAL é" = .ok [⟨.identifier, "VAL", 0⟩, ⟨.operator, "é", 4⟩] := by decide +kernel
  have hParse : Pipeline.parse "VAL é" =
      .error (.parse ⟨.expected (.kind .identifier) (some "é"), 4⟩) := by
    rw [Pipeline.parse_of_lex hOperator]
    rfl
  obtain ⟨before, back, tokens, hText, -, hOffset, -, -, hBefore, hTiles⟩ :=
    (lex_tiles _).2.1 _ hError
  exact ⟨hOk, ((lex_tiles _).1 _ hOk).1, hError,
    ⟨before, back, tokens, hText, hOffset.symm, hBefore, hTiles⟩, hParse,
    (lex_tiles _).2.2 _ hParse⟩

end ProcLang
