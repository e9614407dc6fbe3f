import ProcLang.Proofs.Token.MaximalMunch

/-! # Texts put together

A blank ends every token in front of it, so that a text behind a blank is scanned as if it stood
alone, farther on. A line feed also ends what cannot be scanned: no string goes on in the next line.
-/

namespace ProcLang

set_option autoImplicit false

/-- The same token in a text with `k` more characters in front. -/
def Token.shift (token : Token) (k : Nat) : Token :=
  { token with offset := token.offset + k }

/-- The same error in a text with `k` more characters in front. -/
def LexError.shift (error : LexError) (k : Nat) : LexError :=
  { error with offset := error.offset + k }

namespace Lexer

variable {b c : Char} {rest more text : List Char} {kind : TokenKind} {n : Nat}

theorem not_continuesIdentifier_of_isBlank (h : isBlank b = true) :
    continuesIdentifier b = false := by
  rcases eq_of_isBlank h with rfl | rfl | rfl | rfl | rfl <;> rfl

theorem not_isDigit_of_isBlank (h : isBlank b = true) : isDigit b = false := by
  rcases eq_of_isBlank h with rfl | rfl | rfl | rfl | rfl <;> rfl

theorem not_isPair_of_isBlank (h : isBlank b = true) (c : Char) : isPair c b = false := by
  rw [Bool.eq_false_iff, ne_eq, isPair_iff]
  rintro (hPair | hPair | hPair | hPair) <;> cases hPair <;> cases h

theorem takeWhile_append_cons {p : Char → Bool} (h : p b = false) :
    (rest ++ b :: more).takeWhile p = rest.takeWhile p := by
  induction rest with
  | nil => exact List.takeWhile_cons_of_neg (by simp [h])
  | cons c rest ih => simp only [List.cons_append, List.takeWhile_cons, ih]

theorem number_append (h : isBlank b = true) : number (rest ++ b :: more) = number rest := by
  have hDigit := not_isDigit_of_isBlank h
  have hWhole := (List.takeWhile_prefix (l := rest) isDigit).length_le
  unfold number
  simp only [takeWhile_append_cons hDigit, List.drop_append_of_le_length hWhole]
  -- Whether there is a fraction is decided by the two characters behind the whole digits.
  rcases rest.drop (rest.takeWhile isDigit).length with _ | ⟨point, _ | ⟨digit, back⟩⟩
  · have hPoint : b ≠ '.' := by
      rintro rfl
      cases h
    simp [hPoint]
  · by_cases hPoint : point = '.'
    · simp [hPoint, hDigit]
    · simp [hPoint]
  · by_cases hPoint : point = '.'
    · simp [hPoint, takeWhile_append_cons hDigit]
    · simp [hPoint]

/-- What is found by its closing quote is found whatever is behind. -/
theorem quoted_append {quote : Char} {l : Language Char} {length? : List Char → Option Nat}
    (hLength : ∀ body ∈ l, ∀ back, length? (body ++ quote :: back) = some (body.length + 1))
    (hMem : quote :: rest.take n ∈ {[quote]} * (l * {[quote]})) (hBound : n ≤ rest.length) :
    length? (rest ++ more) = some n := by
  obtain ⟨body, hText, hBody⟩ := mem_quoted.mp hMem
  have hTake : rest.take n = body ++ [quote] := (List.cons.inj hText).2
  have hSize : n = body.length + 1 := by
    simpa [hBound] using congrArg List.length hTake
  have hRest : rest = body ++ quote :: rest.drop n := by
    rw [List.append_cons, ← hTake, List.take_append_drop]
  rw [hRest, List.append_assoc, List.cons_append, hLength body hBody, hSize]

theorem character?_append (h : character? rest = some n) (more : List Char) :
    character? (rest ++ more) = some n :=
  quoted_append (fun _ hBody _ => character?_of_piece hBody) (character?_mem h) (character?_le h)

theorem string?_append (h : string? rest = some n) (more : List Char) :
    string? (rest ++ more) = some n :=
  quoted_append (fun _ hBody _ => string?_of_pieces hBody) (string?_mem h) (string?_le h)

theorem lexeme?_append_of_quote (hQuote : c = '\'' ∨ c = '"') (h : lexeme? c rest = some (kind, n))
    (more : List Char) : lexeme? c (rest ++ more) = some (kind, n) := by
  rcases hQuote with rfl | rfl
  · obtain ⟨m, hCharacter, hSame⟩ := Option.map_eq_some_iff.mp h
    rw [lexeme?_quote, character?_append hCharacter, Option.map_some, hSame]
  · obtain ⟨m, hString, hSame⟩ := Option.map_eq_some_iff.mp h
    rw [lexeme?_quotes, string?_append hString, Option.map_some, hSame]

/-- A token is decided on in the same way if a blank comes behind the text. -/
theorem lexeme?_append (hBlank : isBlank b = true) (h : lexeme? c rest = some (kind, n)) :
    lexeme? c (rest ++ b :: more) = some (kind, n) := by
  by_cases hQuote : c = '\'' ∨ c = '"'
  · exact lexeme?_append_of_quote hQuote h (b :: more)
  · have hHead : (rest ++ b :: more).head?.any (isPair c) = rest.head?.any (isPair c) := by
      cases rest with
      | nil => exact not_isPair_of_isBlank hBlank c
      | cons d rest => rfl
    rw [not_or] at hQuote
    simp only [lexeme?, if_neg hQuote.1, if_neg hQuote.2] at h ⊢
    rwa [takeWhile_append_cons (not_continuesIdentifier_of_isBlank hBlank), number_append hBlank,
      hHead]

theorem scan_append {offset : Nat} {tokens : List Token} (hBlank : isBlank b = true)
    (h : scan offset text = .ok tokens) :
    scan offset (text ++ b :: more) =
      (scan (offset + text.length + 1) more).map (tokens ++ ·) := by
  induction offset, text using scan.induct generalizing tokens with
  | case1 offset =>
    rw [scan] at h
    cases h
    rw [List.nil_append, scan, if_pos hBlank]
    cases scan (offset + 1) more <;> rfl
  | case2 offset c rest hFirst ih =>
    rw [scan, if_pos hFirst] at h
    rw [List.cons_append, scan, if_pos hFirst, ih h, List.length_cons, Nat.add_right_comm offset 1]
    rfl
  | case3 offset c rest hFirst hNone =>
    rw [scan, if_neg hFirst, hNone] at h
    cases h
  | case4 offset c rest hFirst kind n hLexeme ih =>
    rw [scan, if_neg hFirst, hLexeme] at h
    obtain ⟨others, hOthers, h⟩ := except_bind_ok h
    cases h
    have hBound := lexeme?_le hLexeme
    have hOffset : offset + 1 + n + (rest.drop n).length + 1 = offset + (c :: rest).length + 1 := by
      rw [List.length_drop, List.length_cons]
      omega
    rw [List.cons_append, scan, if_neg hFirst, lexeme?_append hBlank hLexeme]
    simp only [List.take_append_of_le_length hBound, List.drop_append_of_le_length hBound]
    rw [ih hOthers, hOffset]
    cases scan (offset + (c :: rest).length + 1) more <;> rfl

theorem scan_shift (offset k : Nat) (text : List Char) :
    scan (offset + k) text =
      ((scan offset text).mapError (·.shift k)).map fun tokens => tokens.map (·.shift k) := by
  induction offset, text using scan.induct with
  | case1 offset => simp only [scan]; rfl
  | case2 offset c rest hFirst ih =>
    rw [scan, if_pos hFirst, Nat.add_right_comm, ih, scan, if_pos hFirst]
  | case3 offset c rest hFirst hNone =>
    rw [scan, if_neg hFirst, hNone, scan, if_neg hFirst, hNone]
    rfl
  | case4 offset c rest hFirst kind n hLexeme ih =>
    have hOffset : offset + k + 1 + n = offset + 1 + n + k := by omega
    rw [scan, if_neg hFirst, hLexeme, scan, if_neg hFirst, hLexeme]
    simp only [hOffset, ih]
    cases scan (offset + 1 + n) (rest.drop n) <;> rfl

/-- A string that is open at the end of a line has no more in the next one. -/
theorem bodyLength_append_lineFeed (rest more : List Char) :
    bodyLength (rest ++ '\n' :: more) = bodyLength rest := by
  induction rest using bodyLength.induct with
  | case1 escaped rest hBreak =>
    rw [List.cons_append, List.cons_append, bodyLength, bodyLength, if_pos hBreak, if_pos hBreak]
  | case2 escaped rest hBreak ih =>
    rw [List.cons_append, List.cons_append, bodyLength, bodyLength, if_neg hBreak, if_neg hBreak,
      ih]
  | case3 c rest hOther hPlain ih =>
    have hEscape := ne_backslash_of_isPlain hPlain
    rw [List.cons_append, bodyLength.eq_2 c _ (fun _ _ h => absurd h hEscape),
      bodyLength.eq_2 c rest hOther, if_pos hPlain, if_pos hPlain, ih]
  | case4 c rest hOther hPlain =>
    rw [List.cons_append, bodyLength.eq_2 c rest hOther, if_neg hPlain]
    by_cases hEscape : c = '\\'
    · subst hEscape
      cases rest with
      | nil => rfl
      | cons escaped rest => exact absurd rfl (hOther escaped rest rfl)
    · rw [bodyLength.eq_2 c _ (fun _ _ h => absurd h hEscape), if_neg hPlain]
  | case5 => rfl

theorem character?_append_lineFeed (h : character? rest = none) (more : List Char) :
    character? (rest ++ '\n' :: more) = none := by
  -- At most the first three characters count, and the line feed can be any of them.
  rcases rest with _ | ⟨first, _ | ⟨second, _ | ⟨third, rest⟩⟩⟩ <;>
    simp only [List.cons_append, List.nil_append] <;> unfold character? at h ⊢ <;>
    grind [isPlain, isLineBreak]

theorem string?_append_lineFeed (h : string? rest = none) (more : List Char) :
    string? (rest ++ '\n' :: more) = none := by
  have hBound := bodyLength_le rest
  unfold string? at h ⊢
  rw [bodyLength_append_lineFeed]
  rcases hBound.lt_or_eq with hInside | hEnd
  · rwa [List.getElem?_append_left hInside]
  · rw [hEnd, List.getElem?_append_right le_rfl, Nat.sub_self]
    rfl

theorem lexeme?_append_lineFeed (h : lexeme? c rest = none) (more : List Char) :
    lexeme? c (rest ++ '\n' :: more) = none := by
  rcases (not_matches_of_lexeme? h).2 with rfl | rfl
  · rw [lexeme?_quote, Option.map_eq_none_iff] at h ⊢
    exact character?_append_lineFeed h more
  · rw [lexeme?_quotes, Option.map_eq_none_iff] at h ⊢
    exact string?_append_lineFeed h more

theorem unmatched_append_lineFeed (c : Char) (rest more : List Char) :
    unmatched c (rest ++ '\n' :: more) = unmatched c rest := by
  rw [unmatched, unmatched, bodyLength_append_lineFeed,
    List.take_append_of_le_length (bodyLength_le rest)]

/-- Behind a token that is decided on, an error is one of the rest. -/
theorem scan_rest_error {offset : Nat} {error : LexError} (hFirst : ¬isBlank c = true)
    (hLexeme : lexeme? c rest = some (kind, n)) (h : scan offset (c :: rest) = .error error) :
    scan (offset + 1 + n) (rest.drop n) = .error error := by
  rw [scan, if_neg hFirst, hLexeme] at h
  simp only at h
  cases hOthers : scan (offset + 1 + n) (rest.drop n) with
  | ok others =>
    rw [hOthers] at h
    cases h
  | error found =>
    rw [hOthers] at h
    exact h

theorem scan_append_lineFeed {offset : Nat} {error : LexError} (h : scan offset text = .error error)
    (more : List Char) : scan offset (text ++ '\n' :: more) = .error error := by
  induction offset, text using scan.induct with
  | case1 offset =>
    rw [scan] at h
    cases h
  | case2 offset c rest hFirst ih =>
    rw [scan, if_pos hFirst] at h
    rw [List.cons_append, scan, if_pos hFirst, ih h]
  | case3 offset c rest hFirst hNone =>
    rw [scan, if_neg hFirst, hNone] at h
    rw [List.cons_append, scan, if_neg hFirst, lexeme?_append_lineFeed hNone,
      unmatched_append_lineFeed]
    exact h
  | case4 offset c rest hFirst kind n hLexeme ih =>
    have hBound := lexeme?_le hLexeme
    have hOthers := scan_rest_error hFirst hLexeme h
    rw [List.cons_append, scan, if_neg hFirst, lexeme?_append rfl hLexeme]
    simp only [List.drop_append_of_le_length hBound]
    rw [ih hOthers]
    rfl

end Lexer

open Lexer

/-- A text is lexed line by line: a line feed and what comes behind it change neither the tokens of
the text in front nor its error, and the rest is lexed as if it stood alone, farther on. -/
theorem lex_append_line (first second : String) :
    (∀ error, lex first = .error error → lex (first ++ "\n" ++ second) = .error error) ∧
    ∀ tokens, lex first = .ok tokens →
      (∀ others, lex second = .ok others → lex (first ++ "\n" ++ second) =
        .ok (tokens ++ others.map (·.shift (first.length + 1)))) ∧
      ∀ error, lex second = .error error →
        lex (first ++ "\n" ++ second) = .error (error.shift (first.length + 1)) := by
  have hText : (first ++ "\n" ++ second).toList = first.toList ++ '\n' :: second.toList := by
    simp
  have hRest : scan (0 + first.toList.length + 1) second.toList =
      ((lex second).mapError (·.shift (first.length + 1))).map
        fun others => others.map (·.shift (first.length + 1)) := by
    rw [String.length_toList, Nat.add_assoc, lex_eq_scan]
    exact scan_shift 0 (first.length + 1) second.toList
  refine ⟨fun error hError => ?_, fun tokens hTokens => ⟨fun others hOthers => ?_,
    fun error hError => ?_⟩⟩
  · rw [lex_eq_scan] at hError ⊢
    rw [hText, scan_append_lineFeed hError]
  · rw [lex_eq_scan] at hTokens ⊢
    rw [hText, scan_append rfl hTokens, hRest, hOthers]
    rfl
  · rw [lex_eq_scan] at hTokens ⊢
    rw [hText, scan_append rfl hTokens, hRest, hError]
    rfl

/-- A backslash at the end of a line does not carry a string into the next one. -/
theorem lex_append_line_backslash :
    lex "\"a\\" = .error ⟨"\"a", 0⟩ ∧ lex ("\"a\\" ++ "\n" ++ "\"") = .error ⟨"\"a", 0⟩ ∧
      lex "é 'b'" = .ok [⟨.operator, "é", 0⟩, ⟨.character, "'b'", 2⟩] ∧
      lex "c" = .ok [⟨.identifier, "c", 0⟩] ∧
      lex ("é 'b'" ++ "\n" ++ "c") =
        .ok [⟨.operator, "é", 0⟩, ⟨.character, "'b'", 2⟩, ⟨.identifier, "c", 6⟩] := by
  have hOpen : lex "\"a\\" = .error ⟨"\"a", 0⟩ := by decide +kernel
  have hFirst : lex "é 'b'" = .ok [⟨.operator, "é", 0⟩, ⟨.character, "'b'", 2⟩] := by decide +kernel
  have hSecond : lex "c" = .ok [⟨.identifier, "c", 0⟩] := by decide +kernel
  exact ⟨hOpen, (lex_append_line _ _).1 _ hOpen, hFirst, hSecond,
    ((lex_append_line _ _).2 _ hFirst).1 _ hSecond⟩

end ProcLang
