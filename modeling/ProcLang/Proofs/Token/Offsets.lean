import ProcLang.Token.Lexer

/-! # Offsets of tokens

The counter is only asked for positions between characters, each behind the one before, and so it
tells how many characters there are before every piece. Lexing is then the same as scanning with a
count of characters, and what is known of the scanner holds of it.
-/

namespace ProcLang

set_option autoImplicit false

/-- The counter of a text that has passed the given characters. -/
def CharOffsets.behind (source front : List Char) : CharOffsets :=
  ⟨source, Text.byteSize front, front.length⟩

/-- The counter passes what lies between, whatever its characters take. -/
theorem CharOffsets.seek_behind (front between back : List Char) :
    (behind (front ++ (between ++ back)) front).seek (Text.byteSize (front ++ between)) =
      ((front ++ between).length, behind (front ++ (between ++ back)) (front ++ between)) := by
  have hSlice : Text.slice? (front ++ (between ++ back)) (Text.byteSize front)
      (Text.byteSize (front ++ between)) = some between :=
    Text.slice?_eq_some_iff.mpr ⟨front, back, rfl, rfl, rfl⟩
  simp only [seek, behind, hSlice, List.length_append]

namespace Lexer

variable {c : Char} {rest : List Char} {kind : TokenKind} {n : Nat}

theorem number_le (rest : List Char) : (number rest).2 ≤ rest.length := by
  have hWhole := (rest.takeWhile_prefix isDigit).length_le
  unfold number
  simp only
  split
  · rename_i digit more hDrop
    have hLength := congrArg List.length hDrop
    have hMore := (more.takeWhile_prefix isDigit).length_le
    rw [List.length_drop, List.length_cons, List.length_cons] at hLength
    split <;> simp only <;> omega
  · exact hWhole

theorem character?_le (h : character? rest = some n) : n ≤ rest.length := by
  unfold character? at h
  split at h
  · split at h <;> cases h
    simp
  · split at h <;> cases h
    simp
  · cases h

theorem bodyLength_le (rest : List Char) : bodyLength rest ≤ rest.length := by
  fun_induction bodyLength rest <;> grind

theorem string?_le (h : string? rest = some n) : n ≤ rest.length := by
  unfold string? at h
  split at h
  · rename_i hClosed
    cases h
    exact (List.getElem?_eq_some_iff.mp hClosed).1
  · cases h

/-- No rule takes more than there is. -/
theorem lexeme?_le (h : lexeme? c rest = some (kind, n)) : n ≤ rest.length := by
  unfold lexeme? at h
  split at h
  · cases h
    exact (rest.takeWhile_prefix continuesIdentifier).length_le
  split at h
  · have hNumber := number_le rest
    rwa [Option.some.inj h] at hNumber
  split at h
  · obtain ⟨m, hCharacter, hSame⟩ := Option.map_eq_some_iff.mp h
    cases hSame
    exact character?_le hCharacter
  split at h
  · obtain ⟨m, hString, hSame⟩ := Option.map_eq_some_iff.mp h
    cases hSame
    exact string?_le hString
  · cases h
    cases rest with
    | nil => simp
    | cons => split <;> simp

/-- The tokens of a text that has `offset` characters before it. -/
def scan (offset : Nat) : List Char → Except LexError (List Token)
  | [] => .ok []
  | c :: rest =>
    if isBlank c then scan (offset + 1) rest
    else
      match lexeme? c rest with
      | none => .error ⟨String.ofList (unmatched c rest), offset⟩
      | some (kind, n) => do
        let tokens ← scan (offset + 1 + n) (rest.drop n)
        return ⟨kind, String.ofList (c :: rest.take n), offset⟩ :: tokens
termination_by text => text.length

/-- By induction along the pieces: the counter stands behind the last piece, and between it and the
next one there are blanks. -/
theorem tokens_pieces (front between rest : List Char) :
    tokens (.behind (front ++ (between ++ rest)) front)
      (pieces (Text.byteSize (front ++ between)) rest) = scan (front ++ between).length rest := by
  generalize hOffset : (front ++ between).length = offset
  fun_induction scan offset rest generalizing front between with
  | case1 => rw [pieces, tokens]
  | case2 offset c rest hBlank ih =>
    have hNext := ih front (between ++ [c]) (by simp [← hOffset, Nat.add_assoc])
    rw [pieces, if_pos hBlank]
    simpa [Text.byteSize, Nat.add_assoc] using hNext
  | case3 offset c rest hBlank hNone =>
    rw [pieces, if_neg hBlank, hNone]
    simp only [tokens, CharOffsets.seek_behind, hOffset]
  | case4 offset c rest hBlank kind n hLexeme ih =>
    have hBound := lexeme?_le hLexeme
    have hNext := ih (front ++ between) (c :: rest.take n) (by grind)
    have hRest : c :: rest.take n ++ rest.drop n = c :: rest := by simp
    rw [pieces, if_neg hBlank, hLexeme]
    simp only [tokens, CharOffsets.seek_behind, hOffset]
    rw [hRest, List.append_assoc, Text.byteSize_append] at hNext
    rw [hNext]

end Lexer

theorem lex_eq_scan (text : String) : lex text = Lexer.scan 0 text.toList :=
  Lexer.tokens_pieces [] [] text.toList

end ProcLang
