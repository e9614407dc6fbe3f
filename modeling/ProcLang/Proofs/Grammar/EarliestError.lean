import ProcLang.Proofs.Grammar.Decisions
import ProcLang.Proofs.Grammar.RoundTrip
import ProcLang.Proofs.Typing.Success

/-! # Where syntax errors are reported

A syntax error is reported at the first token that cannot stand where it stands: what precedes it is
the beginning of a program, and no program begins with it and what precedes it.
-/

namespace ProcLang

open ProcLang.Parser

set_option autoImplicit false

/-- Tokens that take up text, each behind those before it. -/
structure Spaced (tokens : List Token) : Prop where
  literal : ∀ token ∈ tokens, token.literal ≠ ""
  order : tokens.Pairwise fun first second => first.stop ≤ second.offset

/-- Where a token begins; behind the last one, where that ends. -/
def offsetAt (tokens : List Token) (k : Nat) : Nat :=
  match tokens[k]? with
  | some token => token.offset
  | none => (tokens.getLast?.map Token.stop).getD 0

theorem Token.offset_lt_stop {token : Token} (h : token.literal ≠ "") :
    token.offset < token.stop := by
  have hLength : token.literal.length ≠ 0 := by simpa using h
  rw [Token.stop]
  omega

section Offsets

variable {tokens : List Token} {i j k : Nat}

theorem offsetAt_getElem (h : k < tokens.length) : offsetAt tokens k = tokens[k].offset := by
  rw [offsetAt, List.getElem?_eq_getElem h]

theorem offsetAt_length :
    offsetAt tokens tokens.length = (tokens.getLast?.map Token.stop).getD 0 := by
  rw [offsetAt, List.getElem?_eq_none le_rfl]

namespace Spaced

theorem stop_le_stop (hSpaced : Spaced tokens) (hLess : i < j) (hBound : j < tokens.length) :
    tokens[i].stop ≤ tokens[j].stop := by
  have hOrder := List.pairwise_iff_getElem.mp hSpaced.order i j (hLess.trans hBound) hBound hLess
  exact hOrder.trans (Nat.le_add_right _ _)

theorem stop_le_offsetAt (hSpaced : Spaced tokens) (hInside : i < tokens.length) (hLess : i < j)
    (hBound : j ≤ tokens.length) : tokens[i].stop ≤ offsetAt tokens j := by
  rcases hBound.lt_or_eq with hBound | rfl
  · rw [offsetAt_getElem hBound]
    exact List.pairwise_iff_getElem.mp hSpaced.order i j hInside hBound hLess
  · have hLast : tokens.length - 1 < tokens.length := by omega
    rw [offsetAt_length, List.getLast?_eq_getElem?, List.getElem?_eq_getElem hLast, Option.map_some,
      Option.getD_some]
    rcases (Nat.le_sub_one_of_lt hLess).lt_or_eq with hLess | rfl
    · exact hSpaced.stop_le_stop hLess hLast
    · exact le_rfl

theorem offsetAt_lt (hSpaced : Spaced tokens) (hLess : i < j) (hBound : j ≤ tokens.length) :
    offsetAt tokens i < offsetAt tokens j := by
  have hInside : i < tokens.length := hLess.trans_le hBound
  rw [offsetAt_getElem hInside]
  exact (Token.offset_lt_stop (hSpaced.literal _ (List.getElem_mem hInside))).trans_le
    (hSpaced.stop_le_offsetAt hInside hLess hBound)

theorem offsetAt_inj (hSpaced : Spaced tokens) (hi : i ≤ tokens.length) (hj : j ≤ tokens.length)
    (h : offsetAt tokens i = offsetAt tokens j) : i = j := by
  rcases Nat.lt_trichotomy i j with hLess | hSame | hLess
  · exact absurd h (hSpaced.offsetAt_lt hLess hj).ne
  · exact hSame
  · exact absurd h (hSpaced.offsetAt_lt hLess hi).ne'

end Spaced

end Offsets

namespace Lexer

theorem stop_scanned (kind : TokenKind) (c : Char) (rest : List Char) (n offset : Nat) :
    (Token.mk kind (String.ofList (c :: rest.take n)) offset).stop ≤ offset + 1 + n := by
  change offset + (String.ofList (c :: rest.take n)).length ≤ offset + 1 + n
  rw [String.length_ofList, List.length_cons, List.length_take]
  omega

/-- All tokens begin where the scan does, or behind. -/
theorem spaced_of_scan {offset : Nat} {text : List Char} {tokens : List Token}
    (h : scan offset text = .ok tokens) :
    Spaced tokens ∧ ∀ token ∈ tokens, offset ≤ token.offset := by
  induction offset, text using scan.induct generalizing tokens with
  | case1 offset =>
    rw [scan] at h
    cases h
    exact ⟨⟨by simp, .nil⟩, by simp⟩
  | case2 offset c rest hBlank ih =>
    rw [scan, if_pos hBlank] at h
    obtain ⟨hSpaced, hBehind⟩ := ih h
    exact ⟨hSpaced, fun token hToken => (Nat.le_succ offset).trans (hBehind token hToken)⟩
  | case3 offset c rest hBlank hNone =>
    rw [scan, if_neg hBlank, hNone] at h
    cases h
  | case4 offset c rest hBlank kind n hLexeme ih =>
    rw [scan, if_neg hBlank, hLexeme] at h
    obtain ⟨others, hOthers, h⟩ := except_bind_ok h
    cases h
    obtain ⟨hSpaced, hBehind⟩ := ih hOthers
    refine ⟨⟨List.forall_mem_cons.mpr ⟨?_, hSpaced.literal⟩, .cons ?_ hSpaced.order⟩,
      List.forall_mem_cons.mpr ⟨le_rfl, ?_⟩⟩
    · simp
    · exact fun token hToken => (stop_scanned kind c rest n offset).trans (hBehind token hToken)
    · intro token hToken
      have hNext := hBehind token hToken
      omega

end Lexer

theorem spaced_of_lex {text : String} {tokens : List Token} (h : lex text = .ok tokens) :
    Spaced tokens :=
  (Lexer.spaced_of_scan (lex_eq_scan text ▸ h)).1

theorem errorOffset_eq_offsetAt (front back : List Token) :
    (Cursor.mk back (Cursor.ofTokens (front ++ back)).stop).errorOffset =
      offsetAt (front ++ back) front.length := by
  cases back with
  | nil =>
    rw [List.append_nil, offsetAt_length]
    rfl
  | cons token back =>
    rw [offsetAt, List.getElem?_append_right le_rfl, Nat.sub_self]
    rfl

/-- The parser stops at `back`, where others could have been. -/
structure Refused (front back : List Token) (fault : ParseFault) : Prop where
  reads : Reads Grammar.source (front.map Token.lexeme) (.error fault)
    (back.head?.map Token.lexeme)
  completes : ∃ more source, parse (front ++ more) = .ok source

namespace Refused

variable {front back : List Token} {token : Token} {fault : ParseFault}

theorem parse_eq (h : Refused front back fault) :
    parse (front ++ back) = .error ⟨fault, offsetAt (front ++ back) front.length⟩ := by
  rw [← errorOffset_eq_offsetAt]
  exact parse_append_of_reads h.reads

/-- Of what the parser stops at it looks at the first token only. -/
theorem replace (h : Refused front (token :: back) fault) (others : List Token) :
    Refused front (token :: others) fault :=
  ⟨h.reads, h.completes⟩

end Refused

theorem accepted_or_refused (tokens : List Token) :
    (∃ source, parse tokens = .ok source) ∨
      ∃ front back fault, tokens = front ++ back ∧ Refused front back fault := by
  have hPredictive := Grammar.predictive_source (tokens.length + 1)
  have hDecided := hPredictive.decided (tokens.map Token.lexeme) (by simp)
  cases hDecided with
  | reads u rest source hSplit hHere =>
    obtain ⟨front, back, rfl, rfl, rfl⟩ := List.map_eq_append_iff.mp hSplit
    rw [List.head?_map] at hHere
    exact .inl ⟨source, parse_append_of_reads hHere⟩
  | rejects u rest fault v source hSplit hHere hCompletes =>
    obtain ⟨front, back, rfl, rfl, rfl⟩ := List.map_eq_append_iff.mp hSplit
    rw [List.head?_map] at hHere
    refine .inr ⟨front, back, fault, rfl, hHere, v.map fun l => ⟨l.kind, l.text, 0⟩, source, ?_⟩
    refine parse_of_reads (hCompletes.reads none rfl) ?_
    rw [List.map_append, List.map_map]
    exact congrArg _ (List.map_id v)

/-- If tokens are no program, the error stands at the first one that cannot be in its place. -/
theorem parse_error_earliest {tokens : List Token} {e : ParseError} (hSpaced : Spaced tokens)
    (h : parse tokens = .error e) :
    (∃! k, k ≤ tokens.length ∧ e.offset = offsetAt tokens k) ∧
      ∀ k, k ≤ tokens.length → e.offset = offsetAt tokens k →
        (∃ more source, parse (tokens.take k ++ more) = .ok source) ∧
        (k < tokens.length → ∀ others, parse (tokens.take (k + 1) ++ others) = .error e) := by
  rcases accepted_or_refused tokens with ⟨source, hParse⟩ | ⟨front, back, fault, rfl, hRefused⟩
  · rw [h] at hParse
    cases hParse
  obtain rfl : e = ⟨fault, offsetAt (front ++ back) front.length⟩ :=
    Except.error.inj (h.symm.trans hRefused.parse_eq)
  have hBound : front.length ≤ (front ++ back).length := by simp
  -- No two tokens begin at one offset, so that of the error stands for one token.
  have hUnique : ∀ k, k ≤ (front ++ back).length →
      offsetAt (front ++ back) front.length = offsetAt (front ++ back) k → k = front.length :=
    fun k hk hOffset => (hSpaced.offsetAt_inj hBound hk hOffset).symm
  refine ⟨⟨front.length, ⟨hBound, rfl⟩, fun k ⟨hk, hOffset⟩ => hUnique k hk hOffset⟩, ?_⟩
  intro k hk hOffset
  obtain rfl := hUnique k hk hOffset
  refine ⟨?_, fun hInside others => ?_⟩
  · rw [List.take_left]
    exact hRefused.completes
  cases back with
  | nil => simp at hInside
  | cons token back =>
    have hTake : (front ++ token :: back).take (front.length + 1) ++ others =
        front ++ token :: others := by
      rw [List.take_length_add_append]
      exact List.append_assoc front [token] others
    rw [hTake, (hRefused.replace others).parse_eq, ← errorOffset_eq_offsetAt,
      ← errorOffset_eq_offsetAt]
    rfl

/-- The tokens of a constant without a value. -/
def incomplete : List Token :=
  [⟨.identifier, "VAL", 0⟩, ⟨.identifier, "x", 4⟩, ⟨.operator, "=", 6⟩, ⟨.operator, ";", 8⟩]

theorem parse_error_earliest_incomplete :
    lex "VAL x = ;" = .ok incomplete ∧
      parse incomplete = .error ⟨.expectedExpression (some ";"), 8⟩ ∧
      (∃! k, k ≤ 4 ∧ 8 = offsetAt incomplete k) ∧
      (∃ more source, parse (incomplete.take 3 ++ more) = .ok source) ∧
      ∀ others, parse (incomplete ++ others) = .error ⟨.expectedExpression (some ";"), 8⟩ := by
  have hLex : lex "VAL x = ;" = .ok incomplete := by decide +kernel
  have hParse : parse incomplete = .error ⟨.expectedExpression (some ";"), 8⟩ := rfl
  obtain ⟨hUnique, hEarliest⟩ := parse_error_earliest (spaced_of_lex hLex) hParse
  obtain ⟨hMore, hOthers⟩ := hEarliest 3 (by decide) rfl
  exact ⟨hLex, hParse, hUnique, hMore, hOthers (by decide)⟩

end ProcLang
