import Mathlib.Data.List.TakeWhile
import ProcLang.Proofs.Token.Offsets
import ProcLang.Proofs.Typing.Success

/-! # Lexemes

A lexeme is what a token is, wherever it stands. The lexer gives each text the kind that its first
character announces, so that a keyword or a punctuation mark can be a token in one way only.
-/

namespace ProcLang

set_option autoImplicit false

structure Lexeme where
  kind : TokenKind
  text : String
deriving DecidableEq, Repr

def Token.lexeme (token : Token) : Lexeme :=
  ⟨token.kind, token.literal⟩

namespace Lexer

theorem isDigit_iff {c : Char} : isDigit c = true ↔ 48 ≤ c.toNat ∧ c.toNat ≤ 57 := by
  simp only [isDigit, Bool.and_eq_true, decide_eq_true_eq, Char.le_def, UInt32.le_iff_toNat_le]
  exact Iff.rfl

theorem isLetter_iff {c : Char} : isLetter c = true ↔
    97 ≤ c.toNat ∧ c.toNat ≤ 122 ∨ 65 ≤ c.toNat ∧ c.toNat ≤ 90 := by
  simp only [isLetter, Bool.or_eq_true, Bool.and_eq_true, decide_eq_true_eq, Char.le_def,
    UInt32.le_iff_toNat_le]
  exact Iff.rfl

theorem not_beginsIdentifier_of_isDigit {c : Char} (h : isDigit c = true) :
    beginsIdentifier c = false := by
  rw [isDigit_iff] at h
  rw [beginsIdentifier, Bool.or_eq_false_iff, beq_eq_false_iff_ne, Bool.eq_false_iff, ne_eq,
    isLetter_iff]
  constructor
  · omega
  · rintro rfl
    exact absurd h (by decide)

end Lexer

namespace Lexeme

/-- A keyword or a punctuation mark. -/
def fixed (text : String) : Lexeme :=
  ⟨if text.toList.head?.any Lexer.isLetter then .identifier else .operator, text⟩

def name (text : String) : Lexeme :=
  ⟨.identifier, text⟩

/-- The kinds of the lexemes that begin with a character. -/
def kinds (c : Char) : List TokenKind :=
  if Lexer.beginsIdentifier c then [.identifier]
  else if Lexer.isDigit c then [.integer, .decimal]
  else if c = '\'' then [.character]
  else if c = '"' then [.string]
  else [.operator]

/-- How the lexer makes lexemes, as far as their kinds and the values of numbers depend on it. -/
structure Formed (l : Lexeme) : Prop where
  kind_mem : ∃ c rest, l.text.toList = c :: rest ∧ l.kind ∈ kinds c
  integer : l.kind = .integer → ∀ c ∈ l.text.toList, Lexer.isDigit c = true
  decimal : l.kind = .decimal → ∃ whole fraction, l.text.toList = whole ++ '.' :: fraction ∧
    whole ≠ [] ∧ fraction ≠ [] ∧ ∀ c ∈ whole ++ fraction, Lexer.isDigit c = true

/-- Whether the lexer can make a text a keyword or a punctuation mark only. -/
def isFixed (text : String) : Bool :=
  text.toList.head?.any fun c => kinds c = [(fixed text).kind]

theorem Formed.eq_fixed {l : Lexeme} {text : String} (h : l.Formed) (hText : l.text = text)
    (hFixed : isFixed text = true) : l = fixed text := by
  obtain ⟨kind, literal⟩ := l
  obtain rfl := hText
  obtain ⟨c, rest, hFirst, hKind⟩ := h.kind_mem
  simp only [isFixed, hFirst, List.head?_cons, Option.any_some, decide_eq_true_eq] at hFixed
  rw [hFixed, List.mem_singleton] at hKind
  rw [fixed, Lexeme.mk.injEq]
  exact ⟨hKind, rfl⟩

end Lexeme

namespace Lexer

theorem take_length_takeWhile {α : Type} (p : α → Bool) (as : List α) :
    as.take (as.takeWhile p).length = as.takeWhile p :=
  (List.prefix_iff_eq_take.mp (List.takeWhile_prefix p)).symm

theorem mem_kinds_of_isDigit {c : Char} (h : isDigit c = true) :
    .integer ∈ Lexeme.kinds c ∧ .decimal ∈ Lexeme.kinds c := by
  simp [Lexeme.kinds, not_beginsIdentifier_of_isDigit h, h]

theorem isDigit_of_mem_cons {c : Char} {digits : List Char} (hFirst : isDigit c = true)
    (hDigits : ∀ d ∈ digits, isDigit d = true) : ∀ d ∈ c :: digits, isDigit d = true := by
  simpa [hFirst] using hDigits

theorem isDigit_of_mem_takeWhile {d : Char} {text : List Char} (h : d ∈ text.takeWhile isDigit) :
    isDigit d = true :=
  List.all_eq_true.mp List.all_takeWhile d h

theorem formed_integer {c : Char} {digits : List Char} (hFirst : isDigit c = true)
    (hDigits : ∀ d ∈ digits, isDigit d = true) :
    Lexeme.Formed ⟨.integer, String.ofList (c :: digits)⟩ where
  kind_mem := ⟨c, digits, String.toList_ofList, (mem_kinds_of_isDigit hFirst).1⟩
  integer _ := by
    rw [String.toList_ofList]
    exact isDigit_of_mem_cons hFirst hDigits
  decimal h := nomatch h

theorem formed_decimal {c d : Char} {whole fraction : List Char} (hFirst : isDigit c = true)
    (hPlace : isDigit d = true) (hDigits : ∀ d ∈ whole ++ fraction, isDigit d = true) :
    Lexeme.Formed ⟨.decimal, String.ofList (c :: (whole ++ '.' :: d :: fraction))⟩ where
  kind_mem := ⟨c, _, String.toList_ofList, (mem_kinds_of_isDigit hFirst).2⟩
  integer h := nomatch h
  decimal _ := by
    refine ⟨c :: whole, d :: fraction, String.toList_ofList, by simp, by simp, ?_⟩
    simpa [hFirst, hPlace, or_imp, forall_and] using hDigits

/-- The characters of a decimal behind its first: whole digits, the point, a digit and others. -/
theorem take_decimal (whole fraction rest : List Char) (point digit : Char) :
    (whole ++ point :: digit :: (fraction ++ rest)).take (whole.length + 2 + fraction.length) =
      whole ++ point :: digit :: fraction := by
  have hLength : whole.length + 2 + fraction.length =
      (whole ++ point :: digit :: fraction).length := by
    simp only [List.length_append, List.length_cons]
    omega
  rw [hLength, ← List.cons_append, ← List.cons_append, ← List.append_assoc, List.take_left]

/-- A number goes on with digits, or with digits, a point and a digit and others. -/
theorem number_cases (rest : List Char) :
    number rest = (.integer, (rest.takeWhile isDigit).length) ∨
    ∃ whole digit fraction more, rest = whole ++ '.' :: digit :: (fraction ++ more) ∧
      (∀ d ∈ whole, isDigit d = true) ∧ isDigit digit = true ∧ (∀ d ∈ fraction, isDigit d = true) ∧
      number rest = (.decimal, whole.length + 2 + fraction.length) := by
  unfold number
  simp only
  split
  · rename_i digit more hDrop
    split
    · rename_i hPlace
      refine .inr ⟨rest.takeWhile isDigit, digit, more.takeWhile isDigit, more.dropWhile isDigit, ?_,
        fun d => isDigit_of_mem_takeWhile, hPlace, fun d => isDigit_of_mem_takeWhile, rfl⟩
      rw [List.takeWhile_append_dropWhile, ← hDrop]
      conv_lhs => rw [← List.take_append_drop (rest.takeWhile isDigit).length rest]
      rw [take_length_takeWhile]
    · exact .inl rfl
  · exact .inl rfl

theorem formed_number {c : Char} {rest : List Char} (hDigit : isDigit c = true) :
    Lexeme.Formed ⟨(number rest).1, String.ofList (c :: rest.take (number rest).2)⟩ := by
  obtain hNumber | ⟨whole, digit, fraction, more, rfl, hWhole, hPlace, hFraction, hNumber⟩ :=
    number_cases rest
  · rw [hNumber, take_length_takeWhile]
    exact formed_integer hDigit fun d => isDigit_of_mem_takeWhile
  · rw [hNumber, take_decimal]
    refine formed_decimal hDigit hPlace fun d hd => ?_
    rcases List.mem_append.mp hd with hd | hd
    · exact hWhole d hd
    · exact hFraction d hd

theorem formed_of_mem_kinds {c : Char} {rest : List Char} {kind : TokenKind}
    (h : kind ∈ Lexeme.kinds c) (hNumber : kind ≠ .integer ∧ kind ≠ .decimal) :
    Lexeme.Formed ⟨kind, String.ofList (c :: rest)⟩ where
  kind_mem := ⟨c, rest, String.toList_ofList, h⟩
  integer hInteger := absurd hInteger hNumber.1
  decimal hDecimal := absurd hDecimal hNumber.2

theorem formed_of_lexeme? {c : Char} {rest : List Char} {kind : TokenKind} {n : Nat}
    (h : lexeme? c rest = some (kind, n)) :
    Lexeme.Formed ⟨kind, String.ofList (c :: rest.take n)⟩ := by
  unfold lexeme? at h
  split at h
  · rename_i hLetter
    cases h
    exact formed_of_mem_kinds (by simp [Lexeme.kinds, hLetter]) (by decide)
  rename_i hLetter
  split at h
  · rename_i hDigit
    have hNumber : Lexeme.Formed ⟨(number rest).1, _⟩ := formed_number hDigit
    rwa [Option.some.inj h] at hNumber
  rename_i hDigit
  split at h
  · rename_i hQuote
    obtain ⟨_, _, hKind⟩ := Option.map_eq_some_iff.mp h
    cases hKind
    subst hQuote
    exact formed_of_mem_kinds (by decide) (by decide)
  rename_i hQuote
  split at h
  · rename_i hQuotes
    obtain ⟨_, _, hKind⟩ := Option.map_eq_some_iff.mp h
    cases hKind
    subst hQuotes
    exact formed_of_mem_kinds (by decide) (by decide)
  · rename_i hQuotes
    cases h
    exact formed_of_mem_kinds (by simp [Lexeme.kinds, hLetter, hDigit, hQuote, hQuotes]) (by decide)

theorem formed_of_scan {offset : Nat} {text : List Char} {tokens : List Token}
    (h : scan offset text = .ok tokens) : ∀ token ∈ tokens, token.lexeme.Formed := by
  induction offset, text using scan.induct generalizing tokens with
  | case1 offset =>
    rw [scan] at h
    cases h
    simp
  | case2 offset c rest hBlank ih =>
    rw [scan, if_pos hBlank] at h
    exact ih h
  | case3 offset c rest hBlank hNone =>
    rw [scan, if_neg hBlank, hNone] at h
    cases h
  | case4 offset c rest hBlank kind n hLexeme ih =>
    rw [scan, if_neg hBlank, hLexeme] at h
    obtain ⟨others, hOthers, h⟩ := except_bind_ok h
    cases h
    intro token hToken
    rcases List.mem_cons.mp hToken with rfl | hToken
    · exact formed_of_lexeme? hLexeme
    · exact ih hOthers token hToken

end Lexer

theorem formed_of_lex {text : String} {tokens : List Token} (h : lex text = .ok tokens) :
    ∀ token ∈ tokens, token.lexeme.Formed :=
  Lexer.formed_of_scan (lex_eq_scan text ▸ h)

end ProcLang
