import ProcLang.Proofs.Token.Rules

/-! # Maximal munch

The lexer decides by single characters which token comes next. It is the longest text that obeys any
of the rules, so that lexing is what the rules alone say: skip blanks, take the longest match, and go
on, up to a quote with which no match begins.
-/

namespace ProcLang

set_option autoImplicit false

open scoped Computability

namespace Lexer

variable {c : Char} {rest text : List Char} {kind : TokenKind} {n : Nat}

theorem lexeme?_of_beginsIdentifier (h : beginsIdentifier c = true) :
    lexeme? c rest = some (.identifier, (rest.takeWhile continuesIdentifier).length) := by
  rw [lexeme?, if_pos h]

theorem lexeme?_of_isDigit (h : isDigit c = true) : lexeme? c rest = some (number rest) := by
  rw [lexeme?, not_beginsIdentifier_of_isDigit h, if_neg (by decide), if_pos h]

theorem lexeme?_of_isSymbol (h : isSymbol c = true) :
    lexeme? c rest = some (.operator, if rest.head?.any (isPair c) then 1 else 0) := by
  simp only [isSymbol, Bool.not_eq_true', Bool.or_eq_false_iff, beq_eq_false_iff_ne] at h
  obtain ⟨⟨⟨⟨⟨-, hLetter⟩, hDigit⟩, hAt⟩, hQuote⟩, hQuotes⟩ := h
  simp [lexeme?, beginsIdentifier, hLetter, hDigit, hAt, hQuote, hQuotes]

theorem lexeme?_quote : lexeme? '\'' rest = (character? rest).map (.character, ·) :=
  rfl

theorem lexeme?_quotes : lexeme? '"' rest = (string? rest).map (.string, ·) :=
  rfl

theorem take_takeWhile_mem (p : Char → Bool) (rest : List Char) :
    rest.take (rest.takeWhile p).length ∈ (one p)∗ := by
  rw [take_length_takeWhile, mem_one_kstar]
  exact List.all_eq_true.mp List.all_takeWhile

theorem number_mem (h : isDigit c = true) (rest : List Char) :
    c :: rest.take (number rest).2 ∈ (number rest).1.rule := by
  obtain hNumber | ⟨whole, digit, fraction, more, rfl, hWhole, hDigit, hFraction, hNumber⟩ :=
    number_cases rest
  · rw [hNumber]
    exact mem_one_mul.mpr ⟨c, _, rfl, h, take_takeWhile_mem isDigit rest⟩
  · rw [hNumber, take_decimal]
    refine mem_rule_decimal.mpr ⟨c :: whole, digit :: fraction, rfl, ?_, ?_⟩
    · exact mem_digits.mpr ⟨by simp, isDigit_of_mem_cons h hWhole⟩
    · exact mem_digits.mpr ⟨by simp, isDigit_of_mem_cons hDigit hFraction⟩

theorem character?_mem (h : character? rest = some n) :
    '\'' :: rest.take n ∈ TokenKind.character.rule := by
  unfold character? at h
  split at h
  · rename_i escaped more
    split at h
    · cases h
    · rename_i hBreak
      cases h
      exact mem_quoted.mpr ⟨['\\', escaped], rfl,
        mem_piece.mpr (.inr ⟨escaped, rfl, eq_false_of_ne_true hBreak⟩)⟩
  · rename_i d more _
    split at h
    · rename_i hPlain
      cases h
      exact mem_quoted.mpr ⟨[d], rfl, mem_piece.mpr (.inl ⟨d, rfl, hPlain⟩)⟩
    · cases h
  · cases h

theorem append_mem_kstar {l : Language Char} {first others : List Char} (hFirst : first ∈ l)
    (hOthers : others ∈ l∗) : first ++ others ∈ l∗ := by
  obtain ⟨pieces, rfl, hPieces⟩ := hOthers
  exact ⟨first :: pieces, rfl, List.forall_mem_cons.mpr ⟨hFirst, hPieces⟩⟩

/-- The body of a string consists of pieces. -/
theorem bodyLength_mem (rest : List Char) :
    rest.take (bodyLength rest) ∈ (piece '"')∗ := by
  induction rest using bodyLength.induct with
  | case1 escaped rest hBreak =>
    rw [bodyLength, if_pos hBreak]
    exact Language.nil_mem_kstar _
  | case2 escaped rest hBreak ih =>
    rw [bodyLength, if_neg hBreak]
    have hPiece : ['\\', escaped] ∈ piece '"' :=
      mem_piece.mpr (.inr ⟨escaped, rfl, eq_false_of_ne_true hBreak⟩)
    exact append_mem_kstar hPiece ih
  | case3 c rest hOther hPlain ih =>
    rw [bodyLength, if_pos hPlain]
    · have hPiece : [c] ∈ piece '"' := mem_piece.mpr (.inl ⟨c, rfl, hPlain⟩)
      exact append_mem_kstar hPiece ih
    · exact hOther
  | case4 c rest hOther hPlain =>
    rw [bodyLength, if_neg hPlain]
    · exact Language.nil_mem_kstar _
    · exact hOther
  | case5 => exact Language.nil_mem_kstar _

theorem string?_mem (h : string? rest = some n) :
    '"' :: rest.take n ∈ TokenKind.string.rule := by
  unfold string? at h
  split at h
  · rename_i hClosed
    cases h
    obtain ⟨hLength, hQuote⟩ := List.getElem?_eq_some_iff.mp hClosed
    refine mem_quoted.mpr ⟨rest.take (bodyLength rest), ?_, bodyLength_mem rest⟩
    rw [List.take_succ_eq_append_getElem hLength, hQuote]
  · cases h

theorem lexeme?_mem (hBlank : isBlank c = false) (h : lexeme? c rest = some (kind, n)) :
    c :: rest.take n ∈ kind.rule := by
  unfold lexeme? at h
  split at h
  · rename_i hFirst
    cases h
    exact mem_one_mul.mpr ⟨c, _, rfl, hFirst, take_takeWhile_mem continuesIdentifier rest⟩
  rename_i hLetter
  split at h
  · rename_i hDigit
    have hNumber := number_mem hDigit rest
    rwa [Option.some.inj h] at hNumber
  rename_i hDigit
  split at h
  · rename_i hQuote
    subst hQuote
    obtain ⟨m, hCharacter, hSame⟩ := Option.map_eq_some_iff.mp h
    cases hSame
    exact character?_mem hCharacter
  rename_i hQuote
  split at h
  · rename_i hQuotes
    subst hQuotes
    obtain ⟨m, hString, hSame⟩ := Option.map_eq_some_iff.mp h
    cases hSame
    exact string?_mem hString
  · rename_i hQuotes
    have hSymbol : isSymbol c = true := by
      simp only [beginsIdentifier, Bool.or_eq_true, not_or, Bool.not_eq_true] at hLetter hDigit
      simp [isSymbol, hBlank, hLetter, hDigit, hQuote, hQuotes]
    cases h
    cases rest with
    | nil => exact mem_rule_operator.mpr (.inr ⟨c, rfl, hSymbol⟩)
    | cons d more =>
      by_cases hPair : isPair c d = true
      · simp only [List.head?_cons, Option.any_some, hPair, if_true]
        exact mem_rule_operator.mpr (.inl ⟨c, d, rfl, hPair⟩)
      · simp only [List.head?_cons, Option.any_some, hPair]
        exact mem_rule_operator.mpr (.inr ⟨c, rfl, hSymbol⟩)

theorem length_le_takeWhile {p : Char → Bool} {other : List Char} (h : other <+: text)
    (hAll : ∀ d ∈ other, p d = true) : other.length ≤ (text.takeWhile p).length := by
  obtain ⟨more, rfl⟩ := h
  rw [List.takeWhile_append_of_pos hAll, List.length_append]
  exact Nat.le_add_right _ _

theorem number_decimal {whole more : List Char} {digit : Char}
    (hWhole : ∀ d ∈ whole, isDigit d = true) (hDigit : isDigit digit = true) :
    number (whole ++ '.' :: digit :: more) =
      (.decimal, whole.length + 2 + (more.takeWhile isDigit).length) := by
  have hTake : (whole ++ '.' :: digit :: more).takeWhile isDigit = whole := by
    rw [List.takeWhile_append_of_pos hWhole, List.takeWhile_cons_of_neg (by decide), List.append_nil]
  simp only [number, hTake, List.drop_left, hDigit, if_true]

theorem length_takeWhile_le_number (rest : List Char) :
    (rest.takeWhile isDigit).length ≤ (number rest).2 := by
  unfold number
  simp only
  split
  · split
    · simp only
      omega
    · exact Nat.le_refl _
  · exact Nat.le_refl _

theorem length_le_number_of_digits {other : List Char} (h : other ∈ digits)
    (hPrefix : other <+: c :: rest) : isDigit c = true ∧ other.length ≤ (number rest).2 + 1 := by
  obtain ⟨d, tail, rfl, hDigit, hTail⟩ := mem_one_mul.mp h
  obtain ⟨rfl, hTailPrefix⟩ := List.cons_prefix_cons.mp hPrefix
  have hLength := length_le_takeWhile hTailPrefix (mem_one_kstar.mp hTail)
  have hNumber := length_takeWhile_le_number rest
  exact ⟨hDigit, by simp only [List.length_cons]; omega⟩

theorem length_le_number_of_decimal {other : List Char} (h : other ∈ TokenKind.decimal.rule)
    (hPrefix : other <+: c :: rest) : isDigit c = true ∧ other.length ≤ (number rest).2 + 1 := by
  obtain ⟨whole, fraction, rfl, hWhole, hFraction⟩ := mem_rule_decimal.mp h
  obtain ⟨first, whole, rfl, hFirst, hWhole⟩ := mem_one_mul.mp hWhole
  obtain ⟨digit, fraction, rfl, hDigit, hFraction⟩ := mem_one_mul.mp hFraction
  obtain ⟨more, hText⟩ := hPrefix
  obtain ⟨rfl, rfl⟩ : first = c ∧ whole ++ '.' :: digit :: (fraction ++ more) = rest := by
    simpa using hText
  refine ⟨hFirst, ?_⟩
  have hLength := length_le_takeWhile (List.prefix_append fraction more) (mem_one_kstar.mp hFraction)
  rw [number_decimal (mem_one_kstar.mp hWhole) hDigit]
  simp only [List.length_append, List.length_cons]
  omega

theorem ne_backslash_of_isPlain {quote : Char} (h : isPlain quote c = true) : c ≠ '\\' := by
  rintro rfl
  simp [isPlain] at h

theorem character?_of_piece {body more : List Char} (h : body ∈ piece '\'') :
    character? (body ++ '\'' :: more) = some (body.length + 1) := by
  obtain ⟨d, rfl, hPlain⟩ | ⟨d, rfl, hBreak⟩ := mem_piece.mp h
  · rw [List.singleton_append, character?]
    · exact if_pos hPlain
    · intro _ hEscape
      exact absurd hEscape (ne_backslash_of_isPlain hPlain)
  · exact if_neg (by simp [hBreak])

theorem bodyLength_append {body more : List Char} (h : body ∈ (piece '"')∗) :
    bodyLength (body ++ '"' :: more) = body.length := by
  obtain ⟨pieces, rfl, hPieces⟩ := h
  induction pieces with
  | nil =>
    rw [List.flatten_nil, List.nil_append, bodyLength]
    · exact if_neg (by decide)
    · nofun
  | cons first pieces ih =>
    obtain ⟨hFirst, hPieces⟩ := List.forall_mem_cons.mp hPieces
    have hRest := ih hPieces
    rw [List.flatten_cons, List.append_assoc, List.length_append]
    obtain ⟨d, rfl, hPlain⟩ | ⟨d, rfl, hBreak⟩ := mem_piece.mp hFirst
    · rw [List.singleton_append, bodyLength, if_pos hPlain, hRest]
      · exact Nat.add_comm _ _
      · intro _ _ hEscape
        exact absurd hEscape (ne_backslash_of_isPlain hPlain)
    · rw [List.cons_append, List.singleton_append, bodyLength, if_neg (by simp [hBreak]), hRest]
      exact Nat.add_comm _ _

theorem string?_of_pieces {body more : List Char} (h : body ∈ (piece '"')∗) :
    string? (body ++ '"' :: more) = some (body.length + 1) := by
  simp [string?, bodyLength_append h]

/-- Where a text begins that obeys a rule, a token is decided on that is at least as long. -/
theorem lexeme?_of_rule {other : List Char} (h : other ∈ kind.rule) (hPrefix : other <+: c :: rest) :
    ∃ kind' n, lexeme? c rest = some (kind', n) ∧ other.length ≤ n + 1 := by
  cases kind with
  | identifier =>
    obtain ⟨d, tail, rfl, hFirst, hTail⟩ := mem_rule_identifier.mp h
    obtain ⟨rfl, hTailPrefix⟩ := List.cons_prefix_cons.mp hPrefix
    exact ⟨_, _, lexeme?_of_beginsIdentifier hFirst,
      Nat.succ_le_succ (length_le_takeWhile hTailPrefix hTail)⟩
  | integer =>
    obtain ⟨hDigit, hLength⟩ := length_le_number_of_digits h hPrefix
    exact ⟨_, _, lexeme?_of_isDigit hDigit, hLength⟩
  | decimal =>
    obtain ⟨hDigit, hLength⟩ := length_le_number_of_decimal h hPrefix
    exact ⟨_, _, lexeme?_of_isDigit hDigit, hLength⟩
  | character =>
    obtain ⟨body, rfl, hBody⟩ := mem_quoted.mp h
    obtain ⟨more, hText⟩ := hPrefix
    obtain ⟨rfl, rfl⟩ : '\'' = c ∧ body ++ '\'' :: more = rest := by simpa using hText
    exact ⟨_, _, by rw [lexeme?_quote, character?_of_piece hBody]; rfl, by simp⟩
  | string =>
    obtain ⟨body, rfl, hBody⟩ := mem_quoted.mp h
    obtain ⟨more, hText⟩ := hPrefix
    obtain ⟨rfl, rfl⟩ : '"' = c ∧ body ++ '"' :: more = rest := by simpa using hText
    exact ⟨_, _, by rw [lexeme?_quotes, string?_of_pieces hBody]; rfl, by simp⟩
  | operator =>
    obtain ⟨first, second, rfl, hPair⟩ | ⟨d, rfl, hSymbol⟩ := mem_rule_operator.mp h
    · obtain ⟨rfl, more, rfl⟩ := List.cons_prefix_cons.mp hPrefix
      exact ⟨_, _, lexeme?_of_isSymbol (isSymbol_of_isPair hPair), by simp [hPair]⟩
    · obtain ⟨rfl, -⟩ := List.cons_prefix_cons.mp hPrefix
      exact ⟨_, _, lexeme?_of_isSymbol hSymbol, by simp⟩

/-- Some rule matches at the beginning of the text. -/
def Matches (text : List Char) : Prop :=
  ∃ kind lexeme, lexeme ∈ TokenKind.rule kind ∧ lexeme <+: text

/-- In front of `rest`, the longest text that obeys any rule is `lexeme`, and it obeys that of
`kind`. -/
structure Munch (kind : TokenKind) (lexeme rest : List Char) : Prop where
  mem_rule : lexeme ∈ kind.rule
  longest : ∀ other kind', other ∈ TokenKind.rule kind' → other <+: lexeme ++ rest →
    other.length ≤ lexeme.length

theorem munch_of_lexeme? (hBlank : isBlank c = false) (h : lexeme? c rest = some (kind, n)) :
    Munch kind (c :: rest.take n) (rest.drop n) where
  mem_rule := lexeme?_mem hBlank h
  longest other kind' hOther hPrefix := by
    rw [List.cons_append, List.take_append_drop] at hPrefix
    obtain ⟨_, _, hSame, hLength⟩ := lexeme?_of_rule hOther hPrefix
    rw [h] at hSame
    cases hSame
    rw [List.length_cons, List.length_take, Nat.min_eq_left (lexeme?_le h)]
    exact hLength

theorem Munch.lexeme?_eq {lexeme : List Char} (h : Munch kind (c :: lexeme) rest)
    (hBlank : isBlank c = false) : lexeme? c (lexeme ++ rest) = some (kind, lexeme.length) := by
  have hWhole : c :: lexeme <+: c :: (lexeme ++ rest) := List.prefix_append (c :: lexeme) rest
  obtain ⟨found, n, hFound, hLength⟩ := lexeme?_of_rule h.mem_rule hWhole
  have hMem := lexeme?_mem hBlank hFound
  have hBound := lexeme?_le hFound
  have hPrefix : c :: (lexeme ++ rest).take n <+: c :: lexeme ++ rest :=
    List.cons_prefix_cons.mpr ⟨rfl, List.take_prefix n _⟩
  have hLongest := h.longest _ found hMem hPrefix
  simp only [List.length_cons, List.length_take, Nat.min_eq_left hBound] at hLength hLongest
  obtain rfl : n = lexeme.length := by omega
  rw [List.take_left] at hMem
  rw [hFound, kind_eq_of_rule hMem h.mem_rule]

theorem not_matches_of_lexeme? (h : lexeme? c rest = none) :
    ¬Matches (c :: rest) ∧ (c = '\'' ∨ c = '"') := by
  constructor
  · rintro ⟨kind, lexeme, hRule, hPrefix⟩
    obtain ⟨_, _, hSome, -⟩ := lexeme?_of_rule hRule hPrefix
    rw [h] at hSome
    cases hSome
  · unfold lexeme? at h
    grind

/-- The longest run of blanks in front of `rest`. -/
structure Skips (blanks rest : List Char) : Prop where
  isBlank : ∀ c ∈ blanks, Lexer.isBlank c = true
  longest : ∀ c, rest.head? = some c → Lexer.isBlank c = false

/-- Scanning has passed a text with these tokens, and the rest begins at a scan position. -/
inductive Scanned : List Char → List Token → List Char → Prop
  | start {blanks rest} (hSkips : Skips blanks rest) : Scanned blanks [] rest
  | next {before tokens kind lexeme blanks rest}
      (hScanned : Scanned before tokens (lexeme ++ (blanks ++ rest)))
      (hMunch : Munch kind lexeme (blanks ++ rest)) (hSkips : Skips blanks rest) :
    Scanned (before ++ (lexeme ++ blanks))
      (tokens ++ [⟨kind, String.ofList lexeme, before.length⟩]) rest

theorem skips_dropWhile (text : List Char) :
    Skips (text.takeWhile isBlank) (text.dropWhile isBlank) where
  isBlank := List.all_eq_true.mp List.all_takeWhile
  longest c hc := by
    have hNot := List.head?_dropWhile_not isBlank text
    rw [hc] at hNot
    simpa using hNot

theorem Skips.of_prefix {blanks rest' : List Char} (h : Skips blanks rest) (hPrefix : rest' <+: rest) :
    Skips blanks rest' where
  isBlank := h.isBlank
  longest c hc := by
    obtain ⟨more, rfl⟩ := hPrefix
    exact h.longest c (by rw [List.head?_append, hc, Option.some_or])

theorem scan_blanks {blanks : List Char} (h : ∀ c ∈ blanks, isBlank c = true) (offset : Nat) :
    scan offset (blanks ++ rest) = scan (offset + blanks.length) rest := by
  induction blanks generalizing offset with
  | nil => rfl
  | cons c blanks ih =>
    obtain ⟨hBlank, hOthers⟩ := List.forall_mem_cons.mp h
    rw [List.cons_append, scan, if_pos hBlank, ih hOthers, List.length_cons]
    congr 1
    omega

theorem scan_munch {lexeme : List Char} (h : Munch kind (c :: lexeme) rest)
    (hBlank : isBlank c = false) (offset : Nat) :
    scan offset (c :: lexeme ++ rest) = (scan (offset + (c :: lexeme).length) rest).map
      (⟨kind, String.ofList (c :: lexeme), offset⟩ :: ·) := by
  rw [List.cons_append, scan, if_neg (by simp [hBlank]), h.lexeme?_eq hBlank]
  simp only [List.take_left, List.drop_left, List.length_cons]
  rw [Nat.add_assoc, Nat.add_comm 1]
  cases scan (offset + (lexeme.length + 1)) rest <;> rfl

namespace Scanned

variable {before : List Char} {tokens : List Token}

theorem not_isBlank (h : Scanned before tokens (c :: rest)) : isBlank c = false := by
  cases h with
  | start hSkips => exact hSkips.longest c rfl
  | next _ _ hSkips => exact hSkips.longest c rfl

/-- What was scanned does not depend on the end of the text. -/
theorem of_prefix {rest' : List Char} (h : Scanned before tokens rest) (hPrefix : rest' <+: rest) :
    Scanned before tokens rest' := by
  induction h generalizing rest' with
  | start hSkips => exact .start (hSkips.of_prefix hPrefix)
  | @next before tokens kind lexeme blanks rest hScanned hMunch hSkips ih =>
    have hBlanks : blanks ++ rest' <+: blanks ++ rest := (List.prefix_append_right_inj blanks).mpr hPrefix
    have hLexeme : lexeme ++ (blanks ++ rest') <+: lexeme ++ (blanks ++ rest) :=
      (List.prefix_append_right_inj lexeme).mpr hBlanks
    refine .next (ih hLexeme) ⟨hMunch.mem_rule, ?_⟩ (hSkips.of_prefix hPrefix)
    exact fun other kind' hOther hFront => hMunch.longest other kind' hOther (hFront.trans hLexeme)

theorem scan_eq (h : Scanned before tokens rest) :
    scan 0 (before ++ rest) = (scan before.length rest).map (tokens ++ ·) := by
  induction h with
  | @start blanks rest hSkips =>
    rw [scan_blanks hSkips.isBlank, Nat.zero_add]
    cases scan blanks.length rest <;> rfl
  | @next before tokens kind lexeme blanks rest hScanned hMunch hSkips ih =>
    obtain ⟨c, lexeme, rfl, -⟩ := kind_mem_of_rule hMunch.mem_rule
    rw [List.append_assoc, List.append_assoc, ih, scan_munch hMunch hScanned.not_isBlank,
      scan_blanks hSkips.isBlank, List.length_append, List.length_append, Nat.add_assoc]
    cases scan (before.length + ((c :: lexeme).length + blanks.length)) rest with
    | error error => rfl
    | ok others => simp [Except.map]

/-- Scanning goes on to the next position where a token is decided on. -/
theorem step (h : Scanned before tokens (c :: rest)) (hLexeme : lexeme? c rest = some (kind, n)) :
    ∃ before' tokens' rest', Scanned before' tokens' rest' ∧
      before' ++ rest' = before ++ c :: rest ∧ rest'.length < (c :: rest).length := by
  have hMunch := munch_of_lexeme? h.not_isBlank hLexeme
  have hSplit : (rest.drop n).takeWhile isBlank ++ (rest.drop n).dropWhile isBlank = rest.drop n :=
    List.takeWhile_append_dropWhile
  have hRest : c :: rest = (c :: rest.take n) ++ rest.drop n := by
    rw [List.cons_append, List.take_append_drop]
  have hSkips := skips_dropWhile (rest.drop n)
  rw [hRest, ← hSplit] at h
  rw [← hSplit] at hMunch
  refine ⟨_, _, _, .next h hMunch hSkips, ?_, ?_⟩
  · rw [List.append_assoc, List.append_assoc, hSplit, ← hRest]
  · have hLength := congrArg List.length hSplit
    simp only [List.length_append, List.length_drop, List.length_cons] at hLength ⊢
    omega

/-- Scanning ends at the end of the text, or at a position where no token is decided on. -/
theorem ends (h : Scanned before tokens rest) : (∃ tokens', Scanned (before ++ rest) tokens' []) ∨
    ∃ before' tokens' c rest', before' ++ c :: rest' = before ++ rest ∧
      Scanned before' tokens' (c :: rest') ∧ lexeme? c rest' = none := by
  induction hSize : rest.length using Nat.strong_induction_on generalizing before tokens rest with
  | _ size ih =>
    subst hSize
    cases rest with
    | nil => exact .inl ⟨tokens, by rwa [List.append_nil]⟩
    | cons c rest =>
      cases hLexeme : lexeme? c rest with
      | none => exact .inr ⟨before, tokens, c, rest, rfl, h, hLexeme⟩
      | some found =>
        obtain ⟨before', tokens', rest', hNext, hSame, hShorter⟩ := h.step hLexeme
        rw [← hSame]
        exact ih _ hShorter hNext rfl

theorem scan_eq_ok (h : Scanned before tokens []) : scan 0 before = .ok tokens := by
  have hScan := h.scan_eq
  rw [List.append_nil, scan] at hScan
  rw [hScan, Except.map, List.append_nil]

theorem scan_eq_error (h : Scanned before tokens (c :: rest)) (hNone : lexeme? c rest = none) :
    scan 0 (before ++ c :: rest) = .error ⟨String.ofList (unmatched c rest), before.length⟩ := by
  rw [h.scan_eq, scan, if_neg (by simp [h.not_isBlank]), hNone]
  rfl

theorem matches_iff (h : Scanned before tokens (c :: rest)) :
    Matches (c :: rest) ↔ (lexeme? c rest).isSome := by
  cases hLexeme : lexeme? c rest with
  | none => simp [(not_matches_of_lexeme? hLexeme).1]
  | some found =>
    have hMunch := munch_of_lexeme? h.not_isBlank hLexeme
    have hPrefix : c :: rest.take found.2 <+: c :: rest :=
      List.cons_prefix_cons.mpr ⟨rfl, List.take_prefix _ _⟩
    simpa using ⟨_, _, hMunch.mem_rule, hPrefix⟩

end Scanned

/-- A text is scanned to its end, or to a position where no rule matches. -/
theorem lex_cases (text : String) :
    (∃ tokens, Scanned text.toList tokens [] ∧ lex text = .ok tokens) ∨
    ∃ before tokens c rest, before ++ c :: rest = text.toList ∧ Scanned before tokens (c :: rest) ∧
      lexeme? c rest = none ∧
      lex text = .error ⟨String.ofList (unmatched c rest), before.length⟩ := by
  have hStart := Scanned.start (skips_dropWhile text.toList)
  rw [lex_eq_scan]
  obtain ⟨tokens, hAll⟩ | ⟨before, tokens, c, rest, hText, hScanned, hNone⟩ := hStart.ends
  · rw [List.takeWhile_append_dropWhile] at hAll
    exact .inl ⟨tokens, hAll, hAll.scan_eq_ok⟩
  · rw [List.takeWhile_append_dropWhile] at hText
    exact .inr ⟨before, tokens, c, rest, hText, hScanned, hNone, hText ▸ hScanned.scan_eq_error hNone⟩

end Lexer

open Lexer

section Lexing

variable {text : String} {before : List Char} {tokens : List Token} {c : Char} {rest : List Char}

theorem lex_eq_ok_iff : lex text = .ok tokens ↔ Scanned text.toList tokens [] := by
  constructor
  · intro h
    obtain ⟨found, hAll, hOk⟩ | ⟨_, _, _, _, -, -, -, hError⟩ := lex_cases text
    · obtain rfl : found = tokens := Except.ok.inj (hOk.symm.trans h)
      exact hAll
    · cases hError.symm.trans h
  · intro h
    rw [lex_eq_scan, h.scan_eq_ok]

theorem lex_error_of_not_matches (hText : before ++ c :: rest = text.toList)
    (hScanned : Scanned before tokens (c :: rest)) (hNot : ¬Matches (c :: rest)) :
    ∃ found, lex text = .error ⟨found, before.length⟩ := by
  rw [hScanned.matches_iff, Option.not_isSome_iff_eq_none] at hNot
  rw [lex_eq_scan, ← hText]
  exact ⟨_, hScanned.scan_eq_error hNot⟩

theorem exists_lex_eq_ok_iff : (∃ tokens, lex text = .ok tokens) ↔
    ∀ before tokens c rest, before ++ c :: rest = text.toList →
      Scanned before tokens (c :: rest) → Matches (c :: rest) := by
  constructor
  · rintro ⟨tokens, hOk⟩ before others c rest hText hScanned
    by_contra hNot
    obtain ⟨found, hError⟩ := lex_error_of_not_matches hText hScanned hNot
    cases hOk.symm.trans hError
  · intro hMatches
    obtain ⟨tokens, -, hOk⟩ | ⟨before, tokens, c, rest, hText, hScanned, hNone, -⟩ :=
      lex_cases text
    · exact ⟨tokens, hOk⟩
    · exact absurd (hMatches before tokens c rest hText hScanned) (not_matches_of_lexeme? hNone).1

/-- The text before a scan position has the tokens that were passed. -/
theorem lex_before (h : Scanned before tokens rest) : lex (String.ofList before) = .ok tokens := by
  rw [lex_eq_ok_iff, String.toList_ofList]
  exact h.of_prefix List.nil_prefix

end Lexing

/-- Lexing is maximal munch: it succeeds with the tokens that scanning passes on its way to the end of
the text, which it reaches if some rule matches at every scan position. Otherwise it reports the
first position where none does, which holds a quote, and the text before has the tokens passed so
far. No text obeys the rules of two kinds. -/
theorem lex_maximal_munch (text : String) :
    (∀ tokens, lex text = .ok tokens ↔ Scanned text.toList tokens []) ∧
    ((∃ tokens, lex text = .ok tokens) ↔ ∀ before tokens c rest, before ++ c :: rest = text.toList →
      Scanned before tokens (c :: rest) → Matches (c :: rest)) ∧
    (∀ error, lex text = .error error → ∃ before tokens c rest,
      before ++ c :: rest = text.toList ∧ Scanned before tokens (c :: rest) ∧
      error.offset = before.length ∧ ¬Matches (c :: rest) ∧ (c = '\'' ∨ c = '"') ∧
      lex (String.ofList before) = .ok tokens ∧
      ∀ before' tokens' c' rest', before' ++ c' :: rest' = text.toList →
        Scanned before' tokens' (c' :: rest') → before'.length < error.offset →
        Matches (c' :: rest')) ∧
    ∀ lexeme kind kind', lexeme ∈ TokenKind.rule kind → lexeme ∈ TokenKind.rule kind' →
      kind = kind' := by
  refine ⟨fun tokens => lex_eq_ok_iff, exists_lex_eq_ok_iff, fun error hError => ?_,
    fun lexeme kind kind' h h' => kind_eq_of_rule h h'⟩
  obtain ⟨_, -, hOk⟩ | ⟨before, tokens, c, rest, hText, hScanned, hNone, hStuck⟩ :=
    lex_cases text
  · cases hOk.symm.trans hError
  · obtain ⟨hNot, hQuote⟩ := not_matches_of_lexeme? hNone
    obtain rfl := Except.error.inj (hStuck.symm.trans hError)
    refine ⟨before, tokens, c, rest, hText, hScanned, rfl, hNot, hQuote, lex_before hScanned, ?_⟩
    intro before' tokens' c' rest' hText' hScanned' hEarlier
    by_contra hOther
    obtain ⟨found, hError'⟩ := lex_error_of_not_matches hText' hScanned' hOther
    have hSame := congrArg LexError.offset (Except.error.inj (hError'.symm.trans hError))
    exact absurd hSame (Nat.ne_of_lt hEarlier)

theorem lex_maximal_munch_unclosed : lex "x-1. \"a" = .error ⟨"\"a", 5⟩ ∧
    ∃ tokens, Scanned "x-1. ".toList tokens "\"a".toList ∧ ¬Matches "\"a".toList ∧
      lex "x-1. " = .ok tokens := by
  have hError : lex "x-1. \"a" = .error ⟨"\"a", 5⟩ := by decide +kernel
  obtain ⟨before, tokens, c, rest, hText, hScanned, hOffset, hNot, -, hBefore, -⟩ :=
    (lex_maximal_munch _).2.2.1 _ hError
  have hSplit : before ++ c :: rest = "x-1. ".toList ++ "\"a".toList := hText
  obtain ⟨rfl, hRest⟩ := List.append_inj hSplit hOffset.symm
  rw [hRest] at hScanned hNot
  exact ⟨hError, tokens, hScanned, hNot, hBefore⟩

/-- A point without a digit behind it is given back. -/
example : lex "1.-a" = .ok [⟨.integer, "1", 0⟩, ⟨.operator, ".", 1⟩, ⟨.operator, "-", 2⟩,
    ⟨.identifier, "a", 3⟩] := by
  decide +kernel

end ProcLang
