import ProcLang.Proofs.Grammar.Productions

/-! # What syntax errors tell

Parsers move forward only. One that fails stands before the token of which it complains, and tells
what it found there: the token's text, the end of the input, or what is wrong with a literal.
-/

namespace ProcLang

set_option autoImplicit false

/-- Kinds of tokens that are literals whatever their texts are. -/
def TokenKind.isLiteral : TokenKind → Bool
  | integer | decimal | character | string => true
  | identifier | operator => false

/-- Whether a fault tells what is found before the given token, or at the end. -/
def ParseFault.Describes (fault : ParseFault) (found : Option Token) : Prop :=
  match fault with
  | expected _ text | expectedExpression text => text = found.map Token.literal
  | expectedItem text => found.map Token.literal = some text
  | literal error => ∃ token, found = some token ∧ token.kind.isLiteral = true ∧
      Literal.ofText token.kind token.literal = .error error
  | other _ => False

/-- Another cursor stands at the same place or further on. -/
structure Cursor.Leads (cursor later : Cursor) : Prop where
  suffix : later.rest <:+ cursor.rest
  stop_eq : later.stop = cursor.stop

namespace Cursor.Leads

variable {cursor middle later : Cursor}

theorem refl (cursor : Cursor) : cursor.Leads cursor :=
  ⟨List.suffix_refl _, rfl⟩

theorem trans (h : cursor.Leads middle) (hLater : middle.Leads later) : cursor.Leads later :=
  ⟨hLater.suffix.trans h.suffix, hLater.stop_eq.trans h.stop_eq⟩

theorem next (cursor : Cursor) : cursor.Leads cursor.next :=
  ⟨List.tail_suffix _, rfl⟩

theorem length_le (h : cursor.Leads later) : later.rest.length ≤ cursor.rest.length :=
  h.suffix.length_le

end Cursor.Leads

namespace Parser

variable {α β γ : Type}

/-- At the cursor the parser moves forward, or it tells what it found where it then stands. -/
structure ReportsAt (cursor : Cursor) (p : Parser α) : Prop where
  leads : ∀ {later a}, p cursor = .ok (a, later) → cursor.Leads later
  describes : ∀ {error}, p cursor = .error error →
    ∃ later fault, cursor.Leads later ∧ error = later.error fault ∧
      fault.Describes later.current

/-- The bound on the tokens that remain is enough for the parser. -/
def Reports (n : Nat) (p : Parser α) : Prop :=
  ∀ cursor : Cursor, cursor.rest.length ≤ n → ReportsAt cursor p

section Rules

variable {n : Nat} {p : Parser α} {q : α → Parser β} {cursor : Cursor} {text : String}

theorem ReportsAt.congr {p' : Parser α} (h : ReportsAt cursor p) (hSame : p' cursor = p cursor) :
    ReportsAt cursor p' :=
  ⟨fun hOk => h.leads (hSame ▸ hOk), fun hError => h.describes (hSame ▸ hError)⟩

theorem Reports.mono {m : Nat} (h : Reports n p) (hLess : m ≤ n) : Reports m p :=
  fun cursor hLength => h cursor (hLength.trans hLess)

theorem reportsAt_bind (hFirst : ReportsAt cursor p)
    (hNext : ∀ a later, p cursor = .ok (a, later) → ReportsAt later (q a)) :
    ReportsAt cursor (p >>= q) := by
  constructor
  · intro later b hOk
    obtain ⟨⟨a, middle⟩, hStart, hEnd⟩ := except_bind_ok hOk
    exact (hFirst.leads hStart).trans ((hNext a middle hStart).leads hEnd)
  · intro error hError
    cases hStart : p cursor with
    | error other =>
      cases (bind_of_error hStart).symm.trans hError
      exact hFirst.describes hStart
    | ok start =>
      obtain ⟨a, middle⟩ := start
      rw [bind_of_ok hStart] at hError
      obtain ⟨later, fault, hLater, hFault⟩ := (hNext a middle hStart).describes hError
      exact ⟨later, fault, (hFirst.leads hStart).trans hLater, hFault⟩

theorem reports_bind (hFirst : Reports n p) (hNext : ∀ a, Reports n (q a)) :
    Reports n (p >>= q) := by
  intro cursor hLength
  refine reportsAt_bind (hFirst cursor hLength) fun a later hOk => hNext a later ?_
  exact ((hFirst cursor hLength).leads hOk).length_le.trans hLength

theorem reportsAt_pure (a : α) : ReportsAt cursor (pure a) := by
  refine ⟨fun hOk => ?_, nofun⟩
  cases hOk
  exact .refl cursor

theorem reports_pure (a : α) : Reports n (pure a) :=
  fun _ _ => reportsAt_pure a

theorem reportsAt_fail {fault : ParseFault} (h : fault.Describes cursor.current) :
    ReportsAt cursor (fail fault : Parser α) := by
  refine ⟨nofun, fun hError => ?_⟩
  cases hError
  exact ⟨cursor, fault, .refl cursor, rfl, h⟩

/-- Behind a token that is skipped there is one token less. -/
theorem reportsAt_skip {p : Parser β} (h : Reports (n - 1) p) (hLength : cursor.rest.length ≤ n) :
    ReportsAt cursor (do skip; p) := by
  refine reportsAt_bind ⟨fun hOk => ?_, nofun⟩ fun _ later hOk => h later ?_
  · cases hOk
    exact .next cursor
  · cases hOk
    rw [Cursor.next, List.length_tail]
    omega

theorem expect_cases (cursor : Cursor) (pattern : Pattern) :
    (∃ token, cursor.expect pattern = .ok (token, cursor.next)) ∨
      cursor.expect pattern =
        .error (cursor.error (.expected pattern (cursor.current.map Token.literal))) := by
  obtain ⟨rest, stop⟩ := cursor
  cases rest with
  | nil => exact .inr rfl
  | cons token rest =>
    unfold Cursor.expect Cursor.eat
    split
    · rename_i hEat
      split at hEat
      · cases hEat
        exact .inl ⟨token, rfl⟩
      · cases hEat
    · exact .inr rfl

/-- Both parsers that need one token make something of it. -/
theorem reports_of_expect (pattern : Pattern) (f : Token → α) :
    Reports n fun cursor => (cursor.expect pattern).map fun (token, rest) => (f token, rest) := by
  intro cursor _
  rcases expect_cases cursor pattern with ⟨token, hExpect⟩ | hExpect
  · refine (reportsAt_bind (q := fun _ => pure (f token)) (p := skip) ⟨fun hOk => ?_, nofun⟩
      fun _ _ _ => reportsAt_pure _).congr (by rw [hExpect]; rfl)
    cases hOk
    exact .next cursor
  · have hFault : (ParseFault.expected pattern (cursor.current.map Token.literal)).Describes
        cursor.current := rfl
    exact (reportsAt_fail hFault).congr (by rw [hExpect]; rfl)

theorem reports_expect (text : String) : Reports n (expect text) :=
  reports_of_expect (.text text) fun _ => ()

theorem reports_identifier : Reports n identifier :=
  reports_of_expect (.kind .identifier) Token.literal

/-- Behind a token that is consumed there is one token less. -/
theorem reports_eat_else {here there : Parser α} (hHere : Reports (n - 1) here)
    (hThere : Reports n there) : Reports n (do if ← eat text then here else there) := by
  intro cursor hLength
  by_cases hCheck : cursor.check (.text text) = true
  · obtain ⟨_ | ⟨token, rest⟩, stop⟩ := cursor
    · cases hCheck
    · refine (reportsAt_skip hHere hLength).congr (bind_of_ok (a := true) ?_)
      simp only [eat, Cursor.eat, hCheck]
      rfl
  · refine (hThere cursor hLength).congr (bind_of_ok (a := false) ?_)
    simp only [eat, Cursor.eat, hCheck]
    rfl

theorem reports_optional (hItem : Reports n p) : Reports n (optional text p) :=
  reports_eat_else (reports_bind (hItem.mono (Nat.sub_le n 1)) fun a => reports_pure (some a))
    (reports_pure none)

/-- The repetition may end early, but it does not fail for that. -/
theorem reports_many {found? : Cursor → Option γ} {item : γ → Parser α}
    (hItem : ∀ found, Reports n (item found)) (count : Nat) :
    Reports n (many found? item count) := by
  induction count with
  | zero => exact reports_pure []
  | succ count ih =>
    intro cursor hLength
    cases hFound : found? cursor with
    | none => exact (reportsAt_pure []).congr (many_succ_of_none hFound)
    | some found =>
      have hItems : Reports n (do
          let first ← item found
          let rest ← many found? item count
          return first :: rest) :=
        reports_bind (hItem found) fun first =>
          reports_bind ih fun rest => reports_pure (first :: rest)
      exact (hItems cursor hLength).congr (many_succ_of_found hFound)

theorem reports_skip : Reports n skip := by
  refine fun cursor _ => ⟨fun hOk => ?_, nofun⟩
  cases hOk
  exact .next cursor

theorem reports_manyAt (hItem : Reports n p) (count : Nat) :
    Reports n (manyAt text p count) :=
  reports_many (fun _ => reports_bind reports_skip fun _ => hItem) count

theorem reports_commaSeparated (hItem : Reports n p) (count : Nat) :
    Reports n (commaSeparated p count) :=
  reports_bind hItem fun first =>
    reports_bind (reports_manyAt hItem count) fun rest => reports_pure (first :: rest)

end Rules

end Parser

namespace Grammar

open ProcLang.Parser

section Expressions

variable {n : Nat} {operand expression : Parser Expr}

theorem reports_chain (level : Level) (hOperand : Reports n operand) (count : Nat) :
    Reports n (chain level operand count) := by
  have hStep : ∀ operator, Reports n (step operand operator) := fun operator =>
    reports_bind reports_skip fun _ =>
      reports_bind hOperand fun right => reports_pure (operator, right)
  exact reports_bind hOperand fun first =>
    reports_bind (reports_many hStep count) fun steps => reports_pure _

theorem reports_groupRest (hExpression : Reports n expression) : Reports n (groupRest expression) :=
  reports_bind hExpression fun _ =>
    reports_bind (reports_expect ")") fun _ => reports_pure _

theorem reports_arguments (hExpression : Reports n expression) (count : Nat) :
    Reports n (arguments expression count) := by
  refine reports_eat_else (reports_pure []) ?_
  refine reports_bind (reports_commaSeparated hExpression count) fun arguments => ?_
  exact reports_bind (reports_expect ")") fun _ => reports_pure arguments

theorem reports_nameRest (name : String) (hExpression : Reports n expression) (count : Nat) :
    Reports n (nameRest name expression count) := by
  have hInside := hExpression.mono (Nat.sub_le n 1)
  refine reports_eat_else ?_ (reports_eat_else ?_ (reports_pure _))
  · exact reports_bind (reports_arguments hInside count) fun arguments => reports_pure _
  · refine reports_bind hInside fun index => ?_
    exact reports_bind (reports_expect "]") fun _ => reports_pure _

section Operands

variable {token : Token} {others : List Token} {stop : Nat}

theorem reportsAt_literal (hKind : token.kind.isLiteral = true) :
    ReportsAt ⟨token :: others, stop⟩ (literal token.kind token.literal) := by
  unfold literal
  split
  · rename_i error hText
    exact reportsAt_fail ⟨token, rfl, hKind, hText⟩
  · exact reportsAt_skip (reports_pure _) le_rfl

/-- An operand's first token is consumed before the expressions inside it are read. -/
theorem reportsAt_operandAt (hExpression : Reports (n - 1) expression) (count : Nat)
    (hLength : (token :: others).length ≤ n) :
    ReportsAt ⟨token :: others, stop⟩ (operandAt token.lexeme expression count) := by
  obtain ⟨kind, text, offset⟩ := token
  unfold operandAt
  split
  · exact reportsAt_skip (reports_pure _) hLength
  split
  · exact reportsAt_skip (reports_pure _) hLength
  split
  · exact reportsAt_skip (reports_pure _) hLength
  split
  · rename_i hKind
    obtain rfl : kind = .integer := hKind
    exact reportsAt_literal rfl
  · rename_i hKind
    obtain rfl : kind = .decimal := hKind
    exact reportsAt_literal rfl
  · rename_i hKind
    obtain rfl : kind = .character := hKind
    exact reportsAt_literal rfl
  · rename_i hKind
    obtain rfl : kind = .string := hKind
    exact reportsAt_literal rfl
  split
  · exact reportsAt_skip (reports_groupRest hExpression) hLength
  split
  · exact reportsAt_skip (reports_nameRest text hExpression count) hLength
  · exact reportsAt_fail rfl

theorem reports_primary (hExpression : Reports (n - 1) expression) (count : Nat) :
    Reports n (primary expression count) := by
  rintro ⟨rest, stop⟩ hLength
  cases rest with
  | nil =>
    have hFault : (ParseFault.expectedExpression none).Describes none := rfl
    exact (reportsAt_fail hFault).congr rfl
  | cons token others =>
    exact (reportsAt_operandAt hExpression count hLength).congr
      (primary_cons expression count token others stop)

end Operands

theorem reports_expression (n : Nat) : Reports n (Grammar.expression n) := by
  induction n with
  | zero =>
    intro cursor hLength
    refine reportsAt_fail ?_
    rw [Cursor.current, List.length_eq_zero_iff.mp (Nat.le_zero.mp hLength)]
    rfl
  | succ n ih =>
    have hInside : Reports (n + 1 - 1) (Grammar.expression n) := ih
    have hPrimary := reports_primary hInside n
    exact reports_chain _ (reports_chain _ (reports_chain _ (reports_chain _ hPrimary n) n) n) n

end Expressions

section Statements

variable {n m : Nat} {block : Parser (List Stmt)}

theorem reports_typeAnnotation : Reports n typeAnnotation :=
  reports_optional reports_identifier

theorem reports_initializer (hLess : m ≤ n) : Reports m (optional "=" (expression n)) :=
  reports_optional ((reports_expression n).mono hLess)

theorem reports_declaration (hLess : m ≤ n) : Reports m (declaration n) := by
  refine reports_bind reports_identifier fun name => ?_
  refine reports_bind reports_typeAnnotation fun typeName => ?_
  refine reports_bind (reports_initializer hLess) fun value => ?_
  exact reports_bind (reports_expect ";") fun _ => reports_pure _

theorem reports_returns (hLess : m ≤ n) : Reports m (returns n) := by
  refine reports_bind ((reports_expression n).mono hLess) fun value => ?_
  exact reports_bind (reports_expect ";") fun _ => reports_pure _

theorem reports_simple (hLess : m ≤ n) : Reports m (simple n) := by
  refine reports_bind ((reports_expression n).mono hLess) fun first => ?_
  refine reports_bind (reports_initializer hLess) fun value => ?_
  refine reports_bind (reports_expect ";") fun _ => ?_
  cases value with
  | none => exact reports_pure _
  | some value => exact reports_pure _

variable (hBlock : Reports m block)

include hBlock

theorem reports_loop (hLess : m ≤ n) : Reports m (loop block n) := by
  refine reports_bind ((reports_expression n).mono hLess) fun condition => ?_
  refine reports_bind (reports_expect "DO") fun _ => ?_
  refine reports_bind hBlock fun body => ?_
  exact reports_bind (reports_expect "END") fun _ => reports_pure _

theorem reports_conditional (hLess : m ≤ n) : Reports m (conditional block n) := by
  refine reports_bind ((reports_expression n).mono hLess) fun condition => ?_
  refine reports_bind (reports_expect "DO") fun _ => ?_
  refine reports_bind hBlock fun consequent => ?_
  refine reports_bind (reports_optional hBlock) fun alternative => ?_
  exact reports_bind (reports_expect "END") fun _ => reports_pure _

theorem reports_valuedCase (hLess : m ≤ n) : Reports m (valuedCase block n) := by
  refine reports_bind ((reports_expression n).mono hLess) fun value => ?_
  refine reports_bind (reports_expect ":") fun _ => ?_
  exact reports_bind hBlock fun body => reports_pure _

theorem reports_switch (hLess : m ≤ n) : Reports m (switch block n) := by
  refine reports_bind ((reports_expression n).mono hLess) fun subject => ?_
  refine reports_bind (reports_manyAt (reports_valuedCase hBlock hLess) n) fun cases => ?_
  refine reports_bind (reports_expect "DEFAULT") fun _ => ?_
  refine reports_bind hBlock fun body => ?_
  exact reports_bind (reports_expect "END") fun _ => reports_pure _

end Statements

/-- The blocks inside a statement stand behind its first token. -/
theorem reports_statement {n : Nat} {block : Parser (List Stmt)} (hBlock : Reports (n - 1) block) :
    Reports n (statement block n) := by
  have hLess : n - 1 ≤ n := Nat.sub_le n 1
  refine reports_eat_else (reports_declaration hLess) ?_
  refine reports_eat_else (reports_switch hBlock hLess) ?_
  refine reports_eat_else (reports_conditional hBlock hLess) ?_
  refine reports_eat_else (reports_loop hBlock hLess) ?_
  exact reports_eat_else (reports_returns hLess) (reports_simple le_rfl)

theorem reports_block (n : Nat) : Reports n (block n) := by
  induction n with
  | zero => exact reports_pure []
  | succ n ih =>
    have hInside : Reports (n + 1 - 1) (block n) := ih
    exact reports_many (fun _ => reports_statement hInside) (n + 1)

section Programs

variable {n m : Nat}

theorem reports_listGlobal (hLess : m ≤ n) : Reports m (listGlobal n) := by
  have hItem := (reports_expression n).mono hLess
  refine reports_bind reports_identifier fun name => ?_
  refine reports_bind (reports_expect ":") fun _ => ?_
  refine reports_bind reports_identifier fun typeName => ?_
  refine reports_bind (reports_expect "=") fun _ => ?_
  refine reports_bind (reports_expect "[") fun _ => ?_
  refine reports_bind (reports_commaSeparated hItem n) fun items => ?_
  exact reports_bind (reports_expect "]") fun _ => reports_pure _

theorem reports_mutableGlobal (hLess : m ≤ n) : Reports m (mutableGlobal n) := by
  refine reports_bind reports_identifier fun name => ?_
  refine reports_bind reports_typeAnnotation fun typeName => ?_
  exact reports_bind (reports_initializer hLess) fun value => reports_pure _

theorem reports_immutableGlobal (n : Nat) : Reports n (immutableGlobal n) := by
  refine reports_bind reports_identifier fun name => ?_
  refine reports_bind reports_typeAnnotation fun typeName => ?_
  refine reports_bind (reports_expect "=") fun _ => ?_
  exact reports_bind (reports_expression n) fun value => reports_pure _

theorem reports_global (n : Nat) : Reports n (global n) := by
  have hLess : n - 1 ≤ n := Nat.sub_le n 1
  have hImmutable : Reports n (do expect "VAL"; immutableGlobal n) :=
    reports_bind (reports_expect "VAL") fun _ => reports_immutableGlobal n
  have hBody : Reports n (globalBody n) :=
    reports_eat_else (reports_listGlobal hLess)
      (reports_eat_else (reports_mutableGlobal hLess) hImmutable)
  exact reports_bind hBody fun global =>
    reports_bind (reports_expect ";") fun _ => reports_pure global

theorem reports_parameter : Reports n parameter := by
  refine reports_bind reports_identifier fun name => ?_
  refine reports_bind (reports_expect ":") fun _ => ?_
  exact reports_bind reports_identifier fun typeName => reports_pure (name, typeName)

theorem reports_parameters (count : Nat) : Reports n (parameters count) := by
  refine reports_eat_else (reports_pure []) ?_
  refine reports_bind (reports_commaSeparated reports_parameter count) fun parameters => ?_
  exact reports_bind (reports_expect ")") fun _ => reports_pure parameters

theorem reports_function (n : Nat) : Reports n (function n) := by
  refine reports_bind (reports_expect "FUN") fun _ => ?_
  refine reports_bind reports_identifier fun name => ?_
  refine reports_bind (reports_expect "(") fun _ => ?_
  refine reports_bind (reports_parameters n) fun parameters => ?_
  refine reports_bind reports_typeAnnotation fun returnType => ?_
  refine reports_bind (reports_expect "DO") fun _ => ?_
  refine reports_bind (reports_block n) fun body => ?_
  exact reports_bind (reports_expect "END") fun _ => reports_pure _

theorem reports_finish (globals : List Global) (functions : List Function) :
    Reports n (finish globals functions) := by
  rintro ⟨rest, stop⟩ _
  cases rest with
  | nil => exact (reportsAt_pure (Source.mk globals functions)).congr rfl
  | cons token rest =>
    have hFault : (ParseFault.expectedItem token.literal).Describes (some token) := rfl
    exact (reportsAt_fail hFault).congr rfl

theorem reports_source (n : Nat) : Reports n (source n) := by
  refine reports_bind (reports_many (fun _ => reports_global n) n) fun globals => ?_
  refine reports_bind (reports_many (fun _ => reports_function n) n) fun functions => ?_
  exact reports_finish globals functions

end Programs

end Grammar

/-- A syntax error stands at a token of the list or at its end, and tells what was found there. -/
theorem exists_fault_of_parse {tokens : List Token} {error : ParseError}
    (h : parse tokens = .error error) :
    ∃ front back, tokens = front ++ back ∧ error.fault.Describes back.head? ∧
      error.offset = (Cursor.mk back (Cursor.ofTokens tokens).stop).errorOffset := by
  unfold parse at h
  cases hSource : Grammar.source tokens.length (Cursor.ofTokens tokens) with
  | ok result =>
    rw [hSource] at h
    cases h
  | error found =>
    rw [hSource] at h
    cases h
    obtain ⟨⟨back, stop⟩, fault, hLeads, rfl, hFault⟩ :=
      (Grammar.reports_source tokens.length (Cursor.ofTokens tokens) le_rfl).describes hSource
    obtain ⟨front, hFront⟩ := hLeads.suffix
    obtain rfl : stop = (Cursor.ofTokens tokens).stop := hLeads.stop_eq
    exact ⟨front, back, hFront.symm, hFault, rfl⟩

end ProcLang
