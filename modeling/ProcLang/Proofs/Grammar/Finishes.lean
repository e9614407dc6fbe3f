import ProcLang.Proofs.Grammar.Decisions
import ProcLang.Proofs.Grammar.Ends

/-! # The parser finishes

Without counts, the methods of the grammar repeat themselves only behind a token that they have
moved past. So all of them end, on tokens that were made by hand as well, and the counts of the
parser are enough.
-/

namespace ProcLang

set_option autoImplicit false

open ProcLang.Parser

namespace Production

open Method

open ProcLang.Grammar (Follows tightening operand predictive_tightening predictive_operand
  predictive_expression follows_none primary_cons expression_eq_tightening)

section Expressions

variable {n : Nat} {e : Parser Expr}

theorem ends_expect {n : Nat} (text : String) : Ends n (once (expect text)) (expect text) :=
  ends_once (reports_expect text)

theorem ends_identifier {n : Nat} : Ends n (once identifier) identifier :=
  ends_once reports_identifier

theorem ends_groupRest (hExpression : Ends n expression.read e) :
    Ends n groupRest.read (Grammar.groupRest e) := by
  rw [read]
  exact hExpression.bind fun inner => (ends_expect ")").bind fun _ => ends_pure _

theorem ends_otherExpressions {count : Nat} (hExpression : Ends n expression.read e)
    (hCount : n ≤ count) : Ends n otherExpressions.read (manyAt "," e count) := by
  have hLoop : otherExpressions.read = turnAt "," expression.read otherExpressions.read :=
    read.eq_def otherExpressions
  exact ends_manyAt hLoop hExpression hCount

theorem ends_expressions {count : Nat} (hExpression : Ends n expression.read e)
    (hCount : n ≤ count) : Ends n expressions.read (commaSeparated e count) := by
  rw [read]
  exact hExpression.bind fun first =>
    (ends_otherExpressions hExpression hCount).bind fun others => ends_pure _

theorem ends_arguments {count : Nat} (hExpression : Ends n expression.read e)
    (hCount : n ≤ count) : Ends n arguments.read (Grammar.arguments e count) := by
  rw [read]
  refine ends_eat_else (ends_pure []) ?_
  exact (ends_expressions hExpression hCount).bind fun arguments =>
    (ends_expect ")").bind fun _ => ends_pure _

theorem ends_nameRest {count : Nat} (name : String) (hExpression : Ends n expression.read e)
    (hCount : n ≤ count) : Ends n (nameRest name).read (Grammar.nameRest name e count) := by
  have hInside := hExpression.mono (Nat.sub_le n 1)
  rw [read]
  refine ends_eat_else ?_ (ends_eat_else ?_ (ends_pure _))
  · exact (ends_arguments hInside ((Nat.sub_le n 1).trans hCount)).bind fun _ => ends_pure _
  · exact hInside.bind fun index => (ends_expect "]").bind fun _ => ends_pure _

/-- Where the text is wrong, the cursor has moved past it, but the token itself is complained of. -/
theorem endsAt_literal {cursor : Cursor} (kind : TokenKind) (text : String) :
    EndsAt cursor (literal kind text).read (Grammar.literal kind text) := by
  rw [read, Grammar.literal]
  cases Literal.ofText kind text with
  | error error => exact .fails _ cursor.next rfl rfl (.next cursor)
  | ok literal => exact .returns _ cursor.next rfl rfl (.next cursor)

theorem ends_operandAt {count : Nat} (token : Token) (hExpression : Ends n expression.read e)
    (hCount : n ≤ count) :
    Ends (n + 1) (operandAt token).read (Grammar.operandAt token.lexeme e count) := by
  intro cursor hLength
  obtain ⟨kind, text, offset⟩ := token
  rw [read]
  refine endsAt_ite (fun _ => endsAt_skip (ends_pure _) hLength) fun _ => ?_
  refine endsAt_ite (fun _ => endsAt_skip (ends_pure _) hLength) fun _ => ?_
  refine endsAt_ite (fun _ => endsAt_skip (ends_pure _) hLength) fun _ => ?_
  cases kind with
  | integer | decimal | character | string => exact endsAt_literal _ text
  | identifier | operator =>
    refine endsAt_ite (fun _ => endsAt_skip (ends_groupRest hExpression) hLength) fun _ => ?_
    refine endsAt_ite (fun _ => ?_) fun _ => endsAt_fail _
    exact endsAt_skip (ends_nameRest text hExpression hCount) hLength

theorem ends_primary (hExpression : ∀ m < n, Ends m expression.read (Grammar.expression m)) :
    Ends n primary.read (operand n) := by
  rintro ⟨rest, stop⟩ hLength
  rw [read]
  cases rest with
  | nil => exact (endsAt_fail _).congr (get_bind _ _) rfl
  | cons token others =>
    have hPositive : 0 < n := Nat.lt_of_lt_of_le (Nat.succ_pos _) hLength
    have hInside := ends_operandAt token (hExpression (n - 1) (by omega)) le_rfl
    have hOperand := hInside ⟨token :: others, stop⟩ (by omega)
    exact hOperand.congr (get_bind _ _) (primary_cons ..)

theorem progressesAt_tightening (levels : List Level) {cursor : Cursor}
    (hLength : cursor.rest.length ≤ n) : ProgressesAt cursor (tightening levels n) := by
  have hConsuming : Consuming (Ahead Grammar.nil) (Follows levels) :=
    ⟨none, follows_none _, nofun⟩
  have hPredictive : Predictive (n + 1) (tightening levels) (Ahead Grammar.nil) (Follows levels) :=
    predictive_tightening (predictive_operand (predictive_expression n))
  exact progressesAt_of_predictive hPredictive hConsuming hLength

theorem operator?_of_nil {level : Level} {cursor : Cursor} (h : cursor.rest = []) :
    cursor.operator? level = none := by
  obtain ⟨rest, stop⟩ := cursor
  obtain rfl : rest = [] := h
  rfl

theorem ends_operators {level : Level} {tighter : List Level} {p : Parser Expr} {count : Nat}
    (h : Ends n (levels tighter).read p) (hCount : n ≤ count) :
    Ends n (operators level tighter).read
      (many (Cursor.operator? level) (Grammar.step p) count) := by
  have hLoop : (operators level tighter).read = turn (Cursor.operator? level) (fun operator => do
      once skip
      let right ← (levels tighter).read
      return (operator, right)) (operators level tighter).read := by
    funext cursor
    refine (congrFun (read.eq_def (operators level tighter)) cursor).trans ?_
    refine (get_bind _ cursor).trans ?_
    cases hFound : cursor.operator? level with
    | none => rw [turn_of_none hFound]
    | some operator =>
      rw [turn_of_found hFound]
      simp only [bind_assoc, pure_bind]
      rfl
  have hItem (operator : Operator) : Ends n (do
      let right ← (levels tighter).read
      return (operator, right)) (do
      let right ← p
      return (operator, right)) :=
    h.bind fun right => ends_pure (operator, right)
  refine ends_many hLoop (fun _ => operator?_of_nil)
    (fun operator cursor hLength => endsAt_skip (hItem operator) (hLength.trans n.le_succ))
    (fun cursor operator hLength hFound => ?_) hCount
  refine progressesAt_skip (hItem operator) (hLength.trans n.le_succ) fun hNil => ?_
  rw [operator?_of_nil hNil] at hFound
  cases hFound

/-- The first operand is behind the cursor when operators are counted. -/
theorem ends_levels (hPrimary : Ends n primary.read (operand n)) (loosest : List Level) :
    Ends n (levels loosest).read (tightening loosest n) := by
  induction loosest with
  | nil =>
    rw [read_levels_nil]
    exact hPrimary
  | cons level tighter ih =>
    intro cursor hLength
    rw [read]
    refine endsAt_bind (ih cursor hLength) fun first later hOk _ => ?_
    have hLess := progressesAt_tightening tighter hLength first later hOk
    have hOthers : Ends (n - 1) (operators level tighter).read
        (many (Cursor.operator? level) (Grammar.step (tightening tighter n)) (n - 1)) :=
      ends_operators (ih.mono (Nat.sub_le n 1)) le_rfl
    exact endsAt_bind (hOthers later (by omega)) fun others _ _ _ => endsAt_pure _

/-- The expressions inside an operand have fewer tokens than the operand. -/
theorem ends_expression (n : Nat) : Ends n expression.read (Grammar.expression n) := by
  induction n using Nat.strong_induction_on with
  | _ n ih =>
    intro cursor hLength
    rw [read]
    exact (ends_levels (ends_primary ih) Level.all cursor hLength).congr rfl
      (expression_eq_tightening hLength)

theorem ends_operand (n : Nat) : Ends n primary.read (operand n) :=
  ends_primary fun m _ => ends_expression m

end Expressions

open ProcLang.Grammar (statements block_eq_many predictive_statements predictive_block)

section Statements

variable {n : Nat}

theorem ends_typeName : Ends n typeName.read Grammar.typeAnnotation := by
  rw [read]
  exact ends_optional ends_identifier

theorem ends_initializer (n : Nat) :
    Ends n initializer.read (optional "=" (Grammar.expression n)) := by
  rw [read]
  exact ends_optional (ends_expression n)

theorem ends_declaration (n : Nat) : Ends n declaration.read (Grammar.declaration n) := by
  rw [read]
  exact ends_identifier.bind fun _ => ends_typeName.bind fun _ =>
    (ends_initializer n).bind fun _ => (ends_expect ";").bind fun _ => ends_pure _

theorem ends_returns (n : Nat) : Ends n returns.read (Grammar.returns n) := by
  rw [read]
  exact (ends_expression n).bind fun _ => (ends_expect ";").bind fun _ => ends_pure _

theorem ends_simple (n : Nat) : Ends n simple.read (Grammar.simple n) := by
  rw [read]
  refine (ends_expression n).bind fun first => (ends_initializer n).bind fun value => ?_
  refine (ends_expect ";").bind fun _ => ?_
  cases value with
  | none => exact ends_pure _
  | some value => exact ends_pure _

theorem ends_alternative {b : Parser (List Stmt)} (hBlock : Ends n block.read b) :
    Ends n alternative.read (optional "ELSE" b) := by
  rw [read]
  exact ends_optional hBlock

section Blocks

variable {k : Nat} {b : Parser (List Stmt)} (hBlock : Ends k block.read b) (hLess : k ≤ n)

include hBlock hLess

theorem ends_loop : Ends k loop.read (Grammar.loop b n) := by
  rw [read]
  exact ((ends_expression n).mono hLess).bind fun _ => (ends_expect "DO").bind fun _ =>
    hBlock.bind fun _ => (ends_expect "END").bind fun _ => ends_pure _

theorem ends_conditional : Ends k conditional.read (Grammar.conditional b n) := by
  rw [read]
  exact ((ends_expression n).mono hLess).bind fun _ => (ends_expect "DO").bind fun _ =>
    hBlock.bind fun _ => (ends_alternative hBlock).bind fun _ =>
      (ends_expect "END").bind fun _ => ends_pure _

theorem ends_valuedCase : Ends k valuedCase.read (Grammar.valuedCase b n) := by
  rw [read]
  exact ((ends_expression n).mono hLess).bind fun _ => (ends_expect ":").bind fun _ =>
    hBlock.bind fun _ => ends_pure _

theorem ends_cases : Ends k cases.read (manyAt "CASE" (Grammar.valuedCase b n) n) :=
  ends_manyAt (read.eq_def cases) (ends_valuedCase hBlock hLess) hLess

theorem ends_switch : Ends k switch.read (Grammar.switch b n) := by
  rw [read]
  exact ((ends_expression n).mono hLess).bind fun _ => (ends_cases hBlock hLess).bind fun _ =>
    (ends_expect "DEFAULT").bind fun _ => hBlock.bind fun _ => (ends_expect "END").bind fun _ =>
      ends_pure _

end Blocks

theorem ends_statement (hBlock : Ends (n - 1) block.read (Grammar.block (n - 1))) :
    Ends n statement.read (statements n) := by
  have hLess := Nat.sub_le n 1
  rw [read]
  refine ends_eat_else ((ends_declaration n).mono hLess) ?_
  refine ends_eat_else (ends_switch hBlock hLess) ?_
  refine ends_eat_else (ends_conditional hBlock hLess) ?_
  refine ends_eat_else (ends_loop hBlock hLess) ?_
  exact ends_eat_else ((ends_returns n).mono hLess) (ends_simple n)

theorem progressesAt_statements {cursor : Cursor} (hLength : cursor.rest.length ≤ n) :
    ProgressesAt cursor (statements n) :=
  progressesAt_of_predictive (predictive_statements (predictive_block n)) ⟨none, trivial, nofun⟩
    hLength

theorem beginsStatement_of_nil {cursor : Cursor} (h : cursor.rest = []) :
    (if cursor.beginsStatement then some () else none) = none := by
  obtain ⟨rest, stop⟩ := cursor
  obtain rfl : rest = [] := h
  rfl

theorem ends_block (n : Nat) : Ends n block.read (Grammar.block n) := by
  have hLoop : block.read = turn (fun cursor => if cursor.beginsStatement then some () else none)
      (fun _ => statement.read) block.read :=
    (read.eq_def block).trans (turnIf_eq Cursor.beginsStatement _ _)
  induction n with
  | zero =>
    intro cursor hLength
    have hNil := List.length_eq_zero_iff.mp (Nat.le_zero.mp hLength)
    refine (endsAt_pure []).congr ?_ rfl
    exact (congrFun hLoop cursor).trans (turn_of_none (beginsStatement_of_nil hNil))
  | succ n ih =>
    rw [block_eq_many]
    exact ends_many hLoop (fun _ => beginsStatement_of_nil) (fun _ => ends_statement ih)
      (fun _ _ hLength _ => progressesAt_statements hLength) le_rfl

theorem ends_statements (n : Nat) : Ends n statement.read (statements n) :=
  ends_statement (ends_block (n - 1))

end Statements

open ProcLang.Grammar (predictive_global predictive_function)

section Programs

theorem ends_listGlobal (n : Nat) : Ends n listGlobal.read (Grammar.listGlobal n) := by
  rw [read]
  exact ends_identifier.bind fun _ => (ends_expect ":").bind fun _ => ends_identifier.bind fun _ =>
    (ends_expect "=").bind fun _ => (ends_expect "[").bind fun _ =>
      (ends_expressions (ends_expression n) le_rfl).bind fun _ =>
        (ends_expect "]").bind fun _ => ends_pure _

theorem ends_mutableGlobal (n : Nat) : Ends n mutableGlobal.read (Grammar.mutableGlobal n) := by
  rw [read]
  exact ends_identifier.bind fun _ => ends_typeName.bind fun _ =>
    (ends_initializer n).bind fun _ => ends_pure _

theorem ends_immutableGlobal (n : Nat) :
    Ends n immutableGlobal.read (Grammar.immutableGlobal n) := by
  rw [read]
  exact ends_identifier.bind fun _ => ends_typeName.bind fun _ =>
    (ends_expect "=").bind fun _ => (ends_expression n).bind fun _ => ends_pure _

theorem ends_globalBody (n : Nat) : Ends n globalBody.read (Grammar.globalBody n) := by
  rw [read]
  have hLess := Nat.sub_le n 1
  refine ends_eat_else ((ends_listGlobal n).mono hLess) ?_
  refine ends_eat_else ((ends_mutableGlobal n).mono hLess) ?_
  exact (ends_expect "VAL").bind fun _ => ends_immutableGlobal n

theorem ends_global (n : Nat) : Ends n global.read (Grammar.global n) := by
  rw [read]
  exact (ends_globalBody n).bind fun _ => (ends_expect ";").bind fun _ => ends_pure _

theorem ends_parameter {n : Nat} : Ends n parameter.read Grammar.parameter := by
  rw [read]
  exact ends_identifier.bind fun _ => (ends_expect ":").bind fun _ => ends_identifier.bind fun _ =>
    ends_pure _

theorem ends_otherParameters (n : Nat) :
    Ends n otherParameters.read (manyAt "," Grammar.parameter n) :=
  ends_manyAt (read.eq_def otherParameters) ends_parameter le_rfl

theorem ends_parameterList (n : Nat) :
    Ends n parameterList.read (commaSeparated Grammar.parameter n) := by
  rw [read]
  exact ends_parameter.bind fun _ => (ends_otherParameters n).bind fun _ => ends_pure _

theorem ends_parameters (n : Nat) : Ends n parameters.read (Grammar.parameters n) := by
  rw [read]
  refine ends_eat_else (ends_pure []) ?_
  exact (ends_parameterList n).bind fun _ => (ends_expect ")").bind fun _ => ends_pure _

theorem ends_function (n : Nat) : Ends n function.read (Grammar.function n) := by
  rw [read]
  exact (ends_expect "FUN").bind fun _ => ends_identifier.bind fun _ =>
    (ends_expect "(").bind fun _ => (ends_parameters n).bind fun _ => ends_typeName.bind fun _ =>
      (ends_expect "DO").bind fun _ => (ends_block n).bind fun _ =>
        (ends_expect "END").bind fun _ => ends_pure _

variable {n : Nat} {cursor : Cursor}

theorem progressesAt_global (hLength : cursor.rest.length ≤ n) :
    ProgressesAt cursor (Grammar.global n) :=
  progressesAt_of_predictive (predictive_global (n + 1)) ⟨none, trivial, nofun⟩ hLength

theorem progressesAt_function (hLength : cursor.rest.length ≤ n) :
    ProgressesAt cursor (Grammar.function n) :=
  progressesAt_of_predictive (predictive_function (n + 1)) ⟨none, trivial, nofun⟩ hLength

/-- Nothing is found behind the last token. -/
theorem check_of_nil {pattern : Pattern} (h : cursor.rest = []) : cursor.check pattern = false :=
  Bool.eq_false_iff.mpr fun hCheck => ne_nil_of_check hCheck h

theorem ends_globals (n : Nat) : Ends n globals.read (many
    (fun cursor => if cursor.checkAny ["LIST", "VAR", "VAL"] then some () else none)
    (fun _ => Grammar.global n) n) := by
  refine ends_many
    ((read.eq_def globals).trans
      (turnIf_eq (fun cursor => cursor.checkAny ["LIST", "VAR", "VAL"]) _ _))
    (fun cursor hNil => ?_) (fun _ => ends_global n)
    (fun _ _ hLength _ => progressesAt_global hLength) le_rfl
  simp [Cursor.checkAny, check_of_nil hNil]

theorem ends_functions (n : Nat) : Ends n functions.read (many
    (fun cursor => if cursor.check (.text "FUN") then some () else none)
    (fun _ => Grammar.function n) n) := by
  refine ends_many
    ((read.eq_def functions).trans (turnIf_eq (fun cursor => cursor.check (.text "FUN")) _ _))
    (fun cursor hNil => ?_) (fun _ => ends_function n)
    (fun _ _ hLength _ => progressesAt_function hLength) le_rfl
  simp [check_of_nil hNil]

theorem ends_source (n : Nat) : Ends n source.read (Grammar.source n) := by
  rw [read]
  refine (ends_globals n).bind fun globals => (ends_functions n).bind fun functions => ?_
  rintro ⟨rest, stop⟩ _
  cases rest with
  | nil => exact (endsAt_pure _).congr (get_bind _ _) rfl
  | cons token others => exact (endsAt_fail _).congr (get_bind _ _) rfl

end Programs

/-- The counted form of a method. -/
def counted {α : Type} : Production α → Nat → Parser α
  | .source => Grammar.source
  | .globals => fun n =>
    many (fun cursor => if cursor.checkAny ["LIST", "VAR", "VAL"] then some () else none)
      (fun _ => Grammar.global n) n
  | .functions => fun n =>
    many (fun cursor => if cursor.check (.text "FUN") then some () else none)
      (fun _ => Grammar.function n) n
  | .global => Grammar.global
  | .globalBody => Grammar.globalBody
  | .listGlobal => Grammar.listGlobal
  | .mutableGlobal => Grammar.mutableGlobal
  | .immutableGlobal => Grammar.immutableGlobal
  | .function => Grammar.function
  | .parameters => Grammar.parameters
  | .parameterList => commaSeparated Grammar.parameter
  | .otherParameters => manyAt "," Grammar.parameter
  | .parameter => fun _ => Grammar.parameter
  | .typeName => fun _ => Grammar.typeAnnotation
  | .initializer => fun n => optional "=" (Grammar.expression n)
  | .block => Grammar.block
  | .statement => statements
  | .declaration => Grammar.declaration
  | .switch => fun n => Grammar.switch (Grammar.block n) n
  | .cases => fun n => manyAt "CASE" (Grammar.valuedCase (Grammar.block n) n) n
  | .valuedCase => fun n => Grammar.valuedCase (Grammar.block n) n
  | .conditional => fun n => Grammar.conditional (Grammar.block n) n
  | .alternative => fun n => optional "ELSE" (Grammar.block n)
  | .loop => fun n => Grammar.loop (Grammar.block n) n
  | .returns => Grammar.returns
  | .simple => Grammar.simple
  | .expression => Grammar.expression
  | .levels loosest => tightening loosest
  | .operators level tighter => fun n =>
    many (Cursor.operator? level) (Grammar.step (tightening tighter n)) n
  | .primary => operand
  | .operandAt token => fun n => Grammar.operandAt token.lexeme (Grammar.expression n) n
  | .literal kind text => fun _ => Grammar.literal kind text
  | .groupRest => fun n => Grammar.groupRest (Grammar.expression n)
  | .nameRest name => fun n => Grammar.nameRest name (Grammar.expression n) n
  | .arguments => fun n => Grammar.arguments (Grammar.expression n) n
  | .expressions => fun n => commaSeparated (Grammar.expression n) n
  | .otherExpressions => fun n => manyAt "," (Grammar.expression n) n

variable {α : Type} {production : Production α} {cursor later : Cursor} {n : Nat}

theorem ends (production : Production α) (n : Nat) :
    Ends n production.read (production.counted n) := by
  cases production with
  | source => exact ends_source n
  | globals => exact ends_globals n
  | functions => exact ends_functions n
  | global => exact ends_global n
  | globalBody => exact ends_globalBody n
  | listGlobal => exact ends_listGlobal n
  | mutableGlobal => exact ends_mutableGlobal n
  | immutableGlobal => exact ends_immutableGlobal n
  | function => exact ends_function n
  | parameters => exact ends_parameters n
  | parameterList => exact ends_parameterList n
  | otherParameters => exact ends_otherParameters n
  | parameter => exact ends_parameter
  | typeName => exact ends_typeName
  | initializer => exact ends_initializer n
  | block => exact ends_block n
  | statement => exact ends_statements n
  | declaration => exact ends_declaration n
  | switch => exact ends_switch (ends_block n) le_rfl
  | cases => exact ends_cases (ends_block n) le_rfl
  | valuedCase => exact ends_valuedCase (ends_block n) le_rfl
  | conditional => exact ends_conditional (ends_block n) le_rfl
  | alternative => exact ends_alternative (ends_block n)
  | loop => exact ends_loop (ends_block n) le_rfl
  | returns => exact ends_returns n
  | simple => exact ends_simple n
  | expression => exact ends_expression n
  | levels loosest => exact ends_levels (ends_operand n) loosest
  | operators level tighter => exact ends_operators (ends_levels (ends_operand n) tighter) le_rfl
  | primary => exact ends_operand n
  | operandAt token =>
    exact (ends_operandAt token (ends_expression n) le_rfl).mono n.le_succ
  | literal kind text => exact fun _ _ => endsAt_literal kind text
  | groupRest => exact ends_groupRest (ends_expression n)
  | nameRest name => exact ends_nameRest name (ends_expression n) le_rfl
  | arguments => exact ends_arguments (ends_expression n) le_rfl
  | expressions => exact ends_expressions (ends_expression n) le_rfl
  | otherExpressions => exact ends_otherExpressions (ends_expression n) le_rfl

/-- The count does not matter where it is enough. -/
theorem finishes (production : Production α) (cursor : Cursor) : ∃ outcome later,
    production.read cursor = some (outcome, later) ∧ cursor.Leads later ∧
      ∀ n, cursor.rest.length ≤ n →
        production.counted n cursor = outcome.map fun a => (a, later) := by
  cases production.ends cursor.rest.length cursor le_rfl with
  | returns a later hHere _ hLeads =>
    refine ⟨.ok a, later, hHere, hLeads, fun n hLength => ?_⟩
    exact (production.ends n cursor hLength).counted hHere
  | fails error later hHere _ hLeads =>
    refine ⟨.error error, later, hHere, hLeads, fun n hLength => ?_⟩
    exact (production.ends n cursor hLength).counted hHere

theorem progressesAt_expression (hLength : cursor.rest.length ≤ n) :
    ProgressesAt cursor (Grammar.expression n) := by
  intro e later hOk
  rw [expression_eq_tightening hLength] at hOk
  exact progressesAt_tightening Level.all hLength e later hOk

theorem consumes (hProgress : ProgressesAt cursor (production.counted cursor.rest.length)) {a : α}
    (hHere : production.read cursor = some (.ok a, later)) :
    later.rest.length < cursor.rest.length :=
  hProgress a later ((production.ends cursor.rest.length cursor le_rfl).counted hHere)

theorem parse_eq (tokens : List Token) : Method.parse tokens = some (ProcLang.parse tokens) := by
  obtain ⟨outcome, later, hHere, -, hCounted⟩ := source.finishes (.ofTokens tokens)
  have hSource : Grammar.source tokens.length (.ofTokens tokens) = _ :=
    hCounted tokens.length le_rfl
  rw [Method.parse, ProcLang.parse, hHere, hSource]
  cases outcome <;> rfl

end Production

/-- Without any count, each method of the grammar ends at each cursor. It moves the cursor forward
only, not past the last token, and does what the counted parser does whose count is not smaller than
the number of tokens that remain. Expressions, statements, globals and functions that are read have
a token at least. So any list of tokens is read to a program or an error. -/
theorem parser_finishes :
    (∀ {α : Type} (production : Production α) (cursor : Cursor), ∃ outcome later,
      production.read cursor = some (outcome, later) ∧ cursor.Leads later ∧
        ∀ n, cursor.rest.length ≤ n →
          production.counted n cursor = outcome.map fun a => (a, later)) ∧
    (∀ cursor later : Cursor,
      (∀ e, Production.expression.read cursor = some (.ok e, later) →
        later.rest.length < cursor.rest.length) ∧
      (∀ s, Production.statement.read cursor = some (.ok s, later) →
        later.rest.length < cursor.rest.length) ∧
      (∀ g, Production.global.read cursor = some (.ok g, later) →
        later.rest.length < cursor.rest.length) ∧
      ∀ f, Production.function.read cursor = some (.ok f, later) →
        later.rest.length < cursor.rest.length) ∧
    ∀ tokens, Method.parse tokens = some (parse tokens) :=
  ⟨Production.finishes, fun _ _ =>
    ⟨fun _ => Production.consumes (Production.progressesAt_expression le_rfl),
      fun _ => Production.consumes (Production.progressesAt_statements le_rfl),
      fun _ => Production.consumes (Production.progressesAt_global le_rfl),
      fun _ => Production.consumes (Production.progressesAt_function le_rfl)⟩,
    Production.parse_eq⟩

/-- Tokens whose kinds and offsets no text has. -/
def crossed : List Token :=
  [⟨.integer, "1", 7⟩, ⟨.operator, "+", 0⟩, ⟨.identifier, "(", 3⟩, ⟨.string, "NIL", 1⟩,
    ⟨.character, ")", 1⟩, ⟨.integer, ";", 2⟩]

theorem parser_finishes_crossed :
    (∃ s later, Production.statement.read ⟨crossed, 0⟩ = some (.ok s, later) ∧
      later.rest.length < crossed.length) ∧
    Method.parse crossed = some (parse crossed) := by
  obtain ⟨hFinishes, hConsumes, hParse⟩ := parser_finishes
  refine ⟨?_, hParse crossed⟩
  obtain ⟨outcome, later, hHere, -, hCounted⟩ := hFinishes .statement ⟨crossed, 0⟩
  have hOk : (Grammar.statements 6 ⟨crossed, 0⟩).toOption.any (fun _ => true) = true := by
    decide +kernel
  obtain ⟨⟨s, rest⟩, hStatement, -⟩ := exists_of_any_ok hOk
  have hSame : Grammar.statements 6 ⟨crossed, 0⟩ = _ := hCounted 6 (by decide)
  rw [hSame] at hStatement
  cases outcome with
  | error error => cases hStatement
  | ok s => exact ⟨s, later, hHere, (hConsumes ⟨crossed, 0⟩ later).2.1 s hHere⟩

end ProcLang
