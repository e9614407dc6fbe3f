import ProcLang.Proofs.Grammar.Predictive
import ProcLang.Proofs.Grammar.RoundTrip

/-! # The grammar is predictive

Every production decides by one lexeme ahead, and whatever it has read can be completed. So an error
is reported at the first token that no program has there.
-/

namespace ProcLang

set_option autoImplicit false

namespace Grammar

open ProcLang.Parser

/-- How missing expressions are completed. -/
def nil : Lexeme :=
  .fixed "NIL"

theorem follows_none (levels : List Level) : Follows levels none where
  operator _ _ := rfl
  bracket := nofun

section Expressions

variable {n : Nat} {levels : List Level}

/-- Behind expressions, where nothing else can come. -/
theorem Predictive.before {p : Nat → Parser Expr} {text : String}
    (h : Predictive n p (Ahead nil) (Follows Level.all))
    (hText : text ∈ [")", "]", ",", ";", "=", ":", "DO", "CASE", "DEFAULT"]) :
    Predictive n p (Ahead nil) (Ahead (.fixed text)) :=
  h.weaken (fun _ => id) fun _ hNext => hNext ▸ follows_fixed text hText

/-- Steps of a chain begin with an operator, so only their operands can be rejected. -/
theorem predictive_steps {level : Level}
    (h : Predictive n (tightening levels) (Ahead nil) (Follows (level :: levels))) :
    Predictive (n - 1) (fun n => many (Cursor.operator? level) (step (tightening levels (n + 1))) n)
      (Follows (level :: levels)) (Follows (level :: levels)) := by
  have hConsuming : Consuming (fun _ => False) (Follows (level :: levels)) :=
    ⟨none, follows_none _, id⟩
  refine predictive_many (sees_operator level) rfl
    (fun next hNext => hNext.operator level List.mem_cons_self) hConsuming
    fun operator l rest hLength _ => ?_
  have hRight := (h.bind_pure (f := fun right => (operator, right))).decided rest (by grind)
  exact hRight.cons fun us outcome next hRead =>
    Reads.bind_succ (reads_skip l) (by simp) hRead.shift.shift

theorem predictive_chain {level : Level}
    (h : Predictive n (tightening levels) (Ahead nil) (Follows levels)) :
    Predictive n (tightening (level :: levels)) (Ahead nil) (Follows (level :: levels)) := by
  have hOperand : Predictive n (tightening levels) (Ahead nil) (Follows (level :: levels)) :=
    h.weaken (fun _ => id) fun _ => Follows.tail
  have hConsuming : Consuming (Ahead nil) (Follows (level :: levels)) :=
    ⟨none, follows_none _, nofun⟩
  exact hOperand.bind_succ hConsuming fun first => (predictive_steps hOperand).bind_pure

theorem predictive_tightening (h : Predictive n operand (Ahead nil) (Follows [])) :
    Predictive n (tightening levels) (Ahead nil) (Follows levels) := by
  induction levels with
  | nil => exact h
  | cons level levels ih => exact predictive_chain ih

variable (hExpression : Predictive n expression (Ahead nil) (Follows Level.all))

include hExpression

theorem predictive_groupRest :
    Predictive n (fun n => groupRest (expression n)) (Ahead nil) Anything :=
  (Predictive.before hExpression (by decide)).bind fun _ =>
    (predictive_expect ")").bind_pure

theorem predictive_arguments :
    Predictive n (fun n => arguments (expression n) n) (Ahead nil) Anything := by
  have hItems : Predictive n (fun n => commaSeparated (expression n) n) (Ahead nil)
      (Ahead (.fixed ")")) :=
    predictive_commaSeparated (ne_of_ahead (by decide)) ⟨_, rfl⟩
      (Predictive.before hExpression (by decide))
  refine Predictive.eat_else (ne_of_ahead (by decide)) predictive_pure.closed ?_
  exact hItems.bind fun _ => (predictive_expect ")").bind_pure

theorem predictive_nameRest (name : String) :
    Predictive n (fun n => nameRest name (expression n) n) (Follows []) (Follows []) := by
  have hShorter := hExpression.mono (Nat.sub_le n 1)
  refine Predictive.eat_else (fun next hNext l hl => (hNext.bracket l hl).1) ?_ ?_
  · exact (predictive_arguments hShorter).shift.bind_pure.closed
  · refine Predictive.eat_else (fun next hNext l hl => (hNext.bracket l hl).2) ?_ predictive_pure
    have hIndex : Predictive (n - 1) expression (Ahead nil) (Ahead (.fixed "]")) :=
      Predictive.before hShorter (by decide)
    exact (hIndex.shift.bind fun index => (predictive_expect "]").bind_pure).closed

omit hExpression in
theorem completes_operand :
    Completes operand (Ahead nil) (Follows []) [] [nil] (.literal .nil none) where
  reads _ _ := reads_literal (rfl : Literal.isWritable .nil = true)
  first _ _ _ := rfl

theorem decided_operand_cons {l : Lexeme} {rest : List Lexeme} (hLength : rest.length < n) :
    Decided operand (Ahead nil) (Follows []) (l :: rest) := by
  have hSome : ∃ v a, Completes operand (Ahead nil) (Follows []) [] v a :=
    ⟨_, _, completes_operand⟩
  -- The tests are made in the order in which the parser makes them.
  by_cases hWord : l.text ∈ literalWords
  · obtain ⟨value, hRead⟩ := exists_reads_operand_word hWord
    exact .read_one hRead
  by_cases hLiteral : l.kind ≠ .identifier ∧ l.kind ≠ .operator
  · cases hText : Literal.ofText l.kind l.text with
    | error error =>
      exact .reject (.literal error) hSome (reads_operand_literal_error hWord hLiteral hText)
    | ok value => exact .read_one fun _ => reads_operand_literal hWord hLiteral hText
  have hKind : l.kind = .identifier ∨ l.kind = .operator := by
    rwa [not_and_or, not_ne_iff, not_ne_iff] at hLiteral
  by_cases hText : l.text = "("
  · have hRest : Decided (fun n => groupRest (expression n)) Anything (Follows []) rest :=
      (predictive_groupRest hExpression).closed.decided rest hLength
    exact hRest.cons fun _ _ _ => reads_operand_group hText hKind
  rcases hKind with hKind | hKind
  · have hRest := (predictive_nameRest hExpression l.text).decided rest hLength
    exact hRest.cons fun _ _ _ => reads_operand_name hWord hText hKind
  · exact .reject (.expectedExpression l.text) hSome (reads_operand_operator hWord hText hKind)

theorem predictive_operand : Predictive (n + 1) operand (Ahead nil) (Follows []) where
  completes := ⟨_, _, completes_operand⟩
  decided lexemes hLength := by
    cases lexemes with
    | nil => exact .reject _ ⟨_, _, completes_operand⟩ reads_operand_none
    | cons l rest => exact decided_operand_cons hExpression (Nat.lt_of_succ_lt_succ hLength)

end Expressions

theorem predictive_expression (n : Nat) :
    Predictive n expression (Ahead nil) (Follows Level.all) := by
  have hOf : ∀ n, Predictive n operand (Ahead nil) (Follows []) →
      Predictive n expression (Ahead nil) (Follows Level.all) := fun n hOperand =>
    (predictive_tightening hOperand).map fun _ _ _ => reads_expression_of_tightening
  -- The expressions inside an operand have fewer lexemes than the operand.
  induction n with
  | zero => exact hOf 0 ⟨⟨_, _, completes_operand⟩, nofun⟩
  | succ n ih => exact hOf (n + 1) (predictive_operand ih)

/-- An expression before a lexeme that is no part of it. -/
theorem predictive_expression_before {n : Nat} (text : String)
    (hText : text ∈ [")", "]", ",", ";", "=", ":", "DO", "CASE", "DEFAULT"]) :
    Predictive n expression (Ahead nil) (Ahead (.fixed text)) :=
  Predictive.before (predictive_expression n) hText

theorem predictive_typeName {n : Nat} {l : Lexeme} (hText : l.text ≠ ":") :
    Predictive n (fun _ => typeAnnotation) (Ahead l) (Ahead l) :=
  predictive_optional (ne_of_ahead hText) (predictive_identifier "x").closed

theorem predictive_initializer (n : Nat) :
    Predictive n (fun n => optional "=" (expression n)) (Ahead (.fixed ";")) (Ahead (.fixed ";")) :=
  predictive_optional (ne_of_ahead (by decide)) (predictive_expression_before ";" (by decide))

theorem predictive_declaration (n : Nat) :
    Predictive n declaration (Ahead (.name "x")) Anything := by
  refine (predictive_identifier "x").bind_closed (Ahead (.fixed ";")) fun name => ?_
  refine (predictive_typeName (by decide)).bind fun typeName => ?_
  refine (predictive_initializer n).bind fun value => ?_
  exact (predictive_expect ";").bind_pure

theorem predictive_returns (n : Nat) : Predictive n returns (Ahead nil) Anything :=
  (predictive_expression_before ";" (by decide)).bind fun _ =>
    (predictive_expect ";").bind_pure

theorem predictive_simple (n : Nat) : Predictive n simple (Ahead nil) Anything := by
  refine (predictive_expression_before ";" (by decide)).bind fun first => ?_
  refine (predictive_initializer n).bind fun value => ?_
  cases value with
  | none => exact (predictive_expect ";").bind_pure
  | some value => exact (predictive_expect ";").bind_pure

theorem consuming_ahead {l l' : Lexeme} (h : l' ≠ l) : Consuming (Ahead l) (Ahead l') :=
  ⟨some l', rfl, fun hSame => h (Option.some.inj hSame)⟩

section Blocks

variable {n : Nat} (hBlock : ∀ text ∈ blockEnds,
  Predictive n block (Ahead (.fixed text)) (Ahead (.fixed text)))

include hBlock

theorem predictive_loop : Predictive n (fun n => loop (block (n - 1)) n) (Ahead nil) Anything := by
  refine (predictive_expression_before "DO" (by decide)).bind_succ (consuming_ahead (by decide))
    fun condition => ?_
  refine (predictive_expect _).bind_closed (Ahead (.fixed "END")) fun _ => ?_
  refine ((hBlock "END" (by decide)).mono (Nat.sub_le n 1)).bind fun body => ?_
  exact (predictive_expect _).bind_pure

theorem predictive_conditional :
    Predictive n (fun n => conditional (block (n - 1)) n) (Ahead nil) Anything := by
  have hEnd := (hBlock "END" (by decide)).mono (Nat.sub_le n 1)
  refine (predictive_expression_before "DO" (by decide)).bind_succ (consuming_ahead (by decide))
    fun condition => ?_
  refine (predictive_expect _).bind_closed (Ahead (.fixed "END")) fun _ => ?_
  refine hEnd.bind fun consequent => ?_
  refine (predictive_optional (ne_of_ahead (by decide)) (hEnd.mono (Nat.sub_le _ 1))).bind
    fun alternative => ?_
  exact (predictive_expect _).bind_pure

theorem predictive_valuedCase :
    Predictive n (fun n => valuedCase (block (n - 1)) n) (Ahead nil) (Ahead (.fixed "DEFAULT")) := by
  refine (predictive_expression_before ":" (by decide)).bind_succ (consuming_ahead (by decide))
    fun value => ?_
  refine (predictive_expect _).bind_closed (Ahead (.fixed "DEFAULT")) fun _ => ?_
  exact ((hBlock "DEFAULT" (by decide)).mono (Nat.sub_le n 1)).bind_pure

theorem predictive_switch :
    Predictive n (fun n => switch (block (n - 1)) n) (Ahead nil) Anything := by
  have hCases : Predictive n (fun n => manyAt "CASE" (valuedCase (block (n - 1)) n) n)
      (Ahead (.fixed "DEFAULT")) (Ahead (.fixed "DEFAULT")) :=
    predictive_manyAt (ne_of_ahead (by decide)) ⟨_, rfl⟩
      ((predictive_valuedCase hBlock).mono (Nat.sub_le n 1))
  refine (predictive_expression_before "DEFAULT" (by decide)).bind_succ (consuming_ahead (by decide))
    fun subject => ?_
  refine (hCases.mono (Nat.sub_le n 1)).shift.bind fun cases => ?_
  refine (predictive_expect _).bind_closed (Ahead (.fixed "END")) fun _ => ?_
  refine ((hBlock "END" (by decide)).mono (Nat.sub_le n 1)).bind fun body => ?_
  exact (predictive_expect _).bind_pure

theorem predictive_statements : Predictive (n + 1) statements (Ahead nil) Anything := by
  refine Predictive.eat_else (ne_of_ahead (by decide)) (predictive_declaration n).shift.closed ?_
  refine Predictive.eat_else (ne_of_ahead (by decide)) (predictive_switch hBlock).shift.closed ?_
  refine Predictive.eat_else (ne_of_ahead (by decide)) (predictive_conditional hBlock).shift.closed ?_
  refine Predictive.eat_else (ne_of_ahead (by decide)) (predictive_loop hBlock).shift.closed ?_
  exact Predictive.eat_else (ne_of_ahead (by decide)) (predictive_returns n).shift.closed
    (predictive_simple (n + 1))

end Blocks

/-- Statements are read up to a word that ends blocks. -/
theorem predictive_block_of {n : Nat}
    (h : ∀ lexemes, lexemes.length < n → Decided statements (Ahead nil) Anything lexemes) :
    ∀ text ∈ blockEnds, Predictive n block (Ahead (.fixed text)) (Ahead (.fixed text)) := by
  intro text hText
  rw [funext block_eq_many]
  have hNil : Lexeme.fixed text ≠ nil := by
    rintro hNil
    obtain rfl : text = "NIL" := congrArg Lexeme.text hNil
    revert hText
    decide
  have hStops : ∀ next, Ahead (.fixed text) next → seesStatement next = none := by
    rintro _ rfl
    exact seesStatement_fixed hText
  refine predictive_many sees_statement rfl hStops (consuming_ahead hNil) fun _ l rest hLength _ => ?_
  exact (h (l :: rest) hLength).weaken (fun _ => id) fun _ _ => trivial

theorem predictive_block (n : Nat) : ∀ text ∈ blockEnds,
    Predictive n block (Ahead (.fixed text)) (Ahead (.fixed text)) := by
  induction n with
  | zero => exact predictive_block_of nofun
  | succ n ih => exact predictive_block_of (predictive_statements ih).decided

theorem predictive_listGlobal (n : Nat) : Predictive n listGlobal (Ahead (.name "x")) Anything := by
  have hItems : Predictive n (fun n => commaSeparated (expression n) n) (Ahead nil)
      (Ahead (.fixed "]")) :=
    predictive_commaSeparated (ne_of_ahead (by decide)) ⟨_, rfl⟩
      (predictive_expression_before "]" (by decide))
  refine (predictive_identifier "x").bind_closed (Ahead (.fixed ":")) fun name => ?_
  refine (predictive_expect _).bind_closed (Ahead (.name "x")) fun _ => ?_
  refine (predictive_identifier "x").bind_closed (Ahead (.fixed "=")) fun typeName => ?_
  refine (predictive_expect _).bind_closed (Ahead (.fixed "[")) fun _ => ?_
  refine (predictive_expect _).bind_closed (Ahead nil) fun _ => ?_
  exact hItems.bind fun items => (predictive_expect _).bind_pure

theorem predictive_mutableGlobal (n : Nat) :
    Predictive n mutableGlobal (Ahead (.name "x")) (Ahead (.fixed ";")) := by
  refine (predictive_identifier "x").bind_closed (Ahead (.fixed ";")) fun name => ?_
  refine (predictive_typeName (by decide)).bind fun typeName => ?_
  exact (predictive_initializer n).bind_pure

theorem predictive_immutableGlobal (n : Nat) :
    Predictive n immutableGlobal (Ahead (.name "x")) (Ahead (.fixed ";")) := by
  refine (predictive_identifier "x").bind_closed (Ahead (.fixed "=")) fun name => ?_
  refine (predictive_typeName (by decide)).bind fun typeName => ?_
  refine (predictive_expect _).bind_closed (Ahead nil) fun _ => ?_
  exact (predictive_expression_before ";" (by decide)).bind_pure

theorem predictive_global (n : Nat) :
    Predictive n Grammar.global (Ahead (.fixed "VAL")) Anything := by
  have hAnything : ∀ next, Ahead (.name "x") next → Anything next := fun _ _ => trivial
  have hBody : Predictive n globalBody (Ahead (.fixed "VAL")) (Ahead (.fixed ";")) := by
    refine Predictive.eat_else (ne_of_ahead (by decide))
      (predictive_listGlobal (n - 1)).shift.closed ?_
    refine Predictive.eat_else (ne_of_ahead (by decide))
      ((predictive_mutableGlobal (n - 1)).shift.weaken hAnything fun _ => id) ?_
    exact (predictive_expect _).bind_closed _ fun _ => predictive_immutableGlobal n
  exact hBody.bind fun global => (predictive_expect _).bind_pure

theorem predictive_parameters (n : Nat) :
    Predictive n parameters (Ahead (.name "x")) Anything := by
  have hParameter : Predictive n (fun _ => parameter) (Ahead (.name "x")) Anything := by
    refine (predictive_identifier "x").bind_closed (Ahead (.fixed ":")) fun name => ?_
    refine (predictive_expect _).bind_closed (Ahead (.name "x")) fun _ => ?_
    exact (predictive_identifier "x").bind_pure
  have hItems : Predictive n (fun n => commaSeparated parameter n) (Ahead (.name "x"))
      (Ahead (.fixed ")")) :=
    predictive_commaSeparated (ne_of_ahead (by decide)) ⟨_, rfl⟩
      (hParameter.weaken (fun _ => id) fun _ _ => trivial)
  refine Predictive.eat_else (ne_of_ahead (by decide)) predictive_pure.closed ?_
  exact hItems.bind fun _ => (predictive_expect _).bind_pure

theorem predictive_function (n : Nat) :
    Predictive n Grammar.function (Ahead (.fixed "FUN")) Anything := by
  refine (predictive_expect _).bind_closed (Ahead (.name "x")) fun _ => ?_
  refine (predictive_identifier "x").bind_closed (Ahead (.fixed "(")) fun name => ?_
  refine (predictive_expect _).bind_closed (Ahead (.name "x")) fun _ => ?_
  refine (predictive_parameters n).bind_closed (Ahead (.fixed "DO")) fun parameters => ?_
  refine (predictive_typeName (by decide)).bind fun returnType => ?_
  refine (predictive_expect _).bind_closed (Ahead (.fixed "END")) fun _ => ?_
  refine (predictive_block n "END" (by decide)).bind fun body => ?_
  exact (predictive_expect _).bind_pure

/-- The tokens end. -/
def AtEnd (next : Option Lexeme) : Prop :=
  next = none

theorem consuming_atEnd (l : Lexeme) : Consuming (Ahead l) AtEnd :=
  ⟨none, rfl, nofun⟩

theorem predictive_finish (n : Nat) (globals : List Global) (functions : List Function) :
    Predictive n (fun _ => finish globals functions) AtEnd AtEnd := by
  have hSome : Completes (fun _ => finish globals functions) AtEnd AtEnd [] []
      ⟨globals, functions⟩ := by
    constructor
    · rintro _ rfl
      exact reads_finish globals functions
    · exact fun _ _ hNext => hNext
  refine ⟨⟨_, _, hSome⟩, fun lexemes _ => ?_⟩
  cases lexemes with
  | nil => exact .reads [] [] _ rfl (reads_finish globals functions) hSome
  | cons l rest => exact .reject _ ⟨_, _, hSome⟩ (reads_finish_error globals functions l)

theorem predictive_source (n : Nat) : Predictive n Grammar.source AtEnd AtEnd := by
  have hGlobals : Predictive n (fun n => many
      (fun cursor => if cursor.checkAny ["LIST", "VAR", "VAL"] then some () else none)
      (fun _ => Grammar.global n) n) AtEnd AtEnd := by
    refine predictive_many (sees_checkAny _) rfl (by rintro _ rfl; rfl)
      (consuming_atEnd (.fixed "VAL")) fun _ l rest hLength _ => ?_
    exact ((predictive_global n).weaken (fun _ => id) fun _ _ => trivial).decided _ hLength
  have hFunctions : Predictive n (fun n => many
      (fun cursor => if cursor.check (.text "FUN") then some () else none)
      (fun _ => Grammar.function n) n) AtEnd AtEnd := by
    refine predictive_many (sees_check "FUN") rfl (by rintro _ rfl; rfl)
      (consuming_atEnd (.fixed "FUN")) fun _ l rest hLength _ => ?_
    exact ((predictive_function n).weaken (fun _ => id) fun _ _ => trivial).decided _ hLength
  refine hGlobals.bind fun globals => hFunctions.bind fun functions => ?_
  exact predictive_finish n globals functions

end Grammar

end ProcLang
