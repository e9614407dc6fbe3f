import ProcLang.Proofs.Grammar.Consumes
import ProcLang.Proofs.Grammar.Shape

/-! # Parsed programs are sentences

Each production moves past lexemes that the grammar derives and makes a tree of them whose spelling
they are, but for the texts of literals and an `ELSE` without statements.
-/

namespace ProcLang

set_option autoImplicit false

namespace Parser

theorem exists_of_ofSymbol? {text : String} {operator : Operator}
    (h : Operator.ofSymbol? text = some operator) : operator.symbol = text := by
  simpa using List.find?_some h

theorem exists_of_seesOperator {level : Level} {next : Option Lexeme} {operator : Operator}
    (h : seesOperator level next = some operator) :
    next = some (.fixed operator.symbol) ∧ operator.level = level := by
  unfold seesOperator at h
  split at h
  · obtain ⟨hSymbol, hLevel⟩ := Option.filter_eq_some_iff.mp h
    obtain rfl := exists_of_ofSymbol? hSymbol
    refine ⟨?_, of_decide_eq_true hLevel⟩
    cases operator <;> rfl
  · cases h

end Parser

namespace Grammar

open ProcLang.Parser

section Expressions

variable {operand expression : Parser Expr} {g : Ebnf}

theorem consumes_chain (level : Level) (hOperand : Consumes operand fun us e => Spells g us e.spell)
    (n : Nat) :
    Consumes (chain level operand n) fun us e => Spells (.chain level g) us e.spell := by
  refine consumes_bind hOperand fun first us hFirst => ?_
  have hSteps : Consumes (many (Cursor.operator? level) (step operand) n) fun us steps =>
      Spells (.star (Ebnf.operators level ++ g)) us (Expr.spellSteps steps) := by
    refine consumes_many (fun cursor operator hFound => ?_) n
    obtain ⟨rest, stop⟩ := cursor
    obtain ⟨hNext, rfl⟩ := exists_of_seesOperator ((sees_operator level _).symm.trans hFound)
    obtain ⟨token, hToken, hLexeme⟩ := Option.map_eq_some_iff.mp hNext
    obtain ⟨others, rfl⟩ := List.head?_eq_some_iff.mp hToken
    refine consumesAt_bind consumesAt_skip fun _ vs hSkip => ?_
    refine consumes_bind hOperand fun right ws hRight => consumes_pure ?_
    rw [hSkip, hLexeme, List.append_nil]
    exact (Spells.operator operator).seq hRight
  refine consumes_bind hSteps fun steps vs hSteps => consumes_pure ?_
  rw [Expr.spell_foldl, List.append_nil]
  exact hFirst.seq hSteps

variable (hExpression : Consumes expression fun us e => Spells (.ref .expression) us e.spell)

include hExpression

theorem consumes_groupRest :
    Consumes (groupRest expression) fun us e =>
      Spells (.word "(" ++ .ref .expression ++ .word ")") (.fixed "(" :: us) e.spell := by
  refine consumes_bind hExpression fun inner us hInner => ?_
  refine consumes_bind (consumes_expect (by decide)) fun _ vs hClose => consumes_pure ?_
  subst hClose
  simpa [Expr.spell] using ((Spells.word "(").seq hInner).seq (Spells.word ")")

theorem consumes_arguments (n : Nat) :
    Consumes (arguments expression n) fun us es =>
      Spells (.closed (.ref .expression)) us (Expr.spellItems es ++ [.fixed ")"]) := by
  refine consumes_eat_else (by decide) (consumes_pure (Spells.none.seq (Spells.word ")"))) ?_
  refine consumes_bind (consumes_commaSeparated hExpression n) fun es us hItems => ?_
  refine consumes_bind (consumes_expect (by decide)) fun _ vs hClose => consumes_pure ?_
  obtain ⟨first, others, rfl, hItems⟩ := hItems
  rw [hClose, Expr.spellItems, Expr.spellOthers_eq, List.append_nil]
  exact hItems.some.seq (Spells.word ")")

theorem consumes_nameRest (name : String) (n : Nat) :
    Consumes (nameRest name expression n) fun us e =>
      Spells (.identifier ++ .opt ((.word "(" ++ .closed (.ref .expression)) |||
        (.word "[" ++ .ref .expression ++ .word "]"))) (.name name :: us) e.spell := by
  refine consumes_eat_else (by decide) ?_ (consumes_eat_else (by decide) ?_ ?_)
  · refine consumes_bind (consumes_arguments hExpression n) fun es us hArguments => consumes_pure ?_
    rw [List.append_nil]
    exact (Spells.identifier name).seq ((Spells.word "(").seq hArguments).left.some
  · refine consumes_bind hExpression fun index us hIndex => ?_
    refine consumes_bind (consumes_expect (by decide)) fun _ vs hClose => consumes_pure ?_
    subst hClose
    have hElement := ((Spells.word "[").seq hIndex).seq (Spells.word "]")
    simpa [Expr.spell] using (Spells.identifier name).seq hElement.right.some
  · exact consumes_pure ((Spells.identifier name).seq .none)

end Expressions

section Operands

variable {token : Token} {others : List Token} {stop : Nat}

theorem consumesAt_literal (hFormed : token.lexeme.Formed) :
    ConsumesAt ⟨token :: others, stop⟩ (literal token.kind token.literal) fun us e =>
      Spells (.ref .primary) us e.spell := by
  unfold literal
  split
  · exact consumes_fail _ _
  · rename_i value hText
    refine consumesAt_bind consumesAt_skip fun _ us hSkip => consumes_pure ?_
    subst hSkip
    exact .ref .primary (Spells.literal hFormed hText).left.left

theorem consumesAt_word {value : Literal} (hToken : token.lexeme = value.spell)
    (hKind : value.spell.kind = .identifier) :
    ConsumesAt ⟨token :: others, stop⟩ (do skip; return Expr.literal value none) fun us e =>
      Spells (.ref .primary) us e.spell := by
  refine consumesAt_bind consumesAt_skip fun _ us hSkip => consumes_pure ?_
  subst hSkip
  rw [hToken]
  exact .ref .primary (Spells.literalWord hKind).left.left

variable {expression : Parser Expr}

theorem consumesAt_operandAt
    (hExpression : Consumes expression fun us e => Spells (.ref .expression) us e.spell) (n : Nat)
    (hFormed : token.lexeme.Formed) :
    ConsumesAt ⟨token :: others, stop⟩ (operandAt token.lexeme expression n) fun us e =>
      Spells (.ref .primary) us e.spell := by
  have hFixed : ∀ {text}, Lexeme.isFixed text = true → token.literal = text →
      token.lexeme = .fixed text := fun hFixed hText => hFormed.eq_fixed hText hFixed
  unfold operandAt
  split
  · rename_i hText
    have hToken : token.lexeme = Literal.spell .nil := hFixed (by decide) hText
    exact consumesAt_word hToken rfl
  split
  · rename_i hText
    have hToken : token.lexeme = Literal.spell (.boolean true) := hFixed (by decide) hText
    exact consumesAt_word hToken rfl
  split
  · rename_i hText
    have hToken : token.lexeme = Literal.spell (.boolean false) := hFixed (by decide) hText
    exact consumesAt_word hToken rfl
  split
  · exact consumesAt_literal hFormed
  · exact consumesAt_literal hFormed
  · exact consumesAt_literal hFormed
  · exact consumesAt_literal hFormed
  · split
    · rename_i hText
      refine consumesAt_bind consumesAt_skip fun _ us hSkip => ?_
      rw [hSkip, hFixed (by decide) hText]
      exact (consumes_groupRest hExpression).imp fun us e h => .ref .primary h.right.left
    split
    · rename_i hKind
      refine consumesAt_bind consumesAt_skip fun _ us hSkip => ?_
      refine (consumes_nameRest hExpression token.literal n).imp fun vs e h => ?_
      subst hSkip
      obtain ⟨kind, text, offset⟩ := token
      obtain rfl : kind = .identifier := hKind
      exact .ref .primary h.right
    · exact consumes_fail _ _

theorem consumes_primary
    (hExpression : Consumes expression fun us e => Spells (.ref .expression) us e.spell) (n : Nat) :
    Consumes (primary expression n) fun us e => Spells (.ref .primary) us e.spell := by
  rintro ⟨rest, stop⟩
  cases rest with
  | nil => exact (consumes_fail (.expectedExpression none) _).congr rfl
  | cons token others =>
    refine ConsumesAt.congr (fun hFormed => ?_) (primary_cons expression n token others stop)
    exact consumesAt_operandAt hExpression n (hFormed token List.mem_cons_self) hFormed

end Operands

theorem consumes_expression (n : Nat) :
    Consumes (expression n) fun us e => Spells (.ref .expression) us e.spell := by
  induction n with
  | zero => exact consumes_fail _
  | succ n ih =>
    have hMultiplicative := (consumes_chain .multiplicative (consumes_primary ih n) n).imp
      fun us e h => Spells.ref .multiplicative h
    have hAdditive := (consumes_chain .additive hMultiplicative n).imp
      fun us e h => Spells.ref .additive h
    have hComparison := (consumes_chain .comparison hAdditive n).imp
      fun us e h => Spells.ref .comparison h
    exact (consumes_chain .logical hComparison n).imp
      fun us e h => .ref .expression (Spells.ref .logical h)

theorem consumes_typeName :
    Consumes typeAnnotation fun us typeName => Spells .optionalType us (spellTypeName typeName) := by
  have hName : Consumes identifier fun us name => Spells .identifier us [.name name] :=
    consumes_identifier.imp fun us name h => h ▸ Spells.identifier name
  refine (consumes_optional (by decide) hName).imp fun us typeName h => ?_
  rcases h with ⟨rfl, rfl⟩ | ⟨vs, typeName, rfl, rfl, hName⟩
  · exact .none
  · exact .some ((Spells.word ":").seq hName)

theorem consumes_initializer (n : Nat) :
    Consumes (optional "=" (expression n)) fun us value =>
      Spells .initializer us (spellInitializer value) := by
  refine (consumes_optional (by decide) (consumes_expression n)).imp fun us value h => ?_
  rcases h with ⟨rfl, rfl⟩ | ⟨vs, value, rfl, rfl, hValue⟩
  · exact .none
  · exact .some ((Spells.word "=").seq hValue)

theorem consumes_declaration (n : Nat) :
    Consumes (declaration n) fun us s => Spells (.ref .statement) (.fixed "LET" :: us) s.spell := by
  refine consumes_bind consumes_identifier fun name _ hName => ?_
  refine consumes_bind consumes_typeName fun typeName us hType => ?_
  refine consumes_bind (consumes_initializer n) fun value vs hValue => ?_
  refine consumes_bind (consumes_expect (by decide)) fun _ _ hEnd => consumes_pure ?_
  subst hName hEnd
  have hParts := ((((Spells.word "LET").seq (.identifier name)).seq hType).seq hValue).seq (.word ";")
  have hStatement := Spells.ref .statement hParts.left.left.left.left.left
  simpa [Stmt.spell] using hStatement

theorem consumes_returns (n : Nat) :
    Consumes (returns n) fun us s => Spells (.ref .statement) (.fixed "RETURN" :: us) s.spell := by
  refine consumes_bind (consumes_expression n) fun value us hValue => ?_
  refine consumes_bind (consumes_expect (by decide)) fun _ _ hEnd => consumes_pure ?_
  subst hEnd
  have hParts := ((Spells.word "RETURN").seq hValue).seq (.word ";")
  have hStatement := Spells.ref .statement hParts.right.left
  simpa [Stmt.spell] using hStatement

theorem consumes_simple (n : Nat) :
    Consumes (simple n) fun us s => Spells (.ref .statement) us s.spell := by
  refine consumes_bind (consumes_expression n) fun first us hFirst => ?_
  refine consumes_bind (consumes_initializer n) fun value vs hValue => ?_
  refine consumes_bind (consumes_expect (by decide)) fun _ _ hEnd => ?_
  subst hEnd
  have hStatement := Spells.ref .statement ((hFirst.seq hValue).seq (.word ";")).right
  cases value with
  | none => exact consumes_pure (by simpa [Stmt.spell, spellInitializer] using hStatement)
  | some value => exact consumes_pure (by simpa [Stmt.spell, spellInitializer] using hStatement)

section Blocks

variable {block : Parser (List Stmt)}
  (hBlock : Consumes block fun us body => Spells (.ref .block) us (Stmt.spellBlock body))

include hBlock

theorem consumes_loop (n : Nat) :
    Consumes (loop block n) fun us s => Spells (.ref .statement) (.fixed "WHILE" :: us) s.spell := by
  refine consumes_bind (consumes_expression n) fun condition us hCondition => ?_
  refine consumes_bind (consumes_expect (by decide)) fun _ _ hDo => ?_
  refine consumes_bind hBlock fun body vs hBody => ?_
  refine consumes_bind (consumes_expect (by decide)) fun _ _ hEnd => consumes_pure ?_
  subst hDo hEnd
  have hParts :=
    ((((Spells.word "WHILE").seq hCondition).seq (.word "DO")).seq hBody).seq (.word "END")
  have hStatement := Spells.ref .statement hParts.right.left.left
  simpa [Stmt.spell] using hStatement

omit hBlock in
/-- Before the end of an `IF`, an `ELSE` without statements is not spelled. -/
theorem exists_alternative {us : List Lexeme} {found : Option (List Stmt)}
    (h : (us = [] ∧ found = none) ∨ ∃ vs body, us = .fixed "ELSE" :: vs ∧ found = some body ∧
      Spells (.ref .block) vs (Stmt.spellBlock body)) :
    Ebnf.Derives (.opt (.word "ELSE" ++ .ref .block)) us ∧
      Respelled (us ++ [.fixed "END"]) (Stmt.spellAlternative (found.getD []) ++ [.fixed "END"]) := by
  rcases h with ⟨rfl, rfl⟩ | ⟨vs, body, rfl, rfl, hBody⟩
  · exact ⟨.none, .refl _⟩
  · have hElse := ((Spells.word "ELSE").seq hBody).some
    refine ⟨hElse.derives, ?_⟩
    cases body with
    | nil =>
      obtain rfl := hBody.respelled.eq_nil rfl
      exact .emptyElse (.refl _)
    | cons statement rest => exact (hElse.seq (.word "END")).respelled

theorem consumes_conditional (n : Nat) :
    Consumes (conditional block n) fun us s =>
      Spells (.ref .statement) (.fixed "IF" :: us) s.spell := by
  refine consumes_bind (consumes_expression n) fun condition us hCondition => ?_
  refine consumes_bind (consumes_expect (by decide)) fun _ _ hDo => ?_
  refine consumes_bind hBlock fun consequent vs hConsequent => ?_
  refine consumes_bind (consumes_optional (by decide) hBlock) fun found ws hFound => ?_
  refine consumes_bind (consumes_expect (by decide)) fun _ _ hEnd => consumes_pure ?_
  subst hDo hEnd
  -- An empty branch is dropped from the spelling only because `END` is known to follow.
  obtain ⟨hDerives, hRespelled⟩ := exists_alternative hFound
  have hBefore := (((Spells.word "IF").seq hCondition).seq (.word "DO")).seq hConsequent
  have hParts := (hBefore.derives.seq hDerives).seq (.word "END")
  have hStatement : Ebnf.Derives (.rule .statement) _ := hParts.right.left.left.left
  constructor
  · simpa using hStatement.ref
  · simpa [Stmt.spell] using hBefore.respelled.append hRespelled

theorem consumes_valuedCase (n : Nat) :
    Consumes (valuedCase block n) fun us case =>
      Spells (.word "CASE" ++ .ref .expression ++ .word ":" ++ .ref .block) (.fixed "CASE" :: us)
        case.spell := by
  refine consumes_bind (consumes_expression n) fun value us hValue => ?_
  refine consumes_bind (consumes_expect (by decide)) fun _ _ hColon => ?_
  refine consumes_bind hBlock fun body vs hBody => consumes_pure ?_
  subst hColon
  have hParts := (((Spells.word "CASE").seq hValue).seq (.word ":")).seq hBody
  simpa [Case.spell] using hParts

theorem consumes_switch (n : Nat) :
    Consumes (switch block n) fun us s =>
      Spells (.ref .statement) (.fixed "SWITCH" :: us) s.spell := by
  refine consumes_bind (consumes_expression n) fun subject us hSubject => ?_
  refine consumes_bind (consumes_manyAt (by decide) (consumes_valuedCase hBlock n) n)
    fun cases vs hCases => ?_
  refine consumes_bind (consumes_expect (by decide)) fun _ _ hDefault => ?_
  refine consumes_bind hBlock fun body ws hBody => ?_
  refine consumes_bind (consumes_expect (by decide)) fun _ _ hEnd => consumes_pure ?_
  subst hDefault hEnd
  have hParts := (((((Spells.word "SWITCH").seq hSubject).seq hCases).seq (.word "DEFAULT")).seq
    hBody).seq (.word "END")
  have hStatement := Spells.ref .statement hParts.right.left.left.left.left
  simpa [Stmt.spell, Stmt.spellCases_eq, Case.spell] using hStatement

theorem consumes_statement (n : Nat) :
    Consumes (statement block n) fun us s => Spells (.ref .statement) us s.spell := by
  refine consumes_eat_else (by decide) (consumes_declaration n) ?_
  refine consumes_eat_else (by decide) (consumes_switch hBlock n) ?_
  refine consumes_eat_else (by decide) (consumes_conditional hBlock n) ?_
  refine consumes_eat_else (by decide) (consumes_loop hBlock n) ?_
  exact consumes_eat_else (by decide) (consumes_returns n) (consumes_simple n)

end Blocks

theorem consumes_block (n : Nat) :
    Consumes (block n) fun us body => Spells (.ref .block) us (Stmt.spellBlock body) := by
  induction n with
  | zero => exact consumes_pure (.ref .block .done)
  | succ n ih =>
    refine (consumes_many (fun cursor _ _ => consumes_statement ih (n + 1) cursor) (n + 1)).imp
      fun us body h => ?_
    rw [Stmt.spellBlock_eq]
    exact .ref .block h

theorem consumes_listGlobal (n : Nat) :
    Consumes (listGlobal n) fun us global =>
      Spells (.ref .list) (.fixed "LIST" :: us) global.spellBody := by
  refine consumes_bind consumes_identifier fun name _ hName => ?_
  refine consumes_bind (consumes_expect (by decide)) fun _ _ hColon => ?_
  refine consumes_bind consumes_identifier fun typeName _ hType => ?_
  refine consumes_bind (consumes_expect (by decide)) fun _ _ hEquals => ?_
  refine consumes_bind (consumes_expect (by decide)) fun _ _ hOpen => ?_
  refine consumes_bind (consumes_commaSeparated (consumes_expression n) n) fun items us hItems => ?_
  refine consumes_bind (consumes_expect (by decide)) fun _ _ hClose => consumes_pure ?_
  subst hName hColon hType hEquals hOpen hClose
  obtain ⟨first, others, rfl, hItems⟩ := hItems
  have hHead := (((((Spells.word "LIST").seq (.identifier name)).seq (.word ":")).seq
    (.identifier typeName)).seq (.word "=")).seq (.word "[")
  have hList := Spells.ref .list ((hHead.seq hItems).seq (.word "]"))
  simpa [Global.spellBody, Global.keyword, Expr.isList, spellTypeName, spellInitializer, Expr.spell,
    Expr.spellItems, Expr.spellOthers_eq] using hList

theorem keyword_of_plain {global : Global} (h : ∀ e, global.value = some e → e.isList = false) :
    global.keyword = if global.isMutable then "VAR" else "VAL" := by
  have hPlain : global.value.any Expr.isList = false := by
    rw [Option.any_eq_false]
    simpa using h
  rw [Global.keyword, hPlain]
  rfl

theorem consumes_mutableGlobal (n : Nat) :
    Consumes (mutableGlobal n) fun us global =>
      Spells (.ref .mutable) (.fixed "VAR" :: us) global.spellBody := by
  refine consumes_bind consumes_identifier fun name _ hName => ?_
  refine consumes_bind consumes_typeName fun typeName us hType => ?_
  have hPlain : (optional "=" (expression n)).Yields fun value =>
      ∀ e, value = some e → e.isList = false :=
    yields_optional (isList_expression n)
  refine consumes_bind ((consumes_initializer n).and_yields hPlain) fun value vs hValue =>
    consumes_pure ?_
  subst hName
  have hParts := (((Spells.word "VAR").seq (.identifier name)).seq hType).seq hValue.1
  rw [Global.spellBody, keyword_of_plain hValue.2]
  simpa using Spells.ref .mutable hParts

theorem consumes_immutableGlobal (n : Nat) :
    Consumes (immutableGlobal n) fun us global =>
      Spells (.ref .immutable) (.fixed "VAL" :: us) global.spellBody := by
  refine consumes_bind consumes_identifier fun name _ hName => ?_
  refine consumes_bind consumes_typeName fun typeName us hType => ?_
  refine consumes_bind (consumes_expect (by decide)) fun _ _ hEquals => ?_
  refine consumes_bind ((consumes_expression n).and_yields (isList_expression n))
    fun value vs hValue => consumes_pure ?_
  subst hName hEquals
  have hParts :=
    ((((Spells.word "VAL").seq (.identifier name)).seq hType).seq (.word "=")).seq hValue.1
  rw [Global.spellBody, keyword_of_plain (by simpa using hValue.2)]
  simpa [spellInitializer] using Spells.ref .immutable hParts

theorem consumes_global (n : Nat) :
    Consumes (Grammar.global n) fun us global => Spells (.ref .global) us global.spell := by
  have hBody : Consumes (globalBody n) fun us global =>
      Spells (.ref .list ||| .ref .mutable ||| .ref .immutable) us global.spellBody := by
    refine consumes_eat_else (by decide)
      ((consumes_listGlobal n).imp fun us global h => h.left.left) ?_
    refine consumes_eat_else (by decide)
      ((consumes_mutableGlobal n).imp fun us global h => h.right.left) ?_
    refine consumes_bind (consumes_expect (by decide)) fun _ _ hWord => ?_
    subst hWord
    exact (consumes_immutableGlobal n).imp fun us global h => h.right
  refine consumes_bind hBody fun global us hGlobal => ?_
  refine consumes_bind (consumes_expect (by decide)) fun _ _ hEnd => consumes_pure ?_
  subst hEnd
  exact .ref .global (hGlobal.seq (.word ";"))

theorem consumes_parameter :
    Consumes Grammar.parameter fun us parameter =>
      Spells (.ref .parameter) us (spellParameter parameter) := by
  refine consumes_bind consumes_identifier fun name _ hName => ?_
  refine consumes_bind (consumes_expect (by decide)) fun _ _ hColon => ?_
  refine consumes_bind consumes_identifier fun typeName _ hType => consumes_pure ?_
  subst hName hColon hType
  exact .ref .parameter (((Spells.identifier name).seq (.word ":")).seq (.identifier typeName))

theorem consumes_parameters (n : Nat) :
    Consumes (parameters n) fun us parameters =>
      Spells (.closed (.ref .parameter)) us (spellParameters parameters ++ [.fixed ")"]) := by
  refine consumes_eat_else (by decide) (consumes_pure (Spells.none.seq (Spells.word ")"))) ?_
  refine consumes_bind (consumes_commaSeparated consumes_parameter n) fun parameters us hItems => ?_
  refine consumes_bind (consumes_expect (by decide)) fun _ _ hClose => consumes_pure ?_
  obtain ⟨first, others, rfl, hItems⟩ := hItems
  rw [hClose, List.append_nil]
  exact hItems.some.seq (Spells.word ")")

theorem consumes_function (n : Nat) :
    Consumes (Grammar.function n) fun us function => Spells (.ref .function) us function.spell := by
  refine consumes_bind (consumes_expect (by decide)) fun _ _ hWord => ?_
  refine consumes_bind consumes_identifier fun name _ hName => ?_
  refine consumes_bind (consumes_expect (by decide)) fun _ _ hOpen => ?_
  refine consumes_bind (consumes_parameters n) fun parameters us hParameters => ?_
  refine consumes_bind consumes_typeName fun returnType vs hType => ?_
  refine consumes_bind (consumes_expect (by decide)) fun _ _ hDo => ?_
  refine consumes_bind (consumes_block n) fun body ws hBody => ?_
  refine consumes_bind (consumes_expect (by decide)) fun _ _ hEnd => consumes_pure ?_
  subst hWord hName hOpen hDo hEnd
  have hHead := (((Spells.word "FUN").seq (.identifier name)).seq (.word "(")).seq hParameters
  have hParts := (((hHead.seq hType).seq (.word "DO")).seq hBody).seq (.word "END")
  have hZip : (parameters.map (·.1)).zip (parameters.map (·.2)) = parameters :=
    (List.zip_of_prod rfl rfl).symm
  simpa [Function.spell, hZip] using Spells.ref .function hParts

/-- A program ends with the tokens. -/
theorem finish_ok {globals : List Global} {functions : List Function} {cursor rest : Cursor}
    {source : Source} (h : finish globals functions cursor = .ok (source, rest)) :
    source = ⟨globals, functions⟩ ∧ rest = cursor ∧ rest.rest = [] := by
  obtain ⟨tokens, stop⟩ := cursor
  cases tokens with
  | nil =>
    cases h
    exact ⟨rfl, rfl, rfl⟩
  | cons token others => cases h

theorem consumes_source (n : Nat) :
    Consumes (Grammar.source n) fun us source => Spells (.ref .source) us source.spell := by
  refine consumes_bind (consumes_many (fun cursor _ _ => consumes_global n cursor) n)
    fun globals us hGlobals => ?_
  refine consumes_bind (consumes_many (fun cursor _ _ => consumes_function n cursor) n)
    fun functions vs hFunctions => ?_
  intro cursor _ source rest hFinish
  obtain ⟨rfl, rfl, -⟩ := finish_ok hFinish
  refine ⟨[], rfl, ?_⟩
  have hSource := Spells.ref .source (hGlobals.seq hFunctions)
  rwa [← List.append_nil vs] at hSource

theorem rest_eq_nil_of_source {n : Nat} {cursor rest : Cursor} {source : Source}
    (h : Grammar.source n cursor = .ok (source, rest)) : rest.rest = [] := by
  obtain ⟨globals, middle, -, h⟩ := exists_of_bind_ok h
  obtain ⟨functions, last, -, h⟩ := exists_of_bind_ok h
  exact (finish_ok h).2.2

end Grammar

/-- The tokens of a text that is parsed are a spelling of the tree, but for the texts of literals and
an `ELSE` without statements, and a sentence of the grammar. -/
theorem respelled_of_parse {text : String} {tokens : List Token} {source : Source}
    (hLex : lex text = .ok tokens) (hParse : parse tokens = .ok source) :
    Respelled (tokens.map Token.lexeme) source.spell ∧ Sentence (tokens.map Token.lexeme) := by
  obtain ⟨rest, hSource⟩ := exists_of_parse hParse
  obtain ⟨consumed, hTokens, hSpells⟩ :=
    Grammar.consumes_source tokens.length (Cursor.ofTokens tokens) (formed_of_lex hLex) source rest
      hSource
  rw [Grammar.rest_eq_nil_of_source hSource, List.append_nil] at hTokens
  obtain rfl : tokens = consumed := hTokens
  exact ⟨hSpells.respelled, hSpells.derives⟩

/-- A number with leading zeros and an `ELSE` without statements. -/
def loose : String :=
  "VAR x = 007; FUN main(): Integer DO IF x < 8 DO RETURN x; ELSE END RETURN 0; END"

theorem respelled_of_parse_loose : ∃ tokens source, lex loose = .ok tokens ∧
    parse tokens = .ok source ∧ Respelled (tokens.map Token.lexeme) source.spell ∧
    Sentence (tokens.map Token.lexeme) := by
  have hTokens : (lex loose).toOption.any (fun tokens => (parse tokens).toOption.any fun _ => true) =
      true := by
    decide +kernel
  obtain ⟨tokens, hLex, hSource⟩ := exists_of_any_ok hTokens
  obtain ⟨source, hParse, -⟩ := exists_of_any_ok hSource
  exact ⟨tokens, source, hLex, hParse, respelled_of_parse hLex hParse⟩

end ProcLang
