import ProcLang.Proofs.Grammar.Productions
import ProcLang.Proofs.Grammar.Writable

/-! # Reading expressions back

An expression is read from its spelling by every level at which it can stand. A chain leans to the
left, so its left part cannot be read by itself: what is shown of it is that it can be continued by
operators of the level with their right operands.
-/

namespace ProcLang.Grammar

set_option autoImplicit false

open ProcLang.Parser

/-- The lexeme ahead is not taken for a part of an expression of the given levels. -/
structure Follows (levels : List Level) (next : Option Lexeme) : Prop where
  operator : ∀ level ∈ levels, seesOperator level next = none
  bracket : ∀ l ∈ next, l.text ≠ "(" ∧ l.text ≠ "["

section Chains

variable {levels : List Level} {level : Level} {e left right : Expr} {operator : Operator}
  {steps : List (Operator × Expr)} {next : Option Lexeme}

theorem Follows.tail (h : Follows (level :: levels) next) : Follows levels next where
  operator level hLevel := h.operator level (List.mem_cons_of_mem _ hLevel)
  bracket := h.bracket

theorem follows_symbol (h : operator.level ∉ levels) :
    Follows levels (some (.fixed operator.symbol)) where
  operator level hLevel := by
    rw [seesOperator_symbol, if_neg]
    rintro rfl
    exact h hLevel
  bracket := by
    rintro l ⟨⟩
    cases operator <;> decide

/-- Expressions of the given levels read an expression from its spelling. -/
def ReadsAt (levels : List Level) (e : Expr) : Prop :=
  ∀ next, Follows levels next → Reads (tightening levels) e.spell (.ok e) next

/-- Steps of a level are read from their spelling, however much room their operands get. -/
def ReadsSteps (level : Level) (levels : List Level) (steps : List (Operator × Expr))
    (next : Option Lexeme) : Prop :=
  ∀ room : Nat → Nat, (∀ n, n ≤ room n) →
    Reads (fun n => many (Cursor.operator? level) (step (tightening levels (room n))) n)
      (Expr.spellSteps steps) (.ok steps) next

/-- A chain of the level reads an expression and goes on with whatever steps it reads then. -/
def ContinuesAt (level : Level) (levels : List Level) (e : Expr) : Prop :=
  ∀ steps next, ReadsSteps level levels steps next →
    Follows levels ((Expr.spellSteps steps).head?.or next) →
    Reads (tightening (level :: levels)) (e.spell ++ Expr.spellSteps steps)
      (.ok (steps.foldl (fun left (operator, right) => .binary operator left right none) e)) next

theorem ContinuesAt.readsAt (h : ContinuesAt level levels e) : ReadsAt (level :: levels) e := by
  intro next hNext
  have hSteps : ReadsSteps level levels [] next := fun room _ =>
    reads_many_nil (fun n => step (tightening levels (room n))) (sees_operator level)
      (hNext.operator level List.mem_cons_self)
  have hRead := h [] next hSteps hNext.tail
  simpa [Expr.spellSteps] using hRead

theorem ReadsAt.continuesAt (h : ReadsAt levels e) (hSome : e.spell ≠ []) :
    ContinuesAt level levels e := by
  intro steps next hSteps hNext
  exact Reads.bind_succ (h _ hNext) hSome (hSteps (· + 1) Nat.le_succ).bind_pure

theorem reads_step (h : Reads (tightening levels) right.spell (.ok right) next) :
    Reads (fun n => step (tightening levels n) operator)
      (.fixed operator.symbol :: right.spell) (.ok (operator, right)) next :=
  Reads.bind_succ (reads_skip (.fixed operator.symbol)) (by simp) h.shift.bind_pure

theorem readsSteps_cons (hStep : Reads (tightening levels) right.spell (.ok right)
      ((Expr.spellSteps steps).head?.or next))
    (hSteps : ReadsSteps operator.level levels steps next) :
    ReadsSteps operator.level levels ((operator, right) :: steps) next := by
  intro room hRoom
  have hFound := seesOperator_symbol operator.level operator
  rw [if_pos rfl] at hFound
  exact reads_many_cons (fun n => step (tightening levels (room n)))
    (sees_operator operator.level) rfl hFound ((reads_step hStep).relax hRoom)
    (hSteps (fun n => room (n + 1)) fun n => (Nat.le_succ n).trans (hRoom (n + 1)))

/-- The operator and the right operand become the first of the steps behind the left operand. -/
theorem continuesAt_binary (hLevel : operator.level ∉ levels)
    (hLeft : ContinuesAt operator.level levels left) (hRight : ReadsAt levels right) :
    ContinuesAt operator.level levels (.binary operator left right none) := by
  intro steps next hSteps hNext
  have hAll := readsSteps_cons (hRight _ hNext) hSteps
  have hRead := hLeft ((operator, right) :: steps) next hAll (follows_symbol hLevel)
  simpa [Expr.spellSteps, Expr.spell] using hRead

end Chains

/-- An expression is read by all levels at which it can stand, and chains can go on behind it. -/
structure Readable (e : Expr) : Prop where
  reads : ∀ levels, levels <:+ Level.all → e.fits levels = true → ReadsAt levels e
  continues : ∀ levels level, level :: levels <:+ Level.all → e.fits (level :: levels) = true →
    ContinuesAt level levels e

theorem tighter_eq {level : Level} {levels : List Level} (h : level :: levels <:+ Level.all) :
    level.tighter = levels := by
  simp only [Level.all, List.suffix_cons_iff, List.suffix_nil, List.cons.injEq, reduceCtorEq,
    or_false] at h
  rcases h with ⟨rfl, rfl⟩ | ⟨rfl, rfl⟩ | ⟨rfl, rfl⟩ | ⟨rfl, rfl⟩ <;> rfl

theorem not_mem_tighter (level : Level) : level ∉ level.tighter := by
  cases level <;> decide

theorem suffix_tighter (level : Level) : level :: level.tighter <:+ Level.all := by
  cases level <;> decide

theorem mem_all (level : Level) : level ∈ Level.all := by
  cases level <;> decide

section Composition

variable {e left right inner : Expr} {operator : Operator} {next : Option Lexeme}

theorem readable_of_operand (hSome : e.spell ≠ []) (h : ReadsAt [] e) : Readable e := by
  have hReads : ∀ levels, ReadsAt levels e := by
    intro levels
    induction levels with
    | nil => exact h
    | cons level levels ih => exact (ih.continuesAt hSome).readsAt
  exact ⟨fun levels _ _ => hReads levels, fun levels _ _ _ => (hReads levels).continuesAt hSome⟩

theorem readable_binary (hLeft : Readable left) (hRight : Readable right)
    (hLeftFits : left.fits (operator.level :: operator.level.tighter) = true)
    (hRightFits : right.fits operator.level.tighter = true) :
    Readable (.binary operator left right none) := by
  have hSome : (Expr.binary operator left right none).spell ≠ [] := by simp [Expr.spell]
  have hSuffix := suffix_tighter operator.level
  have hOwn := continuesAt_binary (not_mem_tighter operator.level)
    (hLeft.continues _ _ hSuffix hLeftFits)
    (hRight.reads _ ((List.suffix_cons _ _).trans hSuffix) hRightFits)
  -- At looser levels the whole is one operand, at its own it is a chain.
  have hContinues : ∀ levels level, level :: levels <:+ Level.all → operator.level ∈ level :: levels →
      (operator.level ∈ levels → ReadsAt levels (.binary operator left right none)) →
      ContinuesAt level levels (.binary operator left right none) := by
    intro levels level hLevels hMember hLooser
    rcases List.mem_cons.mp hMember with hLevel | hLevel
    · subst hLevel
      rwa [← tighter_eq hLevels]
    · exact (hLooser hLevel).continuesAt hSome
  have hReads : ∀ levels, levels <:+ Level.all → operator.level ∈ levels →
      ReadsAt levels (.binary operator left right none) := by
    intro levels
    induction levels with
    | nil => simp
    | cons level levels ih =>
      intro hLevels hMember
      exact (hContinues levels level hLevels hMember
        (ih ((List.suffix_cons _ _).trans hLevels))).readsAt
  constructor
  · intro levels hLevels hFits
    exact hReads levels hLevels (of_decide_eq_true hFits)
  · intro levels level hLevels hFits
    exact hContinues levels level hLevels (of_decide_eq_true hFits)
      (hReads levels ((List.suffix_cons _ _).trans hLevels))

theorem fits_all (e : Expr) : e.fits Level.all = true := by
  cases e with
  | binary operator left right ty => exact decide_eq_true (mem_all operator.level)
  | literal | group | access | element | call | list => rfl

theorem Readable.reads_expression (h : Readable e) (hNext : Follows Level.all next) :
    Reads expression e.spell (.ok e) next :=
  reads_expression_of_tightening (h.reads Level.all (List.suffix_refl _) (fits_all e) next hNext)

end Composition

section Operands

variable {e inner index : Expr} {name : String} {next : Option Lexeme}

theorem follows_fixed : ∀ text ∈ [")", "]", ",", ";", "=", ":", "DO", "CASE", "DEFAULT"],
    Follows Level.all (some (.fixed text)) := by
  intro text hText
  constructor
  · intro level _
    simp only [List.mem_cons, List.not_mem_nil, or_false] at hText
    rcases hText with rfl | rfl | rfl | rfl | rfl | rfl | rfl | rfl | rfl <;>
      cases level <;> decide
  · rintro l ⟨⟩
    simp only [List.mem_cons, List.not_mem_nil, or_false] at hText
    rcases hText with rfl | rfl | rfl | rfl | rfl | rfl | rfl | rfl | rfl <;> decide

theorem reads_literal_of_kind {value : Literal} (h : value.isWritable = true)
    (hKind : value.spell.kind ≠ .identifier) :
    Reads operand [value.spell] (.ok (.literal value none)) next := by
  have hWord : value.spell.text ∉ literalWords := by
    intro hWord
    have hFixed : ∀ text ∈ literalWords, Lexeme.isFixed text = true := by decide
    exact Literal.text_ne_of_isFixed h hKind (hFixed _ hWord) rfl
  have hOperator : value.spell.kind ≠ .operator := by
    intro hOperator
    have hText := Literal.ofText_spell h hKind
    rw [hOperator] at hText
    cases hText
  exact reads_operand_literal hWord ⟨hKind, hOperator⟩ (Literal.ofText_spell h hKind)

theorem reads_literal {value : Literal} (h : value.isWritable = true) :
    Reads operand [value.spell] (.ok (.literal value none)) next := by
  cases value with
  | nil =>
    refine reads_operand (l := .fixed "NIL") rfl ?_
    exact (reads_skip (.fixed "NIL")).bind_pure
  | boolean b =>
    cases b with
    | true =>
      refine reads_operand (l := .fixed "TRUE") rfl ?_
      exact (reads_skip (.fixed "TRUE")).bind_pure
    | false =>
      refine reads_operand (l := .fixed "FALSE") rfl ?_
      exact (reads_skip (.fixed "FALSE")).bind_pure
  | integer | decimal | character | string => exact reads_literal_of_kind h (by simp [Literal.spell])

theorem reads_group (h : Readable inner) :
    Reads operand (.fixed "(" :: (inner.spell ++ [.fixed ")"])) (.ok (.group inner none)) next := by
  refine reads_operand_group rfl (by decide) ?_
  exact Reads.bind (h.reads_expression (follows_fixed ")" (by decide))) (reads_expect rfl).bind_pure

theorem reads_name (hName : isName name = true) {u : List Lexeme} {outcome : Except ParseFault Expr}
    (h : Reads (fun n => nameRest name (expression n) n) u outcome next) :
    Reads operand (.name name :: u) outcome next := by
  have hOther : ∀ text ∈ "(" :: literalWords, isName text = false := by decide
  have hWord : name ∉ literalWords := fun hWord =>
    ne_of_isName hName (hOther name (List.mem_cons_of_mem _ hWord)) rfl
  exact reads_operand_name (l := .name name) hWord
    (ne_of_isName hName (hOther "(" List.mem_cons_self)) rfl h

theorem reads_access (hName : isName name = true) (hNext : Follows [] next) :
    Reads operand [.name name] (.ok (.access name none none)) next := by
  refine reads_name hName ?_
  refine Reads.eat_else (fun l hl => (hNext.bracket l hl).1) ?_
  exact Reads.eat_else (fun l hl => (hNext.bracket l hl).2) (reads_pure _)

theorem reads_element (hName : isName name = true) (hIndex : Readable index) :
    Reads operand (.name name :: .fixed "[" :: (index.spell ++ [.fixed "]"]))
      (.ok (.element name index none none)) next := by
  refine reads_name hName ?_
  refine Reads.eat_else (by simp [Lexeme.fixed]) ?_
  refine Reads.eat_then rfl ?_
  exact Reads.bind (hIndex.reads_expression (follows_fixed "]" (by decide))).shift
    (reads_expect rfl).bind_pure

/-- Expressions with commas between them, before a closing lexeme. -/
theorem reads_items {e : Expr} {es : List Expr} (hItems : ∀ item ∈ e :: es, Readable item)
    (hNext : Follows Level.all next) (hComma : ∀ l ∈ next, l.text ≠ ",") :
    Reads (fun n => commaSeparated (expression n) n) (Expr.spellItems (e :: es)) (.ok (e :: es))
      next := by
  rw [Expr.spellItems, Expr.spellOthers_eq]
  exact reads_commaSeparated _ rfl (follows_fixed "," (by decide))
    (fun item hItem next hNext => (hItems item hItem).reads_expression hNext) hNext hComma

theorem reads_call {arguments : List Expr} (hName : isName name = true)
    (hArguments : ∀ argument ∈ arguments, argument.isWritable = true ∧ Readable argument) :
    Reads operand (.name name :: .fixed "(" :: (Expr.spellItems arguments ++ [.fixed ")"]))
      (.ok (.call name arguments none none)) next := by
  refine reads_name hName ?_
  refine Reads.eat_then rfl ?_
  refine Reads.bind_pure ?_
  cases arguments with
  | nil => exact Reads.eat_then rfl (reads_pure [])
  | cons e es =>
    obtain ⟨l, hHead, hStrange⟩ := Expr.exists_head (hArguments e List.mem_cons_self).1
    have hItems := reads_items (fun item hItem => (hArguments item hItem).2)
      (follows_fixed ")" (by decide)) (by simp [Lexeme.fixed])
    refine Reads.eat_else ?_ (Reads.bind hItems.shift (reads_expect rfl).bind_pure)
    rintro first hFirst
    obtain rfl : l = first := by simpa [Expr.spellItems, List.head?_append, hHead] using hFirst
    exact fun hText => hStrange (hText ▸ by decide)

end Operands

mutual

/-- Writable expressions are read back from their spelling. -/
theorem readable {e : Expr} (h : e.isWritable = true) : Readable e := by
  cases e with
  | binary operator left right ty =>
    obtain ⟨⟨hLeft, hLeftFits⟩, ⟨hRight, hRightFits⟩, rfl⟩ := Expr.isWritable_binary h
    exact readable_binary (readable hLeft) (readable hRight) hLeftFits hRightFits
  | literal value ty =>
    simp only [Expr.isWritable, Expr.every, Expr.isWritableNode, Bool.and_eq_true,
      Option.isNone_iff_eq_none] at h
    obtain ⟨hValue, rfl⟩ := h
    exact readable_of_operand (by simp [Expr.spell]) fun next _ => reads_literal hValue
  | group inner ty =>
    simp only [Expr.isWritable, Expr.every, Expr.isWritableNode, Bool.and_eq_true,
      Option.isNone_iff_eq_none] at h
    obtain ⟨rfl, hInner⟩ := h
    exact readable_of_operand (by simp [Expr.spell]) fun next _ => reads_group (readable hInner)
  | access name symbol ty =>
    simp only [Expr.isWritable, Expr.every, Expr.isWritableNode, Bool.and_eq_true,
      Option.isNone_iff_eq_none] at h
    obtain ⟨⟨hName, rfl⟩, rfl⟩ := h
    exact readable_of_operand (by simp [Expr.spell]) fun next => reads_access hName
  | element name index symbol ty =>
    simp only [Expr.isWritable, Expr.every, Expr.isWritableNode, Bool.and_eq_true,
      Option.isNone_iff_eq_none] at h
    obtain ⟨⟨⟨hName, rfl⟩, rfl⟩, hIndex⟩ := h
    exact readable_of_operand (by simp [Expr.spell]) fun next _ =>
      reads_element hName (readable hIndex)
  | call name arguments signature ty =>
    simp only [Expr.isWritable, Expr.every, Expr.isWritableNode, Bool.and_eq_true,
      Option.isNone_iff_eq_none] at h
    obtain ⟨⟨⟨hName, rfl⟩, rfl⟩, hArguments⟩ := h
    exact readable_of_operand (by simp [Expr.spell]) fun next _ =>
      reads_call hName (readable_items hArguments)
  | list items ty => simp [Expr.isWritable, Expr.every, Expr.isWritableNode] at h

theorem readable_items {es : List Expr} (h : Expr.everyItem Expr.isWritableNode es = true) :
    ∀ e ∈ es, e.isWritable = true ∧ Readable e := by
  cases es with
  | nil => simp
  | cons e es =>
    obtain ⟨hFirst, hOthers⟩ := Bool.and_eq_true_iff.mp h
    exact List.forall_mem_cons.mpr ⟨⟨hFirst, readable hFirst⟩, readable_items hOthers⟩

end

end ProcLang.Grammar
