import ProcLang.Proofs.Grammar.Writable
import ProcLang.Proofs.Grammar.Yields

/-! # The shape of parsed trees

Trees that were read from tokens have less variety than trees in general. Their slots are empty,
operators lean to the left as their levels say, lists only stand behind `LIST`, every parameter has
a type, and each `SWITCH` ends in its only default case.
-/

namespace ProcLang

set_option autoImplicit false

namespace Expr

/-- What a parsed expression has at its root: empty slots, and operands that bind tighter than the
operator, or on the left as tight. It is no list. -/
def isShapedNode : Expr → Bool
  | literal _ ty | group _ ty => ty.isNone
  | binary operator left right ty =>
    left.fits (operator.level :: operator.level.tighter) && right.fits operator.level.tighter &&
      ty.isNone
  | access _ symbol ty | element _ _ symbol ty => symbol.isNone && ty.isNone
  | call _ _ signature ty => signature.isNone && ty.isNone
  | list _ _ => false

def isShaped (e : Expr) : Bool :=
  e.every isShapedNode

end Expr

namespace Stmt

/-- What a parsed statement has besides its blocks. -/
def isShapedNode (s : Stmt) : Bool :=
  s.expressions.all Expr.isShaped &&
    match s with
    | declaration _ _ _ symbol => symbol.isNone
    | switch _ cases => cases.countP Case.isDefault = 1 && cases.getLast?.any Case.isDefault
    | _ => true

def isShaped (s : Stmt) : Bool :=
  s.every isShapedNode

/-- Whether the initial value of a declaration is anything but a list. -/
def isPlain : Stmt → Bool
  | declaration _ _ (some value) _ => !value.isList
  | _ => true

theorem isPlain_erase (s : Stmt) : s.erase.isPlain = s.isPlain := by
  cases s with
  | declaration name typeName value symbol =>
    cases value with
    | none => rfl
    | some value => exact congrArg (!·) value.isList_erase
  | expression | assignment | conditional | switch | loop | returns => rfl

end Stmt

namespace Global

/-- Lists are the values of mutable globals with a type only, and immutable globals have a value. -/
def hasShapedValue (global : Global) : Bool :=
  match global.value with
  | some (.list items ty) =>
    global.isMutable && global.typeName.isSome && !items.isEmpty && items.all Expr.isShaped &&
      ty.isNone
  | some value => value.isShaped
  | none => global.isMutable

def isShaped (global : Global) : Bool :=
  global.hasShapedValue && global.symbol.isNone

end Global

def Function.isShaped (function : Function) : Bool :=
  function.parameterTypes.length = function.parameters.length &&
    Stmt.everyIn Stmt.isShapedNode function.body && function.signature.isNone

def Source.isShaped (source : Source) : Bool :=
  source.globals.all Global.isShaped && source.functions.all Function.isShaped

/-- What holds of every parsed function. -/
structure Function.Parsed (function : Function) : Prop where
  parameterTypes : function.parameterTypes.length = function.parameters.length
  isPlain : Stmt.everyIn Stmt.isPlain function.body = true

namespace Expr

theorem isList_of_isShaped {e : Expr} (h : e.isShaped = true) : e.isList = false := by
  cases e with
  | list items ty => cases h
  | literal | group | binary | access | element | call => rfl

/-- A shaped expression that can be an operand among expressions of the given levels. -/
structure ShapedAt (levels : List Level) (e : Expr) : Prop where
  isShaped : e.isShaped = true
  fits : e.fits levels = true

theorem fits_cons {levels : List Level} {e : Expr} (level : Level) (h : e.fits levels = true) :
    e.fits (level :: levels) = true := by
  cases e with
  | binary operator left right ty =>
    exact decide_eq_true (List.mem_cons_of_mem level (of_decide_eq_true h))
  | literal | group | access | element | call | list => rfl

theorem ShapedAt.binary {operator : Operator} {left right : Expr}
    (hLeft : left.ShapedAt (operator.level :: operator.level.tighter))
    (hRight : right.ShapedAt operator.level.tighter) :
    (Expr.binary operator left right none).ShapedAt (operator.level :: operator.level.tighter) where
  isShaped := by
    simp only [Expr.isShaped, every, isShapedNode, hLeft.fits, hRight.fits, Option.isNone_none,
      Bool.true_and, Bool.and_eq_true]
    exact ⟨hLeft.isShaped, hRight.isShaped⟩
  fits := decide_eq_true List.mem_cons_self

/-- The induction is on the steps; the expression in front of them can be a chain itself. -/
theorem ShapedAt.foldl {level : Level} {first : Expr} {others : List (Operator × Expr)}
    (hFirst : first.ShapedAt (level :: level.tighter))
    (hOthers : ∀ other ∈ others, other.1.level = level ∧ other.2.ShapedAt level.tighter) :
    (others.foldl (fun left (operator, right) => Expr.binary operator left right none)
      first).ShapedAt (level :: level.tighter) := by
  induction others generalizing first with
  | nil => exact hFirst
  | cons other others ih =>
    obtain ⟨operator, right⟩ := other
    obtain ⟨⟨hLevel, hRight⟩, hOthers⟩ := List.forall_mem_cons.mp hOthers
    subst hLevel
    exact ih (hFirst.binary hRight) hOthers

end Expr

namespace Stmt

mutual

theorem every_imp {p q : Stmt → Bool} (hImp : ∀ s, p s = true → q s = true) {s : Stmt}
    (h : s.every p = true) : s.every q = true := by
  cases s with
  | expression | declaration | assignment | returns => exact hImp _ h
  | conditional condition consequent alternative =>
    simp only [every, Bool.and_eq_true] at h ⊢
    exact ⟨⟨hImp _ h.1.1, everyIn_imp hImp h.1.2⟩, everyIn_imp hImp h.2⟩
  | switch subject cases =>
    simp only [every, Bool.and_eq_true] at h ⊢
    exact ⟨hImp _ h.1, everyInCases_imp hImp h.2⟩
  | loop condition body =>
    simp only [every, Bool.and_eq_true] at h ⊢
    exact ⟨hImp _ h.1, everyIn_imp hImp h.2⟩

theorem everyIn_imp {p q : Stmt → Bool} (hImp : ∀ s, p s = true → q s = true)
    {statements : List Stmt} (h : everyIn p statements = true) : everyIn q statements = true := by
  cases statements with
  | nil => rfl
  | cons statement rest =>
    simp only [everyIn, Bool.and_eq_true] at h ⊢
    exact ⟨every_imp hImp h.1, everyIn_imp hImp h.2⟩

theorem everyInCases_imp {p q : Stmt → Bool} (hImp : ∀ s, p s = true → q s = true)
    {cases : List Case} (h : everyInCases p cases = true) : everyInCases q cases = true := by
  cases cases with
  | nil => rfl
  | cons case rest =>
    obtain ⟨value, body⟩ := case
    simp only [everyInCases, Bool.and_eq_true] at h ⊢
    exact ⟨everyIn_imp hImp h.1, everyInCases_imp hImp h.2⟩

end

theorem isPlain_of_isShapedNode (s : Stmt) (h : s.isShapedNode = true) : s.isPlain = true := by
  cases s with
  | declaration name typeName value symbol =>
    cases value with
    | none => rfl
    | some value =>
      simp only [isShapedNode, expressions, Option.toList_some, List.all_cons,
        Bool.and_eq_true] at h
      simp [isPlain, Expr.isList_of_isShaped h.1.1]
  | expression | assignment | conditional | switch | loop | returns => rfl

/-- Cases with a value, and behind them one without. -/
theorem countP_isDefault_append {cases : List Case} (h : ∀ case ∈ cases, case.isDefault = false)
    (body : List Stmt) : (cases ++ [Case.mk none body]).countP Case.isDefault = 1 := by
  have hZero : cases.countP Case.isDefault = 0 :=
    List.countP_eq_zero.mpr fun case hCase => by simp [h case hCase]
  rw [List.countP_append, hZero]
  rfl

end Stmt

theorem Function.isShaped_parsed {function : Function} (h : function.isShaped = true) :
    function.Parsed := by
  simp only [Function.isShaped, Bool.and_eq_true, decide_eq_true_eq] at h
  exact ⟨h.1.1, Stmt.everyIn_imp Stmt.isPlain_of_isShapedNode h.1.2⟩

namespace Grammar

open ProcLang.Parser

theorem level_of_operator? {level : Level} {cursor : Cursor} {operator : Operator}
    (h : cursor.operator? level = some operator) : operator.level = level := by
  unfold Cursor.operator? at h
  split at h
  · exact of_decide_eq_true (Option.filter_eq_some_iff.mp h).2
  · cases h

theorem shapedAt_chain {level : Level} {operand : Parser Expr} (n : Nat)
    (h : operand.Yields (Expr.ShapedAt level.tighter)) :
    (chain level operand n).Yields (Expr.ShapedAt (level :: level.tighter)) := by
  refine yields_bind h fun first hFirst => ?_
  have hItem : ∀ cursor operator, Cursor.operator? level cursor = some operator →
      Yields (do skip; let right ← operand; return (operator, right)) fun other =>
        other.1.level = level ∧ other.2.ShapedAt level.tighter := by
    intro cursor operator hFound
    refine yields_then fun _ => ?_
    refine yields_bind h fun right hRight => yields_pure ?_
    exact ⟨level_of_operator? hFound, hRight⟩
  refine yields_bind (yields_many_of_found hItem n) fun others hOthers => yields_pure ?_
  exact Expr.ShapedAt.foldl ⟨hFirst.isShaped, Expr.fits_cons level hFirst.fits⟩ hOthers

section Operands

variable {expression : Parser Expr}

/-- Operands are no chains, so they stand among expressions of any levels. -/
theorem shapedAt_literal (kind : TokenKind) (text : String) :
    (literal kind text).Yields (Expr.ShapedAt []) := by
  unfold literal
  split
  · exact yields_fail _
  · exact yields_then fun _ => yields_pure ⟨rfl, rfl⟩

theorem shapedAt_groupRest (h : expression.Yields fun e => e.isShaped = true) :
    (groupRest expression).Yields (Expr.ShapedAt []) := by
  refine yields_bind h fun inner hInner => ?_
  exact yields_then fun _ => yields_pure ⟨hInner, rfl⟩

theorem isShaped_arguments (h : expression.Yields fun e => e.isShaped = true) (n : Nat) :
    (arguments expression n).Yields fun es => ∀ e ∈ es, e.isShaped = true := by
  refine yields_then fun isEmpty => ?_
  split
  · exact yields_pure fun _ hItem => nomatch hItem
  · refine yields_bind (yields_commaSeparated h n) fun items hItems => ?_
    exact yields_then fun _ => yields_pure hItems.2

theorem shapedAt_nameRest (name : String) (h : expression.Yields fun e => e.isShaped = true)
    (n : Nat) : (nameRest name expression n).Yields (Expr.ShapedAt []) := by
  refine yields_then fun isCall => ?_
  split
  · refine yields_bind (isShaped_arguments h n) fun items hItems => yields_pure ⟨?_, rfl⟩
    exact (Expr.everyItem_iff items).mpr hItems
  · refine yields_then fun isElement => ?_
    split
    · refine yields_bind h fun index hIndex => ?_
      exact yields_then fun _ => yields_pure ⟨hIndex, rfl⟩
    · exact yields_pure ⟨rfl, rfl⟩

theorem shapedAt_primary (h : expression.Yields fun e => e.isShaped = true) (n : Nat) :
    (primary expression n).Yields (Expr.ShapedAt []) := by
  refine yields_then fun cursor => ?_
  split
  · exact yields_fail _
  · rename_i token _
    split
    · exact yields_then fun _ => yields_pure ⟨rfl, rfl⟩
    split
    · exact yields_then fun _ => yields_pure ⟨rfl, rfl⟩
    split
    · exact yields_then fun _ => yields_pure ⟨rfl, rfl⟩
    split
    · exact shapedAt_literal token.kind token.literal
    · exact shapedAt_literal token.kind token.literal
    · exact shapedAt_literal token.kind token.literal
    · exact shapedAt_literal token.kind token.literal
    · split
      · exact yields_then fun _ => shapedAt_groupRest h
      split
      · exact yields_then fun _ => shapedAt_nameRest token.literal h n
      · exact yields_fail _

end Operands

theorem isShaped_expression (n : Nat) : (expression n).Yields fun e => e.isShaped = true := by
  induction n with
  | zero => exact yields_fail _
  | succ n ih =>
    exact Yields.imp (shapedAt_chain n (shapedAt_chain n (shapedAt_chain n (shapedAt_chain n
      (shapedAt_primary ih n))))) fun e h => h.isShaped

theorem isList_expression (n : Nat) : (expression n).Yields fun e => e.isList = false :=
  Yields.imp (isShaped_expression n) fun _ => Expr.isList_of_isShaped

section Statements

variable {block : Parser (List Stmt)}

theorem isShaped_value (n : Nat) :
    (optional "=" (expression n)).Yields fun value? => value?.all Expr.isShaped = true := by
  refine Yields.imp (yields_optional (isShaped_expression n)) fun value? hValue => ?_
  cases value? with
  | none => rfl
  | some value => exact hValue value rfl

theorem isShaped_declaration (n : Nat) : (declaration n).Yields fun s => s.isShaped = true := by
  refine yields_then fun name => ?_
  refine yields_then fun typeName => ?_
  refine yields_bind (isShaped_value n) fun value? hValue => ?_
  refine yields_then fun _ => yields_pure ?_
  cases value? with
  | none => rfl
  | some value => simpa [Stmt.isShaped, Stmt.every, Stmt.isShapedNode, Stmt.expressions] using hValue

theorem isShaped_valuedCase
    (hBlock : block.Yields fun ss => Stmt.everyIn Stmt.isShapedNode ss = true) (n : Nat) :
    (valuedCase block n).Yields fun case => case.isDefault = false ∧
      case.value.all Expr.isShaped = true ∧ Stmt.everyIn Stmt.isShapedNode case.body = true := by
  refine yields_bind (isShaped_expression n) fun value hValue => ?_
  refine yields_then fun _ => ?_
  exact yields_bind hBlock fun body hBody => yields_pure ⟨rfl, hValue, hBody⟩

theorem isShaped_switch
    (hBlock : block.Yields fun ss => Stmt.everyIn Stmt.isShapedNode ss = true) (n : Nat) :
    (switch block n).Yields fun s => s.isShaped = true := by
  refine yields_bind (isShaped_expression n) fun subject hSubject => ?_
  refine yields_bind (yields_manyAt (isShaped_valuedCase hBlock n) n) fun cases hCases => ?_
  refine yields_then fun _ => ?_
  refine yields_bind hBlock fun body hBody => ?_
  refine yields_then fun _ => yields_pure ?_
  have hCount := Stmt.countP_isDefault_append (fun case hCase => (hCases case hCase).1) body
  have hValues : ∀ value ∈ cases.filterMap Case.value, value.isShaped = true := by
    intro value hMem
    obtain ⟨case, hCase, hValue⟩ := List.mem_filterMap.mp hMem
    have hShaped := (hCases case hCase).2.1
    rwa [hValue] at hShaped
  have hBodies : Stmt.everyInCases Stmt.isShapedNode (cases ++ [⟨none, body⟩]) = true := by
    refine (Stmt.everyInCases_iff _).mpr fun case hCase => ?_
    rcases List.mem_append.mp hCase with hValued | hDefault
    · exact (hCases case hValued).2.2
    · rw [List.mem_singleton.mp hDefault]
      exact hBody
  rw [Stmt.isShaped, Stmt.every, hBodies, Stmt.isShapedNode, hCount, List.getLast?_concat,
    Stmt.expressions, List.filterMap_append, List.all_cons, hSubject, List.all_append,
    List.all_eq_true.mpr hValues]
  rfl

theorem isShaped_conditional
    (hBlock : block.Yields fun ss => Stmt.everyIn Stmt.isShapedNode ss = true) (n : Nat) :
    (conditional block n).Yields fun s => s.isShaped = true := by
  refine yields_bind (isShaped_expression n) fun condition hCondition => ?_
  refine yields_then fun _ => ?_
  refine yields_bind hBlock fun consequent hConsequent => ?_
  refine yields_bind (yields_optional hBlock) fun alternative? hAlternative => ?_
  refine yields_then fun _ => yields_pure ?_
  have hElse : Stmt.everyIn Stmt.isShapedNode (alternative?.getD []) = true := by
    cases alternative? with
    | none => rfl
    | some alternative => exact hAlternative alternative rfl
  simp [Stmt.isShaped, Stmt.every, Stmt.isShapedNode, Stmt.expressions, hCondition, hConsequent,
    hElse]

theorem isShaped_loop
    (hBlock : block.Yields fun ss => Stmt.everyIn Stmt.isShapedNode ss = true) (n : Nat) :
    (loop block n).Yields fun s => s.isShaped = true := by
  refine yields_bind (isShaped_expression n) fun condition hCondition => ?_
  refine yields_then fun _ => ?_
  refine yields_bind hBlock fun body hBody => ?_
  refine yields_then fun _ => yields_pure ?_
  simp [Stmt.isShaped, Stmt.every, Stmt.isShapedNode, Stmt.expressions, hCondition, hBody]

theorem isShaped_returns (n : Nat) : (returns n).Yields fun s => s.isShaped = true := by
  refine yields_bind (isShaped_expression n) fun value hValue => ?_
  refine yields_then fun _ => yields_pure ?_
  simp [Stmt.isShaped, Stmt.every, Stmt.isShapedNode, Stmt.expressions, hValue]

theorem isShaped_simple (n : Nat) : (simple n).Yields fun s => s.isShaped = true := by
  refine yields_bind (isShaped_expression n) fun first hFirst => ?_
  refine yields_bind (isShaped_value n) fun value? hValue => ?_
  refine yields_then fun _ => ?_
  split
  · refine yields_pure ?_
    simpa [Stmt.isShaped, Stmt.every, Stmt.isShapedNode, Stmt.expressions, hFirst] using hValue
  · refine yields_pure ?_
    simp [Stmt.isShaped, Stmt.every, Stmt.isShapedNode, Stmt.expressions, hFirst]

theorem isShaped_statement
    (hBlock : block.Yields fun ss => Stmt.everyIn Stmt.isShapedNode ss = true) (n : Nat) :
    (statement block n).Yields fun s => s.isShaped = true := by
  refine yields_then fun _ => ?_
  split
  · exact isShaped_declaration n
  refine yields_then fun _ => ?_
  split
  · exact isShaped_switch hBlock n
  refine yields_then fun _ => ?_
  split
  · exact isShaped_conditional hBlock n
  refine yields_then fun _ => ?_
  split
  · exact isShaped_loop hBlock n
  refine yields_then fun _ => ?_
  split
  · exact isShaped_returns n
  · exact isShaped_simple n

theorem isShaped_block (n : Nat) :
    (Grammar.block n).Yields fun ss => Stmt.everyIn Stmt.isShapedNode ss = true := by
  induction n with
  | zero => exact yields_pure rfl
  | succ n ih =>
    refine Yields.imp (yields_many (fun _ => isShaped_statement ih (n + 1)) (n + 1)) ?_
    exact fun statements hStatements => (Stmt.everyIn_iff statements).mpr hStatements

end Statements

theorem isShaped_listGlobal (n : Nat) : (listGlobal n).Yields fun g => g.isShaped = true := by
  refine yields_then fun name => ?_
  refine yields_then fun _ => ?_
  refine yields_then fun typeName => ?_
  refine yields_then fun _ => ?_
  refine yields_then fun _ => ?_
  refine yields_bind (yields_commaSeparated (isShaped_expression n) n) fun items hItems => ?_
  refine yields_then fun _ => yields_pure ?_
  simpa [Global.isShaped, Global.hasShapedValue] using hItems

/-- The value of a mutable global can be missing. -/
theorem isShaped_mutableGlobal (n : Nat) : (mutableGlobal n).Yields fun g => g.isShaped = true := by
  refine yields_then fun name => ?_
  refine yields_then fun typeName => ?_
  refine yields_bind (isShaped_value n) fun value? hValue => yields_pure ?_
  cases value? with
  | none => rfl
  | some value =>
    cases value with
    | list => cases hValue
    | literal | group | binary | access | element | call =>
      simpa [Global.isShaped, Global.hasShapedValue] using hValue

theorem isShaped_immutableGlobal (n : Nat) :
    (immutableGlobal n).Yields fun g => g.isShaped = true := by
  refine yields_then fun name => ?_
  refine yields_then fun typeName => ?_
  refine yields_then fun _ => ?_
  refine yields_bind (isShaped_expression n) fun value hValue => yields_pure ?_
  cases value with
  | list => cases hValue
  | literal | group | binary | access | element | call =>
    simpa [Global.isShaped, Global.hasShapedValue] using hValue

theorem isShaped_global (n : Nat) : (global n).Yields fun g => g.isShaped = true := by
  have hBody : (globalBody n).Yields fun g => g.isShaped = true := by
    refine yields_then fun _ => ?_
    split
    · exact isShaped_listGlobal n
    refine yields_then fun _ => ?_
    split
    · exact isShaped_mutableGlobal n
    · exact yields_then fun _ => isShaped_immutableGlobal n
  refine yields_bind hBody fun global hGlobal => ?_
  exact yields_then fun _ => yields_pure hGlobal

theorem isShaped_function (n : Nat) : (function n).Yields fun f => f.isShaped = true := by
  refine yields_then fun _ => ?_
  refine yields_then fun name => ?_
  refine yields_then fun _ => ?_
  refine yields_then fun parameters => ?_
  refine yields_then fun returnType => ?_
  refine yields_then fun _ => ?_
  refine yields_bind (isShaped_block n) fun body hBody => ?_
  refine yields_then fun _ => yields_pure ?_
  simp [Function.isShaped, hBody]

theorem isShaped_source (n : Nat) : (source n).Yields fun s => s.isShaped = true := by
  refine yields_bind (yields_many (fun _ => isShaped_global n) n) fun globals hGlobals => ?_
  refine yields_bind (yields_many (fun _ => isShaped_function n) n) fun functions hFunctions => ?_
  refine yields_then fun cursor => ?_
  split
  · exact yields_fail _
  · refine yields_pure ?_
    rw [Source.isShaped, Bool.and_eq_true]
    exact ⟨List.all_eq_true.mpr hGlobals, List.all_eq_true.mpr hFunctions⟩

end Grammar

theorem exists_of_parse {tokens : List Token} {source : Source} (h : parse tokens = .ok source) :
    ∃ rest, Grammar.source tokens.length (Cursor.ofTokens tokens) = .ok (source, rest) := by
  unfold parse at h
  cases hSource : Grammar.source tokens.length (Cursor.ofTokens tokens) with
  | error error =>
    rw [hSource] at h
    cases h
  | ok result =>
    rw [hSource] at h
    cases h
    exact ⟨result.2, rfl⟩

theorem isShaped_of_parse {tokens : List Token} {source : Source}
    (h : parse tokens = .ok source) : source.isShaped = true := by
  obtain ⟨rest, hSource⟩ := exists_of_parse h
  exact Grammar.isShaped_source _ _ _ _ hSource

theorem parsed_of_parse {tokens : List Token} {source : Source} (h : parse tokens = .ok source) :
    ∀ function ∈ source.functions, function.Parsed := by
  have hShaped := isShaped_of_parse h
  rw [Source.isShaped, Bool.and_eq_true] at hShaped
  exact fun function hMem => Function.isShaped_parsed (List.all_eq_true.mp hShaped.2 function hMem)

end ProcLang
