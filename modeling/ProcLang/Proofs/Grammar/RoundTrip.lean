import ProcLang.Proofs.Grammar.ReadExpression

/-! # Reading programs back

Statements say where they end, whatever stands behind them; blocks end before a word that ends
blocks. From these a writable program is read back from its spelling.
-/

namespace ProcLang

set_option autoImplicit false

namespace Grammar

open ProcLang.Parser

section Parts

variable {e : Expr} {name : String} {next : Option Lexeme}

theorem spell_ne_nil (e : Expr) : e.spell ≠ [] := by
  cases e <;> simp [Expr.spell]

theorem reads_typeName {typeName : Option String} (hNext : ∀ l ∈ next, l.text ≠ ":") :
    Reads (fun _ => typeAnnotation) (spellTypeName typeName) (.ok typeName) next := by
  cases typeName with
  | none => exact reads_optional_none hNext
  | some typeName => exact reads_optional_some rfl (reads_identifier rfl)

theorem reads_initializer {value : Option Expr} (hValue : ∀ e ∈ value, Readable e)
    (hNext : Follows Level.all next) (hEquals : ∀ l ∈ next, l.text ≠ "=") :
    Reads (fun n => optional "=" (expression n)) (spellInitializer value) (.ok value) next := by
  cases value with
  | none => exact reads_optional_none hEquals
  | some value => exact reads_optional_some rfl ((hValue value rfl).reads_expression hNext)

theorem colon_ne_head_initializer (value : Option Expr) (next : Option Lexeme) :
    ∀ l ∈ (spellInitializer value ++ [Lexeme.fixed ";"]).head?.or next, l.text ≠ ":" := by
  cases value <;> simp [spellInitializer, Lexeme.fixed]

end Parts

section Statements

variable {e condition value receiver : Expr} {name : String} {body : List Stmt}
  {next : Option Lexeme}

theorem seesStatement_fixed {text : String} (h : text ∈ blockEnds) :
    seesStatement (some (.fixed text)) = none :=
  if_pos h

/-- A block is read from its spelling if a word that ends blocks comes next. -/
def ReadsBlock (body : List Stmt) : Prop :=
  ∀ next, seesStatement next = none →
    Reads block (Stmt.spellBlock body) (.ok body) next

theorem reads_declaration {typeName : Option String} {value : Option Expr}
    (hValue : ∀ e ∈ value, Readable e) :
    Reads declaration
      (.name name :: (spellTypeName typeName ++ (spellInitializer value ++ [.fixed ";"])))
      (.ok (.declaration name typeName value none)) next := by
  refine Reads.bind (u := [.name name]) (reads_identifier rfl) ?_
  refine Reads.bind (reads_typeName (colon_ne_head_initializer value _)) ?_
  refine Reads.bind (reads_initializer hValue (follows_fixed ";" (by decide)) ?_) ?_
  · simp [Lexeme.fixed]
  · exact (reads_expect rfl).bind_pure

theorem reads_returns (hValue : Readable value) :
    Reads returns (value.spell ++ [.fixed ";"]) (.ok (.returns value)) next :=
  Reads.bind (hValue.reads_expression (follows_fixed ";" (by decide))) (reads_expect rfl).bind_pure

theorem reads_simple_expression (hExpression : Readable e) :
    Reads simple (e.spell ++ [.fixed ";"]) (.ok (.expression e)) next := by
  refine Reads.bind (hExpression.reads_expression (follows_fixed ";" (by decide))) ?_
  refine Reads.bind (u := []) (reads_optional_none (by simp [Lexeme.fixed])) ?_
  exact (reads_expect rfl).bind_pure

theorem reads_simple_assignment (hReceiver : Readable receiver) (hValue : Readable value) :
    Reads simple (receiver.spell ++ .fixed "=" :: (value.spell ++ [.fixed ";"]))
      (.ok (.assignment receiver value)) next := by
  refine Reads.bind (hReceiver.reads_expression (follows_fixed "=" (by decide))) ?_
  refine Reads.bind (u := .fixed "=" :: value.spell) (reads_optional_some rfl
    (hValue.reads_expression (follows_fixed ";" (by decide)))) ?_
  exact (reads_expect rfl).bind_pure

theorem reads_loop (hCondition : Readable condition) (hBody : ReadsBlock body) :
    Reads (fun n => loop (block (n - 1)) n)
      (condition.spell ++ .fixed "DO" :: (Stmt.spellBlock body ++ [.fixed "END"]))
      (.ok (.loop condition body)) next := by
  refine Reads.bind_succ (hCondition.reads_expression (follows_fixed "DO" (by decide)))
    (spell_ne_nil condition) ?_
  refine Reads.bind (u := [.fixed "DO"]) (reads_expect rfl) ?_
  exact Reads.bind (hBody _ (seesStatement_fixed (by decide))) (reads_expect rfl).bind_pure

theorem exists_reads_alternative {alternative : List Stmt} (h : ReadsBlock alternative) :
    ∃ found : Option (List Stmt), found.getD [] = alternative ∧
      Reads (fun n => optional "ELSE" (block n)) (Stmt.spellAlternative alternative) (.ok found)
        (some (.fixed "END")) := by
  cases alternative with
  | nil => exact ⟨none, rfl, reads_optional_none (by simp [Lexeme.fixed])⟩
  | cons statement rest =>
    exact ⟨some (statement :: rest), rfl,
      reads_optional_some rfl (h _ (seesStatement_fixed (by decide)))⟩

theorem seesStatement_alternative (alternative : List Stmt) :
    seesStatement ((Stmt.spellAlternative alternative ++ [Lexeme.fixed "END"]).head?.or next) =
      none := by
  cases alternative with
  | nil => exact seesStatement_fixed (by decide)
  | cons statement rest => exact seesStatement_fixed (by decide)

theorem reads_conditional {consequent alternative : List Stmt} (hCondition : Readable condition)
    (hConsequent : ReadsBlock consequent) (hAlternative : ReadsBlock alternative) :
    Reads (fun n => conditional (block (n - 1)) n)
      (condition.spell ++ .fixed "DO" :: (Stmt.spellBlock consequent ++
        (Stmt.spellAlternative alternative ++ [.fixed "END"])))
      (.ok (.conditional condition consequent alternative)) next := by
  refine Reads.bind_succ (hCondition.reads_expression (follows_fixed "DO" (by decide)))
    (spell_ne_nil condition) ?_
  refine Reads.bind (u := [.fixed "DO"]) (reads_expect rfl) ?_
  refine Reads.bind (hConsequent _ (seesStatement_alternative alternative)) ?_
  obtain ⟨found, rfl, hFound⟩ := exists_reads_alternative hAlternative
  exact Reads.bind hFound (reads_expect rfl).bind_pure

/-- A case with a value, behind its word. -/
def spellValued : Case → List Lexeme
  | ⟨some value, body⟩ => value.spell ++ .fixed ":" :: Stmt.spellBlock body
  | ⟨none, body⟩ => Stmt.spellBlock body

theorem spellCases_of_valued {cases : List Case} (h : ∀ case ∈ cases, case.isDefault = false) :
    Stmt.spellCases cases = cases.flatMap fun case => .fixed "CASE" :: spellValued case := by
  induction cases with
  | nil => rfl
  | cons case cases ih =>
    obtain ⟨value, body⟩ := case
    have hOthers := ih fun other hOther => h other (List.mem_cons_of_mem _ hOther)
    cases value with
    | none => cases h ⟨none, body⟩ List.mem_cons_self
    | some value => simp [Stmt.spellCases, spellValued, hOthers]

theorem reads_valuedCase {case : Case} (hCase : case.isDefault = false)
    (hValue : ∀ value ∈ case.value, Readable value) (hBody : ReadsBlock case.body)
    (hNext : seesStatement next = none) :
    Reads (fun n => valuedCase (block (n - 1)) n) (spellValued case) (.ok case) next := by
  obtain ⟨value, body⟩ := case
  cases value with
  | none => cases hCase
  | some value =>
    refine Reads.bind_succ ((hValue value rfl).reads_expression (follows_fixed ":" (by decide)))
      (spell_ne_nil value) ?_
    refine Reads.bind (u := [.fixed ":"]) (reads_expect rfl) ?_
    exact (hBody next hNext).bind_pure

theorem reads_switch {subject : Expr} {valued : List Case} {default : List Stmt}
    (hSubject : Readable subject) (hValued : ∀ case ∈ valued, case.isDefault = false)
    (hValues : ∀ case ∈ valued, ∀ value ∈ case.value, Readable value)
    (hBodies : ∀ case ∈ valued, ReadsBlock case.body) (hDefault : ReadsBlock default) :
    Reads (fun n => switch (block (n - 1)) n)
      (subject.spell ++ (Stmt.spellCases (valued ++ [⟨none, default⟩]) ++ [.fixed "END"]))
      (.ok (.switch subject (valued ++ [⟨none, default⟩]))) next := by
  rw [Stmt.spellCases_append, spellCases_of_valued hValued, List.append_assoc]
  have hCases : Reads (fun n => manyAt "CASE" (valuedCase (block (n - 1)) n) n)
      (valued.flatMap fun case => .fixed "CASE" :: spellValued case) (.ok valued)
      (some (.fixed "DEFAULT")) := by
    have hCase : ∀ case ∈ valued, ∀ next, seesStatement next = none →
        Reads (fun n => valuedCase (block (n - 1)) n) (spellValued case) (.ok case) next :=
      fun case hCase _ => reads_valuedCase (hValued case hCase) (hValues case hCase)
        (hBodies case hCase)
    exact reads_manyAt _ rfl (seesStatement_fixed (by decide)) hCase (seesStatement_fixed (by decide))
      (by simp [Lexeme.fixed])
  -- The subject ends before the first case, which is the default one if there is no other.
  have hFollows : Follows Level.all
      (((valued.flatMap fun case => Lexeme.fixed "CASE" :: spellValued case) ++
        (Stmt.spellCases [⟨none, default⟩] ++ [Lexeme.fixed "END"])).head?.or next) := by
    cases valued with
    | nil => exact follows_fixed "DEFAULT" (by decide)
    | cons case valued => exact follows_fixed "CASE" (by decide)
  refine Reads.bind_succ (hSubject.reads_expression hFollows) (spell_ne_nil subject) ?_
  refine Reads.bind hCases.shift ?_
  rw [Stmt.spellCases, Stmt.spellCases, List.append_nil]
  refine Reads.bind (u := [.fixed "DEFAULT"]) (reads_expect rfl) ?_
  exact Reads.bind (hDefault _ (seesStatement_fixed (by decide))) (reads_expect rfl).bind_pure

/-- The default case is the last of the cases, and the others have values. -/
theorem exists_of_default_last {cases : List Case}
    (hValued : cases.dropLast.all (!·.isDefault) = true)
    (hDefault : cases.getLast?.any Case.isDefault = true) :
    ∃ valued default, cases = valued ++ [⟨none, default⟩] ∧
      ∀ case ∈ valued, case.isDefault = false := by
  obtain ⟨⟨value, body⟩, hLast, hNone⟩ := (Option.any_eq_true _ _).mp hDefault
  obtain rfl := Option.isNone_iff_eq_none.mp hNone
  have hSplit := List.dropLast_append_getLast? _ hLast
  refine ⟨cases.dropLast, body, hSplit.symm, fun case hCase => ?_⟩
  simpa using List.all_eq_true.mp hValued case hCase

theorem reads_switch_of_isWritable {subject : Expr} {cases : List Case}
    (hSubject : subject.isWritable = true)
    (hValues : (cases.filterMap Case.value).all Expr.isWritable = true)
    (hValued : cases.dropLast.all (!·.isDefault) = true)
    (hDefault : cases.getLast?.any Case.isDefault = true)
    (hBodies : ∀ case ∈ cases, ReadsBlock case.body) :
    Reads (fun n => switch (block (n - 1)) n)
      (subject.spell ++ (Stmt.spellCases cases ++ [.fixed "END"])) (.ok (.switch subject cases)) next := by
  obtain ⟨valued, default, rfl, hOthers⟩ := exists_of_default_last hValued hDefault
  have hReadable : ∀ case ∈ valued, ∀ value ∈ case.value, Readable value := by
    intro case hCase value hValue
    refine readable (List.all_eq_true.mp hValues value (List.mem_filterMap.mpr ⟨case, ?_, hValue⟩))
    exact List.mem_append_left _ hCase
  refine reads_switch (readable hSubject) hOthers hReadable ?_ ?_
  · exact fun case hCase => hBodies case (List.mem_append_left _ hCase)
  · exact hBodies ⟨none, default⟩ (List.mem_append_right _ (List.mem_singleton_self _))

theorem exists_head_statement {s : Stmt} (h : s.isWritable = true) :
    ∃ l, s.spell.head? = some l ∧ seesStatement (some l) = some () := by
  have hStrange : ∀ {l : Lexeme}, l.text ∉ Expr.strange → seesStatement (some l) = some () := by
    intro l hText
    have hEnds : ∀ text ∈ blockEnds, text ∈ Expr.strange := by decide
    exact if_neg fun hEnd => hText (hEnds _ hEnd)
  have hWord : ∀ {e : Expr} {others : List Lexeme}, e.isWritable = true →
      ∃ l, (e.spell ++ others).head? = some l ∧ seesStatement (some l) = some () := by
    intro e others hExpression
    obtain ⟨l, hHead, hText⟩ := Expr.exists_head hExpression
    exact ⟨l, by simp [List.head?_append, hHead], hStrange hText⟩
  cases s with
  | expression e => exact hWord h
  | assignment receiver value =>
    exact hWord (Bool.and_eq_true_iff.mp h).1
  | declaration name typeName value symbol => exact ⟨.fixed "LET", rfl, by decide⟩
  | conditional condition consequent alternative => exact ⟨.fixed "IF", rfl, by decide⟩
  | switch subject cases => exact ⟨.fixed "SWITCH", rfl, by decide⟩
  | loop condition body => exact ⟨.fixed "WHILE", rfl, by decide⟩
  | returns value => exact ⟨.fixed "RETURN", rfl, by decide⟩

section Words

variable {u : List Lexeme} {outcome : Except ParseFault Stmt}

theorem reads_statements_let (h : Reads declaration u outcome next) :
    Reads statements (.fixed "LET" :: u) outcome next :=
  Reads.eat_then rfl h.shift

theorem reads_statements_switch (h : Reads (fun n => switch (block (n - 1)) n) u outcome next) :
    Reads statements (.fixed "SWITCH" :: u) outcome next := by
  refine Reads.eat_else (by simp [Lexeme.fixed]) ?_
  exact Reads.eat_then rfl h.shift

theorem reads_statements_if (h : Reads (fun n => conditional (block (n - 1)) n) u outcome next) :
    Reads statements (.fixed "IF" :: u) outcome next := by
  refine Reads.eat_else (by simp [Lexeme.fixed]) ?_
  refine Reads.eat_else (by simp [Lexeme.fixed]) ?_
  exact Reads.eat_then rfl h.shift

theorem reads_statements_while (h : Reads (fun n => loop (block (n - 1)) n) u outcome next) :
    Reads statements (.fixed "WHILE" :: u) outcome next := by
  refine Reads.eat_else (by simp [Lexeme.fixed]) ?_
  refine Reads.eat_else (by simp [Lexeme.fixed]) ?_
  refine Reads.eat_else (by simp [Lexeme.fixed]) ?_
  exact Reads.eat_then rfl h.shift

theorem reads_statements_return (h : Reads returns u outcome next) :
    Reads statements (.fixed "RETURN" :: u) outcome next := by
  refine Reads.eat_else (by simp [Lexeme.fixed]) ?_
  refine Reads.eat_else (by simp [Lexeme.fixed]) ?_
  refine Reads.eat_else (by simp [Lexeme.fixed]) ?_
  refine Reads.eat_else (by simp [Lexeme.fixed]) ?_
  exact Reads.eat_then rfl h.shift

/-- What does not begin with the word of a statement is an expression or an assignment. -/
theorem reads_statements_simple {l : Lexeme} (hHead : u.head? = some l)
    (hText : l.text ∉ Expr.strange) (h : Reads simple u outcome next) :
    Reads statements u outcome next := by
  have hElse : ∀ text ∈ Expr.strange, ∀ first ∈ u.head?.or next, first.text ≠ text := by
    rw [hHead]
    rintro text hStrange first ⟨⟩ rfl
    exact hText hStrange
  refine Reads.eat_else (hElse "LET" (by decide)) ?_
  refine Reads.eat_else (hElse "SWITCH" (by decide)) ?_
  refine Reads.eat_else (hElse "IF" (by decide)) ?_
  refine Reads.eat_else (hElse "WHILE" (by decide)) ?_
  exact Reads.eat_else (hElse "RETURN" (by decide)) h

end Words

theorem readsBlock_of_forall {body : List Stmt}
    (h : ∀ s ∈ body, s.isWritable = true ∧ ∀ next, Reads statements s.spell (.ok s) next) :
    ReadsBlock body := by
  intro next hNext
  rw [Stmt.spellBlock_eq, funext block_eq_many]
  refine reads_many (fun n _ => statements n) sees_statement (fun _ => True) (fun _ => ()) ?_ ?_
    trivial hNext
  · intro s hs
    obtain ⟨l, hHead, hSees⟩ := exists_head_statement (h s hs).1
    exact ⟨l, hHead, hSees, trivial⟩
  · intro s hs next _
    exact (h s hs).2 next

mutual

theorem reads_statement {s : Stmt} (h : s.isWritable = true) (next : Option Lexeme) :
    Reads statements s.spell (.ok s) next := by
  cases s with
  | expression e =>
    obtain ⟨l, hHead, hText⟩ := Expr.exists_head (e := e) h
    refine reads_statements_simple (by simp [Stmt.spell, List.head?_append, hHead]) hText ?_
    exact reads_simple_expression (readable h)
  | assignment receiver value =>
    obtain ⟨hReceiver, hValue⟩ := Bool.and_eq_true_iff.mp h
    obtain ⟨l, hHead, hText⟩ := Expr.exists_head hReceiver
    refine reads_statements_simple (by simp [Stmt.spell, List.head?_append, hHead]) hText ?_
    exact reads_simple_assignment (readable hReceiver) (readable hValue)
  | declaration name typeName value symbol =>
    simp only [Stmt.isWritable, Stmt.every, Stmt.isWritableNode, Bool.and_eq_true,
      Option.isNone_iff_eq_none, Option.all_eq_true] at h
    obtain ⟨⟨-, hValue⟩, rfl⟩ := h
    exact reads_statements_let (reads_declaration fun e he => readable (hValue e he))
  | returns value => exact reads_statements_return (reads_returns (readable h))
  | loop condition body =>
    obtain ⟨hCondition, hBody⟩ := Bool.and_eq_true_iff.mp h
    have hBlock := readsBlock_of_forall (reads_block hBody)
    exact reads_statements_while (reads_loop (readable hCondition) hBlock)
  | conditional condition consequent alternative =>
    simp only [Stmt.isWritable, Stmt.every, Stmt.isWritableNode, Bool.and_eq_true] at h
    obtain ⟨⟨hCondition, hConsequent⟩, hAlternative⟩ := h
    have hThen := readsBlock_of_forall (reads_block hConsequent)
    have hElse := readsBlock_of_forall (reads_block hAlternative)
    exact reads_statements_if (reads_conditional (readable hCondition) hThen hElse)
  | switch subject cases =>
    simp only [Stmt.isWritable, Stmt.every, Stmt.isWritableNode, Bool.and_eq_true] at h
    obtain ⟨⟨⟨⟨hSubject, hValues⟩, hValued⟩, hDefault⟩, hBodies⟩ := h
    exact reads_statements_switch (reads_switch_of_isWritable hSubject hValues hValued hDefault
      (reads_cases hBodies))

theorem reads_block {body : List Stmt} (h : Stmt.blockIsWritable body = true) :
    ∀ s ∈ body, s.isWritable = true ∧ ∀ next, Reads statements s.spell (.ok s) next := by
  cases body with
  | nil => simp
  | cons s rest =>
    obtain ⟨hFirst, hRest⟩ := Bool.and_eq_true_iff.mp h
    exact List.forall_mem_cons.mpr ⟨⟨hFirst, reads_statement hFirst⟩, reads_block hRest⟩

theorem reads_cases {cases : List Case} (h : Stmt.everyInCases Stmt.isWritableNode cases = true) :
    ∀ case ∈ cases, ReadsBlock case.body := by
  cases cases with
  | nil => simp
  | cons case rest =>
    obtain ⟨value, body⟩ := case
    obtain ⟨hFirst, hRest⟩ := Bool.and_eq_true_iff.mp h
    exact List.forall_mem_cons.mpr ⟨readsBlock_of_forall (reads_block hFirst), reads_cases hRest⟩

end

end Statements

section Programs

variable {next : Option Lexeme}

theorem reads_listGlobal {name typeName : String} {e : Expr} {es : List Expr}
    (hItems : ∀ item ∈ e :: es, Readable item) :
    Reads listGlobal (.name name :: .fixed ":" :: .name typeName :: .fixed "=" :: .fixed "[" ::
        (Expr.spellItems (e :: es) ++ [.fixed "]"]))
      (.ok ⟨name, some typeName, true, some (.list (e :: es) none), none⟩) next := by
  refine Reads.bind (u := [.name name]) (reads_identifier rfl) ?_
  refine Reads.bind (u := [.fixed ":"]) (reads_expect rfl) ?_
  refine Reads.bind (u := [.name typeName]) (reads_identifier rfl) ?_
  refine Reads.bind (u := [.fixed "="]) (reads_expect rfl) ?_
  refine Reads.bind (u := [.fixed "["]) (reads_expect rfl) ?_
  refine Reads.bind (reads_items hItems (follows_fixed "]" (by decide)) ?_) ?_
  · simp [Lexeme.fixed]
  · exact (reads_expect rfl).bind_pure

theorem reads_mutableGlobal {name : String} {typeName : Option String} {value : Option Expr}
    (hValue : ∀ e ∈ value, Readable e) :
    Reads mutableGlobal (.name name :: (spellTypeName typeName ++ spellInitializer value))
      (.ok ⟨name, typeName, true, value, none⟩) (some (.fixed ";")) := by
  have hColon := colon_ne_head_initializer value none
  rw [List.head?_append] at hColon
  refine Reads.bind (u := [.name name]) (reads_identifier rfl) ?_
  refine Reads.bind (reads_typeName (by simpa using hColon)) ?_
  exact (reads_initializer hValue (follows_fixed ";" (by decide)) (by simp [Lexeme.fixed])).bind_pure

theorem reads_immutableGlobal {name : String} {typeName : Option String} {value : Expr}
    (hValue : Readable value) :
    Reads immutableGlobal
      (.name name :: (spellTypeName typeName ++ spellInitializer (some value)))
      (.ok ⟨name, typeName, false, some value, none⟩) (some (.fixed ";")) := by
  refine Reads.bind (u := [.name name]) (reads_identifier rfl) ?_
  refine Reads.bind (reads_typeName (by simp [spellInitializer, Lexeme.fixed])) ?_
  refine Reads.bind (u := [.fixed "="]) (reads_expect rfl) ?_
  exact (hValue.reads_expression (follows_fixed ";" (by decide))).bind_pure

theorem reads_globalBody_of_plain {name : String} {typeName : Option String} {isMutable : Bool}
    {value : Option Expr} (hPlain : value.any Expr.isList = false)
    (hValue : ∀ e ∈ value, Readable e) (hSome : isMutable = false → value.isSome = true) :
    Reads globalBody (Global.spellBody ⟨name, typeName, isMutable, value, none⟩)
      (.ok ⟨name, typeName, isMutable, value, none⟩) (some (.fixed ";")) := by
  rw [Global.spellBody, Global.keyword, hPlain]
  cases isMutable with
  | true =>
    refine Reads.eat_else (by simp [Lexeme.fixed]) ?_
    exact Reads.eat_then rfl (reads_mutableGlobal hValue).shift
  | false =>
    obtain ⟨value, rfl⟩ := Option.isSome_iff_exists.mp (hSome rfl)
    refine Reads.eat_else (by simp [Lexeme.fixed]) ?_
    refine Reads.eat_else (by simp [Lexeme.fixed]) ?_
    exact Reads.bind (u := [.fixed "VAL"]) (reads_expect rfl)
      (reads_immutableGlobal (hValue value rfl))

theorem not_isList_of_isWritable {e : Expr} (h : e.isWritable = true) : e.isList = false := by
  cases e with
  | list items ty => simp [Expr.isWritable, Expr.every, Expr.isWritableNode] at h
  | literal | group | binary | access | element | call => rfl

theorem reads_globalBody {global : Global} (h : global.isWritable = true) :
    Reads globalBody global.spellBody (.ok global) (some (.fixed ";")) := by
  obtain ⟨name, typeName, isMutable, value, symbol⟩ := global
  simp only [Global.isWritable, Bool.and_eq_true, Option.isNone_iff_eq_none] at h
  obtain ⟨⟨⟨-, -⟩, hValue⟩, rfl⟩ := h
  unfold Global.isWritableValue at hValue
  split at hValue
  · rename_i items ty hList
    obtain rfl : value = some (.list items ty) := hList
    simp only [Bool.and_eq_true, Option.isNone_iff_eq_none] at hValue
    obtain ⟨⟨⟨⟨rfl, hType⟩, hItems⟩, hAll⟩, rfl⟩ := hValue
    obtain ⟨typeName, rfl⟩ := Option.isSome_iff_exists.mp hType
    cases items with
    | nil => cases hItems
    | cons e es =>
      refine Reads.eat_then rfl ?_
      exact (reads_listGlobal fun item hItem => readable (List.all_eq_true.mp hAll item hItem)).shift
  · rename_i e _ hSome
    obtain rfl : value = some e := hSome
    refine reads_globalBody_of_plain (not_isList_of_isWritable hValue) ?_ fun _ => rfl
    rintro _ ⟨⟩
    exact readable hValue
  · rename_i hNone
    obtain rfl : value = none := hNone
    refine reads_globalBody_of_plain rfl (by simp) ?_
    rintro rfl
    cases hValue

theorem reads_global {global : Global} (h : global.isWritable = true) :
    Reads Grammar.global global.spell (.ok global) next :=
  Reads.bind (reads_globalBody h) (reads_expect rfl).bind_pure

theorem reads_parameter (parameter : String × String) :
    Reads (fun _ => Grammar.parameter) (spellParameter parameter) (.ok parameter) next := by
  refine Reads.bind (u := [.name parameter.1]) (reads_identifier rfl) ?_
  refine Reads.bind (u := [.fixed ":"]) (reads_expect rfl) ?_
  exact (reads_identifier (l := .name parameter.2) rfl).bind_pure

theorem reads_parameters (ps : List (String × String)) (hNames : ∀ p ∈ ps, isName p.1 = true) :
    Reads parameters (spellParameters ps ++ [.fixed ")"]) (.ok ps) next := by
  cases ps with
  | nil => exact Reads.eat_then rfl (reads_pure [])
  | cons p ps =>
    have hParameters : Reads (fun n => commaSeparated parameter n) (spellParameters (p :: ps))
        (.ok (p :: ps)) (some (.fixed ")")) :=
      reads_commaSeparated (fun _ => True) rfl trivial (fun p _ _ _ => reads_parameter p) trivial
        (by simp [Lexeme.fixed])
    refine Reads.eat_else ?_ ?_
    · rintro l ⟨⟩
      exact ne_of_isName (hNames p List.mem_cons_self) (by decide)
    · exact Reads.bind hParameters (reads_expect rfl).bind_pure

theorem reads_function {function : Function} (h : function.isWritable = true) :
    Reads Grammar.function function.spell (.ok function) next := by
  obtain ⟨name, parameters, parameterTypes, returnType, body, signature⟩ := function
  simp only [Function.isWritable, Bool.and_eq_true, Option.isNone_iff_eq_none,
    decide_eq_true_eq] at h
  obtain ⟨⟨⟨⟨⟨⟨-, hNames⟩, -⟩, hLength⟩, -⟩, hBody⟩, rfl⟩ := h
  have hZip : ∀ p ∈ parameters.zip parameterTypes, isName p.1 = true := fun p hp =>
    List.all_eq_true.mp hNames p.1 (List.of_mem_zip hp).1
  have hFst := List.map_fst_zip hLength.le
  have hSnd := List.map_snd_zip hLength.ge
  refine Reads.bind (u := [.fixed "FUN"]) (reads_expect rfl) ?_
  refine Reads.bind (u := [.name name]) (reads_identifier rfl) ?_
  refine Reads.bind (u := [.fixed "("]) (reads_expect rfl) ?_
  refine Reads.bind (reads_parameters _ hZip) ?_
  refine Reads.bind (reads_typeName (by simp [Lexeme.fixed])) ?_
  refine Reads.bind (u := [.fixed "DO"]) (reads_expect rfl) ?_
  refine Reads.bind (readsBlock_of_forall (reads_block hBody) _ (seesStatement_fixed (by decide))) ?_
  simp only [hFst, hSnd]
  exact (reads_expect rfl).bind_pure

theorem seesAny_functions (functions : List Function) :
    seesAny ["LIST", "VAR", "VAL"] ((functions.flatMap Function.spell).head?.or none) = none := by
  cases functions with
  | nil => rfl
  | cons function functions => rfl

theorem keyword_mem (global : Global) : global.keyword ∈ ["LIST", "VAR", "VAL"] := by
  unfold Global.keyword
  split
  · decide
  · split <;> decide

theorem reads_source {source : Source} (h : source.isWritable = true) :
    Reads Grammar.source source.spell (.ok source) none := by
  obtain ⟨hGlobals, hFunctions⟩ := Bool.and_eq_true_iff.mp h
  refine Reads.bind (reads_many (fun n _ => Grammar.global n) (sees_checkAny _) (fun _ => True)
    (fun _ => ()) ?_ ?_ trivial (seesAny_functions source.functions)) ?_
  · intro global _
    exact ⟨_, rfl, if_pos (decide_eq_true (keyword_mem global)), trivial⟩
  · intro global hGlobal next _
    exact reads_global (List.all_eq_true.mp hGlobals global hGlobal)
  rw [← List.append_nil (source.functions.flatMap _)]
  refine Reads.bind (reads_many (fun n _ => Grammar.function n) (sees_check "FUN") (fun _ => True)
    (fun _ => ()) ?_ ?_ trivial rfl) ?_
  · intro function _
    exact ⟨_, rfl, rfl, trivial⟩
  · intro function hFunction next _
    exact reads_function (List.all_eq_true.mp hFunctions function hFunction)
  · exact reads_finish source.globals source.functions

end Programs

end Grammar

open ProcLang.Parser

/-- What parsing makes of tokens that it looks at up to the first one of `rest`. -/
theorem parse_append_of_reads {tokens rest : List Token} {outcome : Except ParseFault Source}
    (h : Reads Grammar.source (tokens.map Token.lexeme) outcome (rest.head?.map Token.lexeme)) :
    parse (tokens ++ rest) =
      (ending ⟨rest, (Cursor.ofTokens (tokens ++ rest)).stop⟩ outcome).map (·.1) := by
  have hRead := h (tokens ++ rest).length tokens rest (Cursor.ofTokens (tokens ++ rest)).stop rfl
    rfl le_rfl
  exact congrArg (Except.map (·.1)) hRead

theorem parse_of_reads {lexemes : List Lexeme} {source : Source} {tokens : List Token}
    (h : Reads Grammar.source lexemes (.ok source) none)
    (hTokens : tokens.map Token.lexeme = lexemes) : parse tokens = .ok source := by
  subst hTokens
  rw [← List.append_nil tokens]
  exact @parse_append_of_reads tokens [] (.ok source) h

/-- A writable program is what its spelling is parsed to, wherever the tokens stand. -/
theorem parse_spell {source : Source} {tokens : List Token} (h : source.isWritable = true)
    (hTokens : tokens.map Token.lexeme = source.spell) : parse tokens = .ok source :=
  parse_of_reads (Grammar.reads_source h) hTokens

/-- A program in which operators of all levels and most statements occur. -/
def specimen : Source where
  globals := [
    ⟨"xs", some "IntegerList", true,
      some (.list [.literal (.integer 1) none, .literal (.decimal ⟨25, 1⟩) none] none), none⟩,
    ⟨"limit", none, false, some (.literal (.string "a\n") none), none⟩]
  functions := [
    ⟨"main", ["n"], ["Integer"], some "Integer", [
      .declaration "i" none (some (.binary .or
        (.binary .less
          (.binary .subtract (.binary .subtract (.access "n" none none) (.access "i" none none) none)
            (.binary .power (.access "n" none none) (.literal (.integer 2) none) none) none)
          (.call "f" [.access "n" none none, .literal .nil none] none none) none)
        (.literal (.boolean true) none) none)) none,
      .switch (.element "xs" (.access "i" none none) none none) [
        ⟨some (.literal (.character 'a') none),
          [.conditional (.access "i" none none) [.returns (.access "n" none none)] []]⟩,
        ⟨none, [.assignment (.access "i" none none) (.group (.access "n" none none) none)]⟩]], none⟩]

theorem parse_spell_specimen : specimen.isWritable = true ∧
    parse (specimen.spell.map fun l => ⟨l.kind, l.text, 0⟩) = .ok specimen := by
  have hWritable : specimen.isWritable = true := by decide
  have hTokens : (specimen.spell.map fun l => (⟨l.kind, l.text, 0⟩ : Token)).map Token.lexeme =
      specimen.spell := by
    rw [List.map_map]
    exact List.map_id _
  exact ⟨hWritable, parse_spell hWritable hTokens⟩

end ProcLang
