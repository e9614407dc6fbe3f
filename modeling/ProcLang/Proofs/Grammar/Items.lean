import ProcLang.Proofs.Grammar.EarliestError
import ProcLang.Proofs.Grammar.Faults

/-! # Programs item by item

A program is a sequence of items, its globals before its functions. An item is read in the same way
whatever comes behind it, so programs can be put together and cut off between their items, and
nowhere else.
-/

namespace ProcLang

set_option autoImplicit false

/-- Faults at the end of the tokens say so. -/
theorem ParseFault.exists_message {fault : ParseFault} (h : fault.Describes none) :
    ∃ wanted : String, fault.message = s!"expected {wanted}, found end of input" := by
  have hWords (wanted : String) : s!"expected {wanted}, found {foundText none}" =
      s!"expected {wanted}, found end of input" := by
    have hEnd : ", found " ++ foundText none = ", found end of input" := by decide
    change "expected " ++ wanted ++ ", found " ++ foundText none = _
    rw [String.append_assoc, hEnd]
    rfl
  cases fault with
  | expected pattern found =>
    obtain rfl : found = none := h
    exact ⟨pattern.description, hWords _⟩
  | expectedExpression found =>
    obtain rfl : found = none := h
    exact ⟨"expression", by decide⟩
  | expectedItem => cases h
  | literal => simp [Describes] at h
  | other => cases h

namespace Parser

variable {α : Type}

/-- From one cursor a parser comes to one end. -/
theorem Reads.ending_eq {p : Nat → Parser α} {front back front' back' : List Token}
    {outcome outcome' : Except ParseFault α}
    (h : Reads p (front.map Token.lexeme) outcome (back.head?.map Token.lexeme))
    (h' : Reads p (front'.map Token.lexeme) outcome' (back'.head?.map Token.lexeme))
    (hSame : front ++ back = front' ++ back') :
    ending ⟨back, 0⟩ outcome = ending ⟨back', 0⟩ outcome' := by
  have hHere := h (front ++ back).length front back 0 rfl rfl le_rfl
  rw [hSame] at hHere
  exact hHere.symm.trans (h' _ front' back' 0 rfl rfl le_rfl)

/-- Tokens that begin as items do and are read as one, whatever comes behind them. -/
structure IsItem (item : Nat → Parser α) (sees : Option Lexeme → Option Unit) (tokens : List Token)
    (a : α) : Prop where
  begins : sees (tokens.head?.map Token.lexeme) = some ()
  reads : ∀ next, Reads item (tokens.map Token.lexeme) (.ok a) next

theorem IsItem.exists_cons {item : Nat → Parser α} {sees : Option Lexeme → Option Unit}
    {tokens : List Token} {a : α} (h : IsItem item sees tokens a) (hNone : sees none = none) :
    ∃ token rest, tokens = token :: rest := by
  cases tokens with
  | nil => cases hNone.symm.trans h.begins
  | cons token rest => exact ⟨token, rest, rfl⟩

theorem IsItem.unique {item : Nat → Parser α} {sees : Option Lexeme → Option Unit}
    {tokens tokens' rest rest' : List Token} {a a' : α} (h : IsItem item sees tokens a)
    (h' : IsItem item sees tokens' a') (hSame : tokens ++ rest = tokens' ++ rest') :
    tokens = tokens' := by
  have hEnd := Reads.ending_eq (h.reads _) (h'.reads _) hSame
  obtain rfl : rest = rest' := congrArg Cursor.rest (Prod.mk.inj (Except.ok.inj hEnd)).2
  exact List.append_cancel_right hSame

section Many

variable {item : Nat → Parser α} {found? : Cursor → Option Unit}
  {sees : Option Lexeme → Option Unit}
  (hSees : ∀ cursor, found? cursor = sees (cursor.current.map Token.lexeme))
  (hNone : sees none = none)

include hSees hNone

/-- Behind the items the repetition goes on with the same parser, which may have more room. -/
theorem reads_many_items {items : List (List Token)} {as : List α}
    (h : List.Forall₂ (IsItem item sees) items as) {v : List Lexeme}
    {outcome : Except ParseFault (List α)} {next : Option Lexeme}
    (hRest : ∀ room : Nat → Nat, (∀ n, n ≤ room n) →
      Reads (fun n => many found? (fun _ => item (room n)) n) v outcome next)
    (room : Nat → Nat) (hRoom : ∀ n, n ≤ room n) :
    Reads (fun n => many found? (fun _ => item (room n)) n) (items.flatten.map Token.lexeme ++ v)
      (outcome.map (as ++ ·)) next := by
  induction h generalizing room with
  | nil =>
    have hHere := hRest room hRoom
    cases outcome <;> exact hHere
  | @cons tokens a items as hHead _ ih =>
    obtain ⟨token, others, rfl⟩ := hHead.exists_cons hNone
    have hItem : Reads (fun n => item (room n)) ((token :: others).map Token.lexeme) (.ok a)
        ((items.flatten.map Token.lexeme ++ v).head?.or next) := (hHead.reads _).relax hRoom
    have hOthers := ih (fun n => room (n + 1)) fun n => (Nat.le_succ n).trans (hRoom (n + 1))
    have hAll := reads_many_cons (fun n _ => item (room n)) hSees rfl hHead.begins hItem hOthers
    rw [List.flatten_cons, List.map_append, List.append_assoc]
    cases outcome <;> exact hAll

theorem reads_many_items_end {items : List (List Token)} {as : List α}
    (h : List.Forall₂ (IsItem item sees) items as) {next : Option Lexeme}
    (hNext : sees next = none) :
    Reads (fun n => many found? (fun _ => item n) n) (items.flatten.map Token.lexeme) (.ok as)
      next := by
  have hAll := reads_many_items hSees hNone h
    (fun room _ => reads_many_nil (fun n _ => item (room n)) hSees hNext) id fun _ => le_rfl
  simpa [Except.map] using hAll

/-- An item is rejected behind others. -/
theorem reads_many_items_error {items : List (List Token)} {as : List α}
    (h : List.Forall₂ (IsItem item sees) items as) {u : List Lexeme} {fault : ParseFault}
    {next : Option Lexeme} (hSeen : sees (u.head?.or next) = some ())
    (hItem : Reads item u (.error fault) next) :
    Reads (fun n => many found? (fun _ => item n) n) (items.flatten.map Token.lexeme ++ u)
      (.error fault) next := by
  obtain ⟨l, hAhead⟩ : ∃ l, u.head?.or next = some l := by
    refine Option.ne_none_iff_exists'.mp fun hNil => ?_
    rw [hNil, hNone] at hSeen
    cases hSeen
  rw [hAhead] at hSeen
  exact reads_many_items hSees hNone h (fun room hRoom =>
    reads_many_error (fun n _ => item (room n)) hSees hAhead hSeen (hItem.relax hRoom)) id
    fun _ => le_rfl

omit hSees hNone

/-- All tokens are items up to an item that is rejected or a token that begins none. The induction
is on the tokens. -/
theorem exists_items (sees : Option Lexeme → Option Unit) {first : Option Lexeme → Prop}
    (hConsuming : Consuming first Anything) (hItem : ∀ n, Predictive n item first Anything)
    (tokens : List Token) :
    ∃ items as rest, tokens = items.flatten ++ rest ∧ List.Forall₂ (IsItem item sees) items as ∧
      ((sees (rest.head?.map Token.lexeme) = some () ∧ ∃ front back fault, rest = front ++ back ∧
          Reads item (front.map Token.lexeme) (.error fault) (back.head?.map Token.lexeme)) ∨
        sees (rest.head?.map Token.lexeme) = none) := by
  induction hSize : tokens.length using Nat.strongRecOn generalizing tokens with
  | ind size ih =>
    cases hSeen : sees (tokens.head?.map Token.lexeme) with
    | none => exact ⟨[], [], tokens, rfl, .nil, .inr hSeen⟩
    | some found =>
      cases (hItem (tokens.length + 1)).decided (tokens.map Token.lexeme) (by simp) with
      | rejects u rest fault v a hSplit hHere =>
        obtain ⟨front, back, rfl, rfl, rfl⟩ := List.map_eq_append_iff.mp hSplit
        rw [List.head?_map] at hHere
        exact ⟨[], [], _, rfl, .nil, .inl ⟨hSeen, front, back, fault, rfl, hHere⟩⟩
      | reads u rest a hSplit _ hCompletes =>
        obtain ⟨front, back, rfl, rfl, rfl⟩ := List.map_eq_append_iff.mp hSplit
        have hSome := hCompletes.ne_nil hConsuming
        have hFront : front ≠ [] := by simpa using hSome
        obtain ⟨token, front, rfl⟩ := List.exists_cons_of_ne_nil hFront
        have hFront : IsItem item sees (token :: front) a := by
          refine ⟨hSeen, fun next => ?_⟩
          have hRead := hCompletes.reads next trivial
          rwa [List.append_nil] at hRead
        obtain ⟨items, as, rest, rfl, hItems, hRest⟩ := ih back.length
          (by rw [← hSize, List.length_append, List.length_cons]; omega) back rfl
        refine ⟨(token :: front) :: items, a :: as, rest, ?_, .cons hFront hItems, hRest⟩
        rw [List.flatten_cons, List.append_assoc]

end Many

end Parser

namespace Grammar

open ProcLang.Parser

abbrev seesGlobal : Option Lexeme → Option Unit :=
  seesAny ["LIST", "VAR", "VAL"]

abbrev seesFunction : Option Lexeme → Option Unit :=
  seesText "FUN"

abbrev IsGlobal : List Token → Global → Prop :=
  IsItem global seesGlobal

abbrev IsFunction : List Token → Function → Prop :=
  IsItem function seesFunction

theorem seesGlobal_of_seesFunction {next : Option Lexeme} (h : seesFunction next = some ()) :
    seesGlobal next = none := by
  obtain ⟨l, rfl, hText⟩ := exists_of_seesText h
  simp [seesGlobal, seesAny, hText]

/-- What comes behind the globals. -/
theorem seesGlobal_flatten {items : List (List Token)} {functions : List Function}
    (h : List.Forall₂ IsFunction items functions) {next : Option Lexeme}
    (hNext : items = [] → seesGlobal next = none) :
    seesGlobal ((items.flatten.map Token.lexeme).head?.or next) = none := by
  cases h with
  | nil => exact hNext rfl
  | @cons tokens function others _ hHead =>
    obtain ⟨token, rest, rfl⟩ := hHead.exists_cons rfl
    exact seesGlobal_of_seesFunction hHead.begins

section Source

variable {globals functions : List (List Token)} {gs : List Global} {fs : List Function}
  {next : Option Lexeme} (hGlobals : List.Forall₂ IsGlobal globals gs)

include hGlobals

/-- The items of a program, behind which the tokens end or one comes that begins no item. -/
theorem reads_source_items (hFunctions : List.Forall₂ IsFunction functions fs)
    {outcome : Except ParseFault Source} (hGlobal : functions = [] → seesGlobal next = none)
    (hFunction : seesFunction next = none)
    (hFinish : Reads (fun _ => finish gs fs) [] outcome next) :
    Reads source ((globals.flatten ++ functions.flatten).map Token.lexeme) outcome next := by
  have hFirst := reads_many_items_end (sees_checkAny _) rfl hGlobals
    (seesGlobal_flatten hFunctions hGlobal)
  have hSecond := reads_many_items_end (sees_check "FUN") rfl hFunctions hFunction
  rw [List.map_append]
  refine Reads.bind hFirst ?_
  rw [← List.append_nil (functions.flatten.map _)]
  exact Reads.bind hSecond hFinish

theorem reads_source_global_error {u : List Lexeme} {fault : ParseFault}
    (hSeen : seesGlobal (u.head?.or next) = some ()) (hItem : Reads global u (.error fault) next) :
    Reads source (globals.flatten.map Token.lexeme ++ u) (.error fault) next :=
  Reads.bind_error (reads_many_items_error (sees_checkAny _) rfl hGlobals hSeen hItem)

theorem reads_source_function_error (hFunctions : List.Forall₂ IsFunction functions fs)
    {u : List Lexeme} {fault : ParseFault} (hSeen : seesFunction (u.head?.or next) = some ())
    (hItem : Reads function u (.error fault) next) :
    Reads source (globals.flatten.map Token.lexeme ++ (functions.flatten.map Token.lexeme ++ u))
      (.error fault) next := by
  have hBehind := seesGlobal_flatten hFunctions fun _ => seesGlobal_of_seesFunction hSeen
  rw [← Option.or_assoc, ← List.head?_append] at hBehind
  refine Reads.bind (reads_many_items_end (sees_checkAny _) rfl hGlobals hBehind) ?_
  exact Reads.bind_error (reads_many_items_error (sees_check "FUN") rfl hFunctions hSeen hItem)

end Source

/-- The tokens of a program are those of its globals and behind them those of its functions. -/
def Itemised (tokens : List Token) (source : Source) : Prop :=
  ∃ globals functions, tokens = globals.flatten ++ functions.flatten ∧
    List.Forall₂ IsGlobal globals source.globals ∧
    List.Forall₂ IsFunction functions source.functions

end Grammar

open ProcLang.Grammar ProcLang.Parser

theorem parse_of_itemised {tokens : List Token} {source : Source} (h : Itemised tokens source) :
    parse tokens = .ok source := by
  obtain ⟨globals, functions, rfl, hGlobals, hFunctions⟩ := h
  exact parse_of_reads (reads_source_items hGlobals hFunctions (fun _ => rfl) rfl
    (reads_finish source.globals source.functions)) rfl

/-- Where parsing succeeds, no reading of the tokens in front fails. -/
theorem not_reads_error_of_parse {front back : List Token} {source : Source} {fault : ParseFault}
    (h : parse (front ++ back) = .ok source) : ¬Reads Grammar.source (front.map Token.lexeme)
      (.error fault) (back.head?.map Token.lexeme) := by
  intro hReads
  cases (parse_append_of_reads hReads).symm.trans h

theorem itemised_of_parse {tokens : List Token} {source : Source} (h : parse tokens = .ok source) :
    Itemised tokens source := by
  obtain ⟨globals, gs, rest, rfl, hGlobals, ⟨hSeen, front, back, fault, rfl, hReject⟩ | hRest⟩ :=
    exists_items seesGlobal ⟨none, trivial, nofun⟩ predictive_global tokens
  · rw [head?_append_map rfl rfl] at hSeen
    have hError := reads_source_global_error hGlobals hSeen hReject
    rw [← List.map_append] at hError
    rw [← List.append_assoc] at h
    exact absurd hError (not_reads_error_of_parse h)
  obtain ⟨functions, fs, last, rfl, hFunctions,
      ⟨hSeen, front, back, fault, rfl, hReject⟩ | hLast⟩ :=
    exists_items seesFunction ⟨none, trivial, nofun⟩ predictive_function rest
  · rw [head?_append_map rfl rfl] at hSeen
    have hError := reads_source_function_error hGlobals hFunctions hSeen hReject
    rw [← List.map_append, ← List.map_append] at hError
    rw [← List.append_assoc functions.flatten, ← List.append_assoc] at h
    exact absurd hError (not_reads_error_of_parse h)
  cases last with
  | nil =>
    rw [List.append_nil] at h ⊢
    have hItems : Itemised (globals.flatten ++ functions.flatten) ⟨gs, fs⟩ :=
      ⟨globals, functions, rfl, hGlobals, hFunctions⟩
    cases (parse_of_itemised hItems).symm.trans h
    exact hItems
  | cons token last =>
    have hGlobal : functions = [] → seesGlobal (some token.lexeme) = none := by
      rintro rfl
      exact hRest
    have hError := reads_source_items hGlobals hFunctions hGlobal hLast
      (reads_finish_error gs fs token.lexeme)
    rw [← List.append_assoc] at h
    exact absurd hError (not_reads_error_of_parse h)

/-- A list of tokens is a program if it consists of items, and in no other way. -/
theorem parse_eq_ok_iff {tokens : List Token} {source : Source} :
    parse tokens = .ok source ↔ Itemised tokens source :=
  ⟨itemised_of_parse, parse_of_itemised⟩

namespace Grammar

variable {a b : List Token} {s t : Source}

theorem Itemised.append (ha : Itemised a s) (hb : Itemised b t)
    (hOrder : s.functions = [] ∨ t.globals = []) :
    Itemised (a ++ b) ⟨s.globals ++ t.globals, s.functions ++ t.functions⟩ := by
  obtain ⟨globals, functions, rfl, hGlobals, hFunctions⟩ := ha
  obtain ⟨globals', functions', rfl, hGlobals', hFunctions'⟩ := hb
  refine ⟨globals ++ globals', functions ++ functions', ?_, List.rel_append hGlobals hGlobals',
    List.rel_append hFunctions hFunctions'⟩
  rcases hOrder with hNone | hNone
  · rw [hNone, List.forall₂_nil_right_iff] at hFunctions
    simp [hFunctions]
  · rw [hNone, List.forall₂_nil_right_iff] at hGlobals'
    simp [hGlobals']

/-- A global cannot stand behind a function. -/
theorem Itemised.reads_append_error {token : Token} (ha : Itemised a s)
    (hSome : s.functions ≠ []) (hSeen : seesGlobal (some token.lexeme) = some ()) :
    Reads source (a.map Token.lexeme) (.error (.expectedItem token.literal))
      (some token.lexeme) := by
  obtain ⟨globals, functions, rfl, hGlobals, hFunctions⟩ := ha
  refine reads_source_items hGlobals hFunctions ?_ ?_ (reads_finish_error _ _ token.lexeme)
  · rintro rfl
    exact absurd (List.forall₂_nil_left_iff.mp hFunctions) hSome
  · cases hFunction : seesFunction (some token.lexeme) with
    | none => rfl
    | some found => cases (seesGlobal_of_seesFunction hFunction).symm.trans hSeen

theorem Itemised.exists_head (hb : Itemised b t) (hSome : t.globals ≠ []) :
    ∃ token rest, b = token :: rest ∧ seesGlobal (some token.lexeme) = some () := by
  obtain ⟨globals, functions, rfl, hGlobals, -⟩ := hb
  generalize t.globals = gs at hGlobals hSome
  cases hGlobals with
  | nil => exact absurd rfl hSome
  | @cons tokens global others _ hHead =>
    obtain ⟨token, rest, rfl⟩ := hHead.exists_cons rfl
    exact ⟨token, _, rfl, hHead.begins⟩

/-- The tokens of one item. -/
def IsUnit (tokens : List Token) : Prop :=
  (∃ global, IsGlobal tokens global) ∨ ∃ function, IsFunction tokens function

theorem IsUnit.ne_nil {tokens : List Token} (h : IsUnit tokens) : tokens ≠ [] := by
  rcases h with ⟨global, h⟩ | ⟨function, h⟩
  · obtain ⟨token, rest, rfl⟩ := h.exists_cons rfl
    exact List.cons_ne_nil token rest
  · obtain ⟨token, rest, rfl⟩ := h.exists_cons rfl
    exact List.cons_ne_nil token rest

theorem not_isGlobal_of_isFunction {tokens tokens' rest rest' : List Token} {global : Global}
    {function : Function} (h : IsFunction tokens function)
    (hSame : tokens ++ rest = tokens' ++ rest') : ¬IsGlobal tokens' global := by
  intro h'
  obtain ⟨token, others, rfl⟩ := h.exists_cons rfl
  obtain ⟨token', others', rfl⟩ := h'.exists_cons rfl
  obtain rfl : token = token' := (List.cons.inj hSame).1
  cases (seesGlobal_of_seesFunction h.begins).symm.trans h'.begins

/-- No item is the beginning of another. -/
theorem IsUnit.unique {tokens tokens' rest rest' : List Token} (h : IsUnit tokens)
    (h' : IsUnit tokens') (hSame : tokens ++ rest = tokens' ++ rest') : tokens = tokens' := by
  rcases h with ⟨global, h⟩ | ⟨function, h⟩ <;> rcases h' with ⟨global', h'⟩ | ⟨function', h'⟩
  · exact h.unique h' hSame
  · exact absurd h (not_isGlobal_of_isFunction h' hSame.symm)
  · exact absurd h' (not_isGlobal_of_isFunction h hSame)
  · exact h.unique h' hSame

/-- Items in front are the first items of all. -/
theorem isPrefix_of_flatten {items items' : List (List Token)} {rest : List Token}
    (h : ∀ item ∈ items, IsUnit item) (h' : ∀ item ∈ items', IsUnit item)
    (hSame : items.flatten ++ rest = items'.flatten) : items <+: items' := by
  induction items generalizing items' with
  | nil => exact List.nil_prefix
  | cons item items ih =>
    obtain ⟨hItem, hItems⟩ := List.forall_mem_cons.mp h
    rw [List.flatten_cons, List.append_assoc] at hSame
    cases items' with
    | nil => exact absurd (List.append_eq_nil_iff.mp hSame).1 hItem.ne_nil
    | cons item' items' =>
      obtain ⟨hItem', hItems'⟩ := List.forall_mem_cons.mp h'
      rw [List.flatten_cons] at hSame
      obtain rfl := hItem.unique hItem' hSame
      exact List.prefix_cons_inj item |>.mpr (ih hItems hItems' (List.append_cancel_left hSame))

theorem isUnit_of_forall₂ {globals functions : List (List Token)} {gs : List Global}
    {fs : List Function} (hGlobals : List.Forall₂ IsGlobal globals gs)
    (hFunctions : List.Forall₂ IsFunction functions fs) :
    ∀ item ∈ globals ++ functions, IsUnit item := by
  have hUnits := (List.forall₂_and_left globals gs).mp
    (hGlobals.imp fun _ global h => ⟨(.inl ⟨global, h⟩ : IsUnit _), h⟩)
  have hUnits' := (List.forall₂_and_left functions fs).mp
    (hFunctions.imp fun _ function h => ⟨(.inr ⟨function, h⟩ : IsUnit _), h⟩)
  exact List.forall_mem_append.mpr ⟨hUnits.1, hUnits'.1⟩

/-- Items in front of a program are its first ones, and any number of them are a program. -/
theorem Itemised.take {globals functions : List (List Token)} {s : Source}
    (hGlobals : List.Forall₂ IsGlobal globals s.globals)
    (hFunctions : List.Forall₂ IsFunction functions s.functions) (k : Nat) :
    Itemised ((globals ++ functions).take k).flatten
      ⟨s.globals.take k, s.functions.take (k - globals.length)⟩ := by
  refine ⟨globals.take k, functions.take (k - globals.length), ?_, List.forall₂_take k hGlobals,
    List.forall₂_take _ hFunctions⟩
  rw [List.take_append, List.flatten_append]

/-- At the end of the tokens nothing can be found. Offsets are not looked at, so the end can be told
from the tokens by where it is. -/
theorem describes_none {lexemes : List Lexeme} {fault : ParseFault}
    (h : Reads source lexemes (.error fault) none) : fault.Describes none := by
  have hRead := h lexemes.length (lexemes.map fun l => ⟨l.kind, l.text, 0⟩) [] 1
    (by rw [List.map_map]; exact List.map_id lexemes) rfl (by simp)
  obtain ⟨⟨rest, stop⟩, fault', hLeads, hError, hFault⟩ :=
    (reports_source lexemes.length _ (by simp)).describes hRead
  obtain ⟨rfl, hOffset⟩ := ParseError.mk.inj hError
  cases rest with
  | nil => exact hFault
  | cons token rest =>
    have hMem := hLeads.suffix.subset List.mem_cons_self
    rw [List.append_nil] at hMem
    obtain ⟨l, -, rfl⟩ := List.mem_map.mp hMem
    cases hOffset

end Grammar

/-- The programs that have one item of a program each, in its order. -/
def Source.pieces (source : Source) : List Source :=
  source.globals.map (fun global => ⟨[global], []⟩) ++
    source.functions.map fun function => ⟨[], [function]⟩

theorem parse_prefix_error {front back : List Token} {s : Source}
    (h : parse (front ++ back) = .ok s) (hNone : ¬∃ u, parse front = .ok u) :
    ∃ fault last, front.getLast? = some last ∧ parse front = .error ⟨fault, last.stop⟩ ∧
      ∃ wanted : String, fault.message = s!"expected {wanted}, found end of input" := by
  obtain hAccepted | ⟨read, rest, fault, rfl, hRefused⟩ := accepted_or_refused front
  · exact absurd hAccepted hNone
  cases rest with
  | cons token rest =>
    rw [List.append_assoc] at h
    exact (not_reads_error_of_parse h hRefused.reads).elim
  | nil =>
    have hError := hRefused.parse_eq
    rw [List.append_nil] at hNone hError ⊢
    obtain ⟨last, hLast⟩ : ∃ last, read.getLast? = some last := by
      refine Option.ne_none_iff_exists'.mp fun hNil => hNone ?_
      rw [List.getLast?_eq_none_iff.mp hNil]
      exact ⟨⟨[], []⟩, rfl⟩
    rw [offsetAt_length, hLast] at hError
    exact ⟨fault, last, hLast, hError, ParseFault.exists_message (describes_none hRefused.reads)⟩

section Itemwise

variable {globals functions : List (List Token)} {s : Source}
  (hGlobals : List.Forall₂ IsGlobal globals s.globals)
  (hFunctions : List.Forall₂ IsFunction functions s.functions)

include hGlobals hFunctions

/-- Each item is a program in its own right. -/
theorem parse_pieces : List.Forall₂ (fun item piece => parse item = .ok piece)
    (globals ++ functions) s.pieces := by
  refine List.rel_append (List.forall₂_map_right_iff.mpr (hGlobals.imp fun item global h => ?_))
    (List.forall₂_map_right_iff.mpr (hFunctions.imp fun item function h => ?_))
  · exact parse_of_itemised ⟨[item], [], by simp, .cons h .nil, .nil⟩
  · exact parse_of_itemised ⟨[], [item], by simp, .nil, .cons h .nil⟩

theorem parse_prefix_iff {front back : List Token}
    (hSplit : globals.flatten ++ functions.flatten = front ++ back) :
    (∃ u, parse front = .ok u) ↔ ∃ k, front = ((globals ++ functions).take k).flatten := by
  constructor
  · rintro ⟨u, hFront⟩
    obtain ⟨globals', functions', rfl, hGlobals', hFunctions'⟩ := itemised_of_parse hFront
    rw [← List.flatten_append, ← List.flatten_append] at hSplit
    have hPrefix := isPrefix_of_flatten (isUnit_of_forall₂ hGlobals' hFunctions')
      (isUnit_of_forall₂ hGlobals hFunctions) hSplit.symm
    refine ⟨(globals' ++ functions').length, ?_⟩
    rw [← List.prefix_iff_eq_take.mp hPrefix, List.flatten_append]
  · rintro ⟨k, rfl⟩
    exact ⟨_, parse_of_itemised (Itemised.take hGlobals hFunctions k)⟩

end Itemwise

/-- Programs can be put behind each other if globals do not come behind functions. A program that is
cut off is a program if it ends with an item, otherwise tokens are missing at its end. -/
theorem parse_itemwise {a b : List Token} {s t : Source} (ha : parse a = .ok s)
    (hb : parse b = .ok t) :
    (s.functions = [] ∨ t.globals = [] →
      parse (a ++ b) = .ok ⟨s.globals ++ t.globals, s.functions ++ t.functions⟩) ∧
    (¬(s.functions = [] ∨ t.globals = []) → ∃ token rest, b = token :: rest ∧
      parse (a ++ b) = .error ⟨.expectedItem token.literal, token.offset⟩) ∧
    ∃ items, a = items.flatten ∧
      List.Forall₂ (fun item piece => parse item = .ok piece) items s.pieces ∧
      ∀ front back, a = front ++ back →
        ((∃ u, parse front = .ok u) ↔ ∃ k, front = (items.take k).flatten) ∧
        ((¬∃ u, parse front = .ok u) → ∃ fault last, front.getLast? = some last ∧
          parse front = .error ⟨fault, last.stop⟩ ∧
          ∃ wanted : String, fault.message = s!"expected {wanted}, found end of input") := by
  have hItems := parse_eq_ok_iff.mp ha
  have hItems' := parse_eq_ok_iff.mp hb
  refine ⟨fun hOrder => parse_of_itemised (hItems.append hItems' hOrder), fun hOrder => ?_, ?_⟩
  · rw [not_or] at hOrder
    obtain ⟨token, rest, rfl, hSeen⟩ := hItems'.exists_head hOrder.2
    have hError : Reads Grammar.source (a.map Token.lexeme)
        (.error (.expectedItem token.literal)) ((token :: rest).head?.map Token.lexeme) :=
      hItems.reads_append_error hOrder.1 hSeen
    exact ⟨token, rest, rfl, parse_append_of_reads hError⟩
  · obtain ⟨globals, functions, rfl, hGlobals, hFunctions⟩ := hItems
    refine ⟨globals ++ functions, List.flatten_append.symm, parse_pieces hGlobals hFunctions,
      fun front back hSplit => ⟨parse_prefix_iff hGlobals hFunctions hSplit, ?_⟩⟩
    rw [hSplit] at ha
    exact parse_prefix_error ha

/-- The tokens of `VAR x;`. -/
def declared : List Token :=
  [⟨.identifier, "VAR", 0⟩, ⟨.identifier, "x", 4⟩, ⟨.operator, ";", 5⟩]

/-- The tokens of `FUN f() DO END`. -/
def stub : List Token :=
  [⟨.identifier, "FUN", 0⟩, ⟨.identifier, "f", 4⟩, ⟨.operator, "(", 5⟩, ⟨.operator, ")", 6⟩,
    ⟨.identifier, "DO", 8⟩, ⟨.identifier, "END", 11⟩]

theorem parse_itemwise_stub :
    parse (declared ++ stub) =
        .ok ⟨[⟨"x", none, true, none, none⟩], [⟨"f", [], [], none, [], none⟩]⟩ ∧
      parse (stub ++ declared) = .error ⟨.expectedItem "VAR", 0⟩ ∧
      ∃ fault, parse (stub.take 4) = .error ⟨fault, 7⟩ := by
  have hDeclared : parse declared = .ok ⟨[⟨"x", none, true, none, none⟩], []⟩ := rfl
  have hStub : parse stub = .ok ⟨[], [⟨"f", [], [], none, [], none⟩]⟩ := rfl
  obtain ⟨hJoined, -⟩ := parse_itemwise hDeclared hStub
  obtain ⟨-, hRefused, items, -, -, hCut⟩ := parse_itemwise hStub hDeclared
  obtain ⟨token, rest, hHead, hError⟩ := hRefused (by simp)
  obtain ⟨rfl, rfl⟩ := List.cons.inj hHead
  have hNone : ¬∃ u, parse (stub.take 4) = .ok u := by
    rintro ⟨u, hParse⟩
    cases hParse
  obtain ⟨fault, last, hLast, hFault, -⟩ := (hCut (stub.take 4) (stub.drop 4) rfl).2 hNone
  obtain rfl : _ = last := Option.some.inj hLast
  exact ⟨hJoined (.inl rfl), hError, fault, hFault⟩

end ProcLang
