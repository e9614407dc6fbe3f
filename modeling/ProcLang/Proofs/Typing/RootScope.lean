import ProcLang.Proofs.Typing.Derivable
import ProcLang.Proofs.Typing.Walk

/-! # What a program leaves behind

A checker that has been used can mention what the programs before defined, whether they were
accepted or not. This is what each of them defines up to its first error: the globals that obey the
rules, and the functions whose types are known, also when the body of the last one is refused.
Nothing that stands in a function is among it.
-/

namespace ProcLang

set_option autoImplicit false

inductive Definition where
  | global (symbol : Variable)
  | function (signature : Signature)

namespace Definition

def symbol? (name : String) : Definition → Option Variable
  | global symbol => if symbol.name = name then some symbol else none
  | function _ => none

def signature? (name : String) (arity : Nat) : Definition → Option Signature
  | global _ => none
  | function signature =>
    if signature.name = name ∧ signature.arity = arity then some signature else none

end Definition

namespace Context

/-- The code behind a definition. -/
def define (Γ : Context) : Definition → Context
  | .global symbol => Γ.bind symbol
  | .function signature => Γ.declare signature

/-- Where a definition only adds an answer, the last one that has it counts. -/
theorem foldl_define {β : Type} (answer : Context → Option β) {own : Definition → Option β}
    (hDefine : ∀ Γ definition, answer (define Γ definition) = (own definition).or (answer Γ))
    (Γ : Context) (definitions : List Definition) :
    answer (definitions.foldl define Γ) = (definitions.reverse.findSome? own).or (answer Γ) := by
  induction definitions generalizing Γ with
  | nil => rfl
  | cons definition rest ih =>
    rw [List.foldl_cons, ih, hDefine, List.reverse_cons, List.findSome?_append, Option.or_assoc]
    simp

theorem symbol?_define (name : String) (Γ : Context) (definition : Definition) :
    (Γ.define definition).symbol? name = (definition.symbol? name).or (Γ.symbol? name) := by
  cases definition with
  | global symbol =>
    simp only [define, bind, Definition.symbol?]
    split <;> rfl
  | function signature => rfl

theorem signature?_define (name : String) (arity : Nat) (Γ : Context) (definition : Definition) :
    (Γ.define definition).signature? name arity =
      (definition.signature? name arity).or (Γ.signature? name arity) := by
  cases definition with
  | global symbol => rfl
  | function signature =>
    simp only [define, declare, Definition.signature?]
    split <;> rfl

end Context

namespace Scopes

def define (scopes : Scopes) : Definition → Scopes
  | .global symbol => scopes.defineVariable symbol
  | .function signature => scopes.defineFunction signature

theorem SameStack.current_eq_zero {first second : Scopes} (h : first.SameStack second)
    (hFirst : first.current = 0) : second.current = 0 := by
  have hParent := (h.left.isTree.root h.left.valid.current_lt).mpr hFirst
  have hBelow : second.stack.below = [] := by
    rw [← h.stack_eq, stack, currentFrame, List.head?_eq_none_iff.mp hParent]
    rfl
  exact h.right.outermost h.right.valid.current_lt (List.map_eq_nil_iff.mp hBelow)

theorem Linked.define {scopes : Scopes} (h : scopes.Linked) (definition : Definition) :
    (scopes.define definition).Linked ∧
      (scopes.define definition).context = scopes.context.define definition := by
  cases definition with
  | global symbol =>
    exact ⟨h.step (.defineVariable symbol), h.valid.context_defineVariable symbol⟩
  | function signature =>
    exact ⟨h.step (.defineFunction signature), h.valid.context_defineFunction signature⟩

theorem Linked.foldl_define {scopes : Scopes} (h : scopes.Linked) (definitions : List Definition) :
    (definitions.foldl Scopes.define scopes).Linked ∧
      (definitions.foldl Scopes.define scopes).current = scopes.current ∧
      (definitions.foldl Scopes.define scopes).context =
        definitions.foldl Context.define scopes.context := by
  induction definitions generalizing scopes with
  | nil => exact ⟨h, rfl, rfl⟩
  | cons definition rest ih =>
    obtain ⟨hDefined, hContext⟩ := h.define definition
    obtain ⟨hLinked, hCurrent, hRest⟩ := ih hDefined
    refine ⟨hLinked, hCurrent.trans ?_, ?_⟩
    · cases definition <;> rfl
    · rw [hContext] at hRest
      exact hRest

end Scopes

/-- What a checker visits one after the other. -/
inductive Item where
  | global (global : Global)
  | function (function : Function)

def Source.items (source : Source) : List Item :=
  source.globals.map .global ++ source.functions.map .function

namespace Item

/-- A global is defined if it obeys the rules, a function if its types are known. -/
inductive Defines (types : TypeRegistry) (Γ : Context) : Item → Definition → Prop
  | global {global value ty} (hErase : value.map Expr.erase = global.value.map Expr.erase)
      (hBinding : HasBindingType types Γ global.typeName value ty) :
    Defines types Γ (.global global) (.global ⟨global.name, ty, global.isMutable⟩)
  | function {function signature} (hName : signature.name = function.name)
      (hParameters : List.Forall₂ (fun name ty => types.lookup name = some ty)
        function.parameterTypes signature.parameterTypes)
      (hReturn : HasReturnType types function.returnType signature.returnType) :
    Defines types Γ (.function function) (.function signature)

/-- With the right slots, the body of a function obeys the rules. Globals have none. -/
def HasTypedBody (types : TypeRegistry) (Γ : Context) : Item → Prop
  | global _ => True
  | function f => ∃ typed signature,
    typed.erase = f.erase ∧ Function.WellTyped types Γ typed signature

end Item

/-- What is defined up to the first error. -/
inductive Items.Leave (types : TypeRegistry) : Context → List Item → List Definition → Prop
  | nil {Γ} : Items.Leave types Γ [] []
  | refused {Γ} {item : Item} {rest} (hRefused : ∀ definition, ¬item.Defines types Γ definition) :
    Items.Leave types Γ (item :: rest) []
  | broken {Γ} {item : Item} {rest definition} (hDefines : item.Defines types Γ definition)
      (hBroken : ¬item.HasTypedBody types Γ) :
    Items.Leave types Γ (item :: rest) [definition]
  | next {Γ} {item : Item} {rest definition definitions} (hDefines : item.Defines types Γ definition)
      (hBody : item.HasTypedBody types Γ)
      (hRest : Items.Leave types (Γ.define definition) rest definitions) :
    Items.Leave types Γ (item :: rest) (definition :: definitions)

namespace Source

/-- What a program defines: nothing if it does not begin anywhere. -/
inductive Leaves (types : TypeRegistry) (Γ : Context) (source : Source) : List Definition → Prop
  | refused (hRefused : ¬Functions.HasMain types source.functions) : Leaves types Γ source []
  | visited {definitions} (hMain : Functions.HasMain types source.functions)
      (hItems : Items.Leave types Γ source.items definitions) :
    Leaves types Γ source definitions

end Source

/-- What programs define that are checked after each other. -/
inductive Sources.Leave (types : TypeRegistry) : Context → List Source → List Definition → Prop
  | nil {Γ} : Sources.Leave types Γ [] []
  | cons {Γ} {source : Source} {rest definitions definitions'}
      (hSource : source.Leaves types Γ definitions)
      (hRest : Sources.Leave types (definitions.foldl Context.define Γ) rest definitions') :
    Sources.Leave types Γ (source :: rest) (definitions ++ definitions')

theorem Items.Leave.exists_item {types : TypeRegistry} {Γ : Context} {items : List Item}
    {definitions : List Definition} (h : Leave types Γ items definitions) :
    ∀ definition ∈ definitions, ∃ item ∈ items, ∃ Γ', item.Defines types Γ' definition := by
  induction h with
  | nil | refused => nofun
  | broken hDefines =>
    intro other hOther
    obtain rfl := List.mem_singleton.mp hOther
    exact ⟨_, List.mem_cons_self, _, hDefines⟩
  | next hDefines _ _ ih =>
    intro other hOther
    rcases List.mem_cons.mp hOther with rfl | hRest
    · exact ⟨_, List.mem_cons_self, _, hDefines⟩
    · obtain ⟨item, hItem, hFound⟩ := ih other hRest
      exact ⟨item, List.mem_cons_of_mem _ hItem, hFound⟩

theorem Sources.Leave.exists_item {types : TypeRegistry} {Γ : Context} {sources : List Source}
    {definitions : List Definition} (h : Leave types Γ sources definitions) :
    ∀ definition ∈ definitions, ∃ source ∈ sources, ∃ item ∈ source.items, ∃ Γ',
      item.Defines types Γ' definition := by
  induction h with
  | nil => nofun
  | cons hSource _ ih =>
    intro definition hDefinition
    rcases List.mem_append.mp hDefinition with hHere | hLater
    · cases hSource with
      | refused => cases hHere
      | visited _ hItems =>
        exact ⟨_, List.mem_cons_self, hItems.exists_item definition hHere⟩
    · obtain ⟨source, hSource, hFound⟩ := ih definition hLater
      exact ⟨source, List.mem_cons_of_mem _ hSource, hFound⟩

section Outcomes

variable {ε α β : Type} {P : β → Prop} {outcome : Except ε α} {f : α → β}

theorem not_of_error (h : ∀ b, P b ↔ ∃ a, outcome = .ok a ∧ b = f a) {error : ε}
    (hError : outcome = .error error) (b : β) : ¬P b := by
  rw [h]
  rintro ⟨a, hOk, -⟩
  cases hError.symm.trans hOk

theorem iff_eq_of_ok (h : ∀ b, P b ↔ ∃ a, outcome = .ok a ∧ b = f a) {a : α}
    (hOk : outcome = .ok a) (b : β) : P b ↔ b = f a := by
  rw [h]
  constructor
  · rintro ⟨a', hOk', rfl⟩
    cases hOk.symm.trans hOk'
    rfl
  · rintro rfl
    exact ⟨a, hOk, rfl⟩

end Outcomes

section Visits

variable (types : TypeRegistry) {scopes : Scopes}

namespace Item

theorem defines_global_iff (hScopes : scopes.Valid) (g : Global) (definition : Definition) :
    Defines types scopes.context (global g) definition ↔ ∃ checked,
      checkBinding types scopes g.name g.typeName g.value = .ok checked ∧
        definition = .global ⟨g.name, checked.1, g.isMutable⟩ := by
  constructor
  · rintro (@⟨_, value, ty, hErase, hBinding⟩ | _)
    refine ⟨(ty, value), ?_, rfl⟩
    rw [← checkBinding_erase hScopes, ← hErase, checkBinding_erase hScopes]
    exact checkBinding_of_hasBindingType hBinding
  · rintro ⟨⟨ty, value⟩, hChecked, rfl⟩
    exact .global (erase_of_checkBinding hChecked) (hasBindingType_of_check hScopes hChecked)

theorem defines_function_iff (Γ : Context) (f : Function) (definition : Definition) :
    Defines types Γ (function f) definition ↔
      ∃ signature, f.checkSignature types = .ok signature ∧ definition = .function signature := by
  constructor
  · rintro (_ | @⟨_, signature, hName, hParameters, hReturn⟩)
    exact ⟨signature, Function.checkSignature_eq hName hParameters hReturn, rfl⟩
  · rintro ⟨signature, hSignature, rfl⟩
    obtain ⟨hName, hParameters, hReturn⟩ := Function.signature_of_check hSignature
    exact .function hName hParameters hReturn

theorem hasTypedBody_iff (hScopes : scopes.Valid) (f : Function) :
    HasTypedBody types scopes.context (function f) ↔
      ∃ checked scopes', Check.Yields (f.check types) scopes checked scopes' := by
  constructor
  · rintro ⟨typed, signature, hErase, hTyped⟩
    exact ⟨typed, _, Function.check_of_wellTyped hScopes hErase hTyped⟩
  · rintro ⟨checked, scopes', hChecked⟩
    obtain ⟨-, signature, hTyped, -⟩ := Function.wellTyped_of_check hScopes hChecked
    exact ⟨checked, signature, Function.erase_of_check hChecked, hTyped⟩

/-- How a visit can end, and the scopes behind it. -/
inductive Visited {α : Type} (types : TypeRegistry) (scopes : Scopes) (item : Item) :
    Except SemanticError α × Scopes → Prop
  | refused {error} (hRefused : ∀ definition, ¬Defines types scopes.context item definition) :
    Visited types scopes item (.error error, scopes)
  | broken {error definition}
      (hDefines : ∀ other, Defines types scopes.context item other ↔ other = definition)
      (hBroken : ¬HasTypedBody types scopes.context item) :
    Visited types scopes item (.error error, scopes.define definition)
  | accepted {a definition}
      (hDefines : ∀ other, Defines types scopes.context item other ↔ other = definition)
      (hBody : HasTypedBody types scopes.context item) :
    Visited types scopes item (.ok a, scopes.define definition)

end Item

theorem Global.visited (hScopes : scopes.Valid) (global : Global) :
    Item.Visited types scopes (.global global) ((global.check types).run.run scopes) := by
  have hDefines := Item.defines_global_iff types hScopes global
  have hLifted := Check.run_liftExcept
    (checkBinding types scopes global.name global.typeName global.value) scopes
  have hStart : (global.check types).run.run scopes = _ := Check.run_bind_of_ok (a := scopes) rfl
  cases hChecked : checkBinding types scopes global.name global.typeName global.value with
  | error error =>
    have hFailed := hLifted.trans (congrArg (·, scopes) hChecked)
    rw [hStart, Check.run_bind_of_error hFailed]
    exact .refused (not_of_error hDefines hChecked)
  | ok checked =>
    have hBound := hLifted.trans (congrArg (·, scopes) hChecked)
    rw [hStart, Check.run_bind_of_ok hBound]
    exact .accepted (iff_eq_of_ok hDefines hChecked) trivial

theorem Function.visited (hScopes : scopes.Valid) (function : Function) :
    Item.Visited types scopes (.function function) ((function.check types).run.run scopes) := by
  have hDefines := Item.defines_function_iff types scopes.context function
  have hBody := Item.hasTypedBody_iff types hScopes function
  have hLifted := Check.run_liftExcept (function.checkSignature types) scopes
  cases hSignature : function.checkSignature types with
  | error error =>
    have hRun : (function.check types).run.run scopes = (.error error, scopes) :=
      Check.run_bind_of_error (hLifted.trans (congrArg (·, scopes) hSignature))
    rw [hRun]
    exact .refused (not_of_error hDefines hSignature)
  | ok signature =>
    have hOnly := iff_eq_of_ok hDefines hSignature
    -- The function is known before its body is looked at, and stays so.
    let defined := scopes.define (.function signature)
    have hDefined : (modify fun scopes => scopes.defineFunction signature : Check Unit).run.run
        scopes = (.ok (), defined) := rfl
    have hStart : (function.check types).run.run scopes = _ :=
      (Check.run_bind_of_ok (hLifted.trans (congrArg (·, scopes) hSignature))).trans
        ((Check.run_bind_of_ok hDefined).trans (Check.run_bind_of_ok (a := defined) rfl))
    have hBlockLifted := Check.run_liftExcept
      (Stmt.checkBlock types (function.bodyScopes signature defined) function.body) defined
    cases hBlock : Stmt.checkBlock types (function.bodyScopes signature defined) function.body with
    | error error =>
      have hRun : (function.check types).run.run scopes = (.error error, defined) :=
        hStart.trans (Check.run_bind_of_error (hBlockLifted.trans (congrArg (·, defined) hBlock)))
      rw [hRun]
      refine .broken hOnly fun hTyped => ?_
      obtain ⟨checked, scopes', hYields⟩ := hBody.mp hTyped
      cases hRun.symm.trans hYields
    | ok body =>
      have hRun : (function.check types).run.run scopes = (.ok _, defined) :=
        hStart.trans (Check.run_bind_of_ok (hBlockLifted.trans (congrArg (·, defined) hBlock)))
      rw [hRun]
      exact .accepted hOnly (hBody.mpr ⟨_, _, hRun⟩)

end Visits

/-- A computation that ends with what some items define up to the first error. -/
def Check.Leaves {α : Type} (types : TypeRegistry) (items : List Item) (computation : Check α) :
    Prop :=
  ∀ scopes : Scopes, scopes.Linked → ∃ definitions,
    (∀ other, Items.Leave types scopes.context items other ↔ other = definitions) ∧
      (computation.run.run scopes).2 = definitions.foldl Scopes.define scopes

namespace Check

variable {α β γ : Type} {types : TypeRegistry}

theorem leaves_pure (a : α) : Leaves types [] (pure a : Check α) := by
  intro scopes _
  refine ⟨[], fun other => ?_, rfl⟩
  constructor
  · rintro ⟨⟩
    rfl
  · rintro rfl
    exact .nil

/-- The rest is reached if a visit succeeds. -/
theorem leaves_cons {item : Item} {rest : List Item} {first : Check α} {next : α → Check β}
    (hFirst : ∀ scopes : Scopes, scopes.Valid →
      Item.Visited types scopes item (first.run.run scopes))
    (hNext : ∀ a, Leaves types rest (next a)) : Leaves types (item :: rest) (first >>= next) := by
  intro scopes hScopes
  have hVisited := hFirst scopes hScopes.valid
  generalize hRun : first.run.run scopes = ran at hVisited
  cases hVisited with
  | refused hRefused =>
    rw [run_bind_of_error hRun]
    refine ⟨[], fun other => ?_, rfl⟩
    constructor
    · rintro (_ | _ | hDefines | hDefines)
      · rfl
      · exact absurd hDefines (hRefused _)
      · exact absurd hDefines (hRefused _)
    · rintro rfl
      exact .refused hRefused
  | @broken error definition hDefines hBroken =>
    rw [run_bind_of_error hRun]
    refine ⟨[definition], fun other => ?_, rfl⟩
    constructor
    · rintro (_ | hRefused | hOther | ⟨_, hBody⟩)
      · exact absurd ((hDefines definition).mpr rfl) (hRefused _)
      · rw [(hDefines _).mp hOther]
      · exact absurd hBody hBroken
    · rintro rfl
      exact .broken ((hDefines definition).mpr rfl) hBroken
  | @accepted a definition hDefines hBody =>
    obtain ⟨hLinked, hContext⟩ := hScopes.define definition
    obtain ⟨definitions, hLeave, hEnd⟩ := hNext a _ hLinked
    rw [run_bind_of_ok hRun]
    refine ⟨definition :: definitions, fun other => ?_, hEnd⟩
    rw [hContext] at hLeave
    constructor
    · rintro (_ | hRefused | ⟨_, hBroken⟩ | ⟨hOther, _, hRest⟩)
      · exact absurd ((hDefines definition).mpr rfl) (hRefused _)
      · exact absurd hBody hBroken
      · obtain rfl := (hDefines _).mp hOther
        rw [(hLeave _).mp hRest]
    · rintro rfl
      exact .next ((hDefines definition).mpr rfl) hBody ((hLeave definitions).mpr rfl)

theorem leaves_mapM {item : α → Item} {check : α → Check β}
    (hCheck : ∀ a (scopes : Scopes), scopes.Valid →
      Item.Visited types scopes (item a) ((check a).run.run scopes))
    (as : List α) {rest : List Item} {next : List β → Check γ}
    (hNext : ∀ bs, Leaves types rest (next bs)) :
    Leaves types (as.map item ++ rest) (as.mapM check >>= next) := by
  induction as generalizing next with
  | nil => exact hNext []
  | cons a as ih =>
    rw [List.map_cons, List.cons_append, List.mapM_cons, bind_assoc]
    refine leaves_cons (hCheck a) fun b => ?_
    simp only [bind_assoc, pure_bind]
    exact ih fun bs => hNext (b :: bs)

end Check

section Programs

variable (types : TypeRegistry)

theorem Source.leaves (source : Source) {scopes : Scopes} (hScopes : scopes.Linked) :
    ∃ definitions, (∀ other, source.Leaves types scopes.context other ↔ other = definitions) ∧
      ((source.check types).run.run scopes).2 = definitions.foldl Scopes.define scopes := by
  have hLifted := Check.run_liftExcept (source.checkMain types) scopes
  cases hMain : source.checkMain types with
  | error error =>
    have hNoMain : ¬Functions.HasMain types source.functions := by
      rw [← checkMain_eq_ok_iff, hMain]
      nofun
    have hRun : (source.check types).run.run scopes = (.error error, scopes) :=
      Check.run_bind_of_error (hLifted.trans (congrArg (·, scopes) hMain))
    rw [hRun]
    refine ⟨[], fun other => ?_, rfl⟩
    constructor
    · rintro (_ | hMain')
      · rfl
      · exact absurd hMain' hNoMain
    · rintro rfl
      exact .refused hNoMain
  | ok result =>
    have hHasMain := checkMain_eq_ok_iff.mp hMain
    have hItems : Check.Leaves types source.items (do
        let globals ← source.globals.mapM (Global.check types)
        let functions ← source.functions.mapM (Function.check types)
        return (⟨globals, functions⟩ : Source)) := by
      refine Check.leaves_mapM (fun global _ h => global.visited types h) _ fun globals => ?_
      rw [← List.append_nil (source.functions.map _)]
      refine Check.leaves_mapM (fun function _ h => function.visited types h) _ fun functions => ?_
      exact Check.leaves_pure _
    obtain ⟨definitions, hLeave, hEnd⟩ := hItems scopes hScopes
    have hRun : (source.check types).run.run scopes = _ :=
      Check.run_bind_of_ok (hLifted.trans (congrArg (·, scopes) hMain))
    rw [hRun]
    refine ⟨definitions, fun other => ?_, hEnd⟩
    constructor
    · rintro (hNoMain | ⟨_, hOther⟩)
      · exact absurd hHasMain hNoMain
      · exact (hLeave other).mp hOther
    · rintro rfl
      exact .visited hHasMain ((hLeave _).mpr rfl)

end Programs

namespace Checker

/-- A checker after the programs that it has checked. -/
def checkAll (checker : Checker) (sources : List Source) : Checker :=
  sources.foldl (fun checker source => (checker.check source).2) checker

def walkAll (checker : Checker) (sources : List Source) : Checker :=
  sources.foldl (fun checker source => (checker.walk source).2) checker

/-- The checker is outside of all blocks and functions, and knows some definitions and no others. Of
those of one name, the last counts. -/
structure Keeps (checker : Checker) (definitions : List Definition) : Prop where
  current_eq : checker.scopes.current = 0
  lookupVariable_eq : ∀ name, checker.scopes.lookupVariable name =
    definitions.reverse.findSome? fun definition => definition.symbol? name
  lookupFunction_eq : ∀ name arity, checker.scopes.lookupFunction name arity =
    definitions.reverse.findSome? fun definition => definition.signature? name arity

theorem checkAll_leave (types : TypeRegistry) (sources : List Source) {scopes : Scopes}
    (hScopes : scopes.Linked) : ∃ definitions,
    (∀ other, Sources.Leave types scopes.context sources other ↔ other = definitions) ∧
      checkAll ⟨scopes, types⟩ sources = ⟨definitions.foldl Scopes.define scopes, types⟩ := by
  induction sources generalizing scopes with
  | nil =>
    refine ⟨[], fun other => ?_, rfl⟩
    constructor
    · rintro ⟨⟩
      rfl
    · rintro rfl
      exact .nil
  | cons source rest ih =>
    obtain ⟨definitions, hSource, hEnd⟩ := source.leaves types hScopes
    have hChecked : (check ⟨scopes, types⟩ source).2 =
        ⟨definitions.foldl Scopes.define scopes, types⟩ := by
      rw [← hEnd]
      rfl
    obtain ⟨hLinked, -, hContext⟩ := hScopes.foldl_define definitions
    obtain ⟨definitions', hRest, hEnd'⟩ := ih hLinked
    refine ⟨definitions ++ definitions', fun other => ?_, ?_⟩
    · rw [hContext] at hRest
      constructor
      · rintro (_ | @⟨_, _, _, first, second, hFirst, hSecond⟩)
        obtain rfl := (hSource first).mp hFirst
        rw [(hRest second).mp hSecond]
      · rintro rfl
        exact .cons ((hSource _).mpr rfl) ((hRest _).mpr rfl)
    · rw [List.foldl_append]
      exact (congrArg (fun checker => checkAll checker rest) hChecked).trans hEnd'

theorem keeps_of_scopes_eq {checker : Checker} {definitions : List Definition}
    (h : checker.scopes = definitions.foldl Scopes.define {}) : checker.Keeps definitions := by
  obtain ⟨-, hCurrent, hContext⟩ := Scopes.Linked.empty.foldl_define definitions
  rw [← h] at hCurrent hContext
  refine ⟨hCurrent, fun name => ?_, fun name arity => ?_⟩
  · have hFound := Context.foldl_define (fun Γ => Γ.symbol? name) (Context.symbol?_define name)
      ({} : Scopes).context definitions
    rw [← hContext] at hFound
    exact hFound.trans Option.or_none
  · have hFound := Context.foldl_define (fun Γ => Γ.signature? name arity)
      (Context.signature?_define name arity) ({} : Scopes).context definitions
    rw [← hContext] at hFound
    exact hFound.trans Option.or_none

theorem Mirrors.walkAll {checked walked : Checker} (h : checked.Mirrors walked)
    (sources : List Source) : (checked.checkAll sources).Mirrors (walked.walkAll sources) := by
  induction sources generalizing checked walked with
  | nil => exact h
  | cons source rest ih => exact ih (h.walk source).2

theorem Mirrors.keeps {checked walked : Checker} (h : checked.Mirrors walked)
    {definitions : List Definition} (hKeeps : checked.Keeps definitions) :
    walked.Keeps definitions where
  current_eq := h.scopes.current_eq_zero hKeeps.current_eq
  lookupVariable_eq name := (h.scopes.lookupVariable_eq name).symm.trans (hKeeps.2 name)
  lookupFunction_eq name arity :=
    (h.scopes.lookupFunction_eq name arity).symm.trans (hKeeps.3 name arity)

/-- Whatever programs are checked, and wherever an error ends each of them, the checker ends up
outside of all blocks and functions, and knows what these programs define besides `print`: globals
that obey the rules and functions whose types are known, up to the first error of each program. -/
theorem keeps_definitions (types : TypeRegistry) (sources : List Source) :
    ∃ definitions,
      (∀ other, Sources.Leave types .initial sources other ↔ other = definitions) ∧
      ((ofTypes types).checkAll sources).Keeps (.function print :: definitions) ∧
      ((ofTypes types).walkAll sources).Keeps (.function print :: definitions) ∧
      (∀ source, (((ofTypes types).checkAll sources).check source).1 =
        (((ofTypes types).walkAll sources).walk source).1) ∧
      ∀ definition ∈ definitions, ∃ source ∈ sources, ∃ item ∈ source.items, ∃ Γ,
        item.Defines types Γ definition := by
  have hInitial : (({} : Scopes).defineFunction print).Linked :=
    Scopes.Linked.empty.step (.defineFunction print)
  have hSame : (ofTypes types).Mirrors (ofTypes types) := ⟨rfl, hInitial, hInitial, rfl⟩
  have hMirrors := hSame.walkAll sources
  obtain ⟨definitions, hLeave, hEnd⟩ := checkAll_leave types sources hInitial
  rw [context_defineFunction_print] at hLeave
  have hKeeps : ((ofTypes types).checkAll sources).Keeps (.function print :: definitions) :=
    keeps_of_scopes_eq (congrArg scopes hEnd)
  refine ⟨definitions, hLeave, hKeeps, hMirrors.keeps hKeeps,
    fun source => (hMirrors.walk source).1, ?_⟩
  exact Sources.Leave.exists_item ((hLeave definitions).mpr rfl)

/-- An error in the loop of `f` leaves two frames behind, of which nothing is seen. -/
example :
    let body : List Stmt := [.loop (.literal (.boolean true) none)
      [.declaration "y" (some "Integer") none none, .returns (.access "z" none none)]]
    let checker := walkAll (ofTypes {}) [⟨[⟨"x", some "Integer", true, none, none⟩],
      [⟨"f", ["p"], ["Integer"], none, body, none⟩, ⟨"main", [], [], some "Integer", [], none⟩]⟩]
    checker.scopes.frames.size = 3 ∧ checker.scopes.current = 0 ∧
      ["x", "p", "y"].filter (fun name => (checker.scopes.lookupVariable name).isSome) = ["x"] ∧
      (checker.scopes.lookupFunction "f" 1).isSome ∧
      (checker.scopes.lookupFunction "main" 0).isNone := by
  decide +kernel

end Checker

end ProcLang
