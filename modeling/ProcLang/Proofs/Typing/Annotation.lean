import ProcLang.Proofs.Traversal
import ProcLang.Proofs.Typing.Derivable

/-! # Annotated trees

What the checker writes into a tree can be read without its scopes: all slots are filled, and those
of a node agree with each other and with the types of its parts. A tree has this property because
each of its parts obeys the rules in some context, in which symbols stand under their own names.
-/

namespace ProcLang

set_option autoImplicit false

namespace Expr

def children : Expr → List Expr
  | literal _ _ | access _ _ _ => []
  | group inner _ => [inner]
  | binary _ left right _ => [left, right]
  | element _ index _ _ => [index]
  | call _ arguments _ _ => arguments
  | list items _ => items

end Expr

/-- The statements in the blocks of a statement. -/
def Stmt.children : Stmt → List Stmt
  | conditional _ consequent alternative => consequent ++ alternative
  | switch _ cases => cases.flatMap Case.body
  | loop _ body => body
  | expression _ | declaration .. | assignment .. | returns _ => []

/-- The statements of a function, at any depth. -/
inductive Function.HasStmt (function : Function) : Stmt → Prop
  | body {s} (hMem : s ∈ function.body) : HasStmt function s
  | inside {s child} (h : HasStmt function s) (hMem : child ∈ s.children) : HasStmt function child

/-- The expressions of a program, at any depth. -/
inductive Source.HasExpr (source : Source) : Expr → Prop
  | global {global e} (hMem : global ∈ source.globals) (hValue : global.value = some e) :
    HasExpr source e
  | statement {function s e} (hMem : function ∈ source.functions) (hStatement : function.HasStmt s)
      (hExpr : e ∈ s.expressions) : HasExpr source e
  | inside {e child} (h : HasExpr source e) (hMem : child ∈ e.children) : HasExpr source child

/-- The slots of an expression are filled and agree with those of its children. -/
inductive Expr.Consistent : Expr → Prop
  | literal {value ty} (hValue : value.HasType ty) : Consistent (.literal value (some ty))
  | group {inner ty} (hInner : inner.ty = some ty) : Consistent (.group inner (some ty))
  | binary {operator left right leftType rightType ty} (hLeft : left.ty = some leftType)
      (hRight : right.ty = some rightType) (hOperator : operator.HasType leftType rightType ty) :
    Consistent (.binary operator left right (some ty))
  | access {name symbol} (hName : symbol.name = name) :
    Consistent (.access name (some symbol) (some symbol.ty))
  | element {name index symbol} (hName : symbol.name = name) (hIndex : index.ty = some .integer) :
    Consistent (.element name index (some symbol) (some symbol.ty))
  | call {name arguments signature} {tys : List Ty} (hName : signature.name = name)
      (hArity : signature.arity = arguments.length) (hArguments : arguments.map Expr.ty = tys.map some)
      (hAccepted : List.Forall₂ (fun target source => target.accepts source = true)
        signature.parameterTypes tys) :
    Consistent (.call name arguments (some signature) (some signature.returnType))
  | list {items ty} {tys : List Ty} (hItems : items.map Expr.ty = tys.map some)
      (hAccepted : ∀ itemType ∈ tys, ty.accepts itemType = true) :
    Consistent (.list items (some ty))

/-- The type of an expression is filled in, and it may stand where `target` is expected. -/
def Expr.Suits (e : Expr) (target : Ty) : Prop :=
  ∃ ty, e.ty = some ty ∧ target.accepts ty = true

/-- The slots of a statement in a function of the given return type. -/
inductive Stmt.Consistent (returnType : Ty) : Stmt → Prop
  | expression {e} : Consistent returnType (.expression e)
  | declaration {name typeName value ty} (hValue : ∀ e, value = some e → e.Suits ty) :
    Consistent returnType (.declaration name typeName value (some ⟨name, ty, true⟩))
  | assignment {receiver value symbol} (hSymbol : receiver.receiverSymbol? = some symbol)
      (hMutable : symbol.isMutable = true) (hValue : value.Suits symbol.ty) :
    Consistent returnType (.assignment receiver value)
  | conditional {condition consequent alternative} (hCondition : condition.ty = some .boolean) :
    Consistent returnType (.conditional condition consequent alternative)
  | switch {subject cases ty} (hSubject : subject.ty = some ty)
      (hValues : ∀ value ∈ cases.filterMap Case.value, value.Suits ty) :
    Consistent returnType (.switch subject cases)
  | loop {condition body} (hCondition : condition.ty = some .boolean) :
    Consistent returnType (.loop condition body)
  | returns {value} (hValue : value.Suits returnType) : Consistent returnType (.returns value)

/-- All slots of a program are filled, and at each node they agree. -/
structure Source.Annotated (source : Source) : Prop where
  expressions : ∀ e, source.HasExpr e → e.Consistent
  globals : ∀ global ∈ source.globals, ∃ ty,
    global.symbol = some ⟨global.name, ty, global.isMutable⟩ ∧
    ∀ e, global.value = some e → e.Suits ty
  functions : ∀ function ∈ source.functions, ∃ signature, function.signature = some signature ∧
    signature.name = function.name ∧ signature.arity = function.parameterTypes.length ∧
    ∀ s, function.HasStmt s → s.Consistent signature.returnType

/-- Symbols stand under their own names. -/
structure Context.Named (Γ : Context) : Prop where
  symbol : ∀ name symbol, Γ.symbol? name = some symbol → symbol.name = name
  signature : ∀ name arity signature, Γ.signature? name arity = some signature →
    signature.name = name ∧ signature.arity = arity

namespace Context.Named

variable {Γ : Context}

theorem bind (h : Γ.Named) (symbol : Variable) : (Γ.bind symbol).Named where
  symbol name found hFound := by
    simp only [Context.bind] at hFound
    split at hFound
    · rename_i hName
      cases hFound
      exact hName
    · exact h.symbol name found hFound
  signature := h.signature

theorem declare (h : Γ.Named) (signature : Signature) : (Γ.declare signature).Named where
  symbol := h.symbol
  signature name arity found hFound := by
    simp only [Context.declare] at hFound
    split at hFound
    · rename_i hKey
      cases hFound
      exact hKey
    · exact h.signature name arity found hFound

theorem enter (h : Γ.Named) (parameters : List (String × Ty)) (returnType : Ty) :
    (Γ.enter parameters returnType).Named := by
  have hBody : ({ Γ with returnType } : Context).Named := ⟨h.symbol, h.signature⟩
  unfold Context.enter
  generalize ({ Γ with returnType } : Context) = Δ at hBody
  induction parameters generalizing Δ with
  | nil => exact hBody
  | cons parameter parameters ih => exact ih _ (hBody.bind _)

theorem initial : Context.initial.Named :=
  declare (Γ := ⟨fun _ => none, fun _ _ => none, .nil⟩) ⟨nofun, nofun⟩ Checker.print

end Context.Named

namespace Expr

variable {Γ : Context} {e part : Expr} {ty : Ty}

/-- An expression that obeys the rules, possibly as an initial value. -/
def Typed (Γ : Context) (e : Expr) : Prop :=
  (∃ ty, e.HasType Γ ty) ∨ ∃ declared, e.Initializes Γ declared

theorem HasType.child (h : e.HasType Γ ty) (hMem : part ∈ e.children) : part.Typed Γ := by
  cases h with
  | literal | access => cases hMem
  | group hBinary hInner =>
    obtain rfl := List.mem_singleton.mp hMem
    exact .inl ⟨_, hInner⟩
  | binary hLeft hRight hOperator =>
    rcases List.mem_pair.mp hMem with rfl | rfl
    · exact .inl ⟨_, hLeft⟩
    · exact .inl ⟨_, hRight⟩
  | element hIndex hSymbol =>
    obtain rfl := List.mem_singleton.mp hMem
    exact .inl ⟨_, hIndex⟩
  | call hSignature hArguments hAccepted =>
    obtain ⟨ty, -, hType⟩ := exists_hasType_of_mem hArguments hMem
    exact .inl ⟨ty, hType⟩
  | list hItems =>
    obtain ⟨ty, -, hType⟩ := exists_hasType_of_mem hItems hMem
    exact .inl ⟨ty, hType⟩

theorem Typed.child (h : e.Typed Γ) (hMem : part ∈ e.children) : part.Typed Γ := by
  rcases h with ⟨ty, hType⟩ | ⟨declared, hInitializes⟩
  · exact hType.child hMem
  · cases hInitializes with
    | value hPlain hType hAccepted => exact hType.child hMem
    | items hItems hAccepted =>
      obtain ⟨ty, -, hType⟩ := exists_hasType_of_mem hItems hMem
      exact .inl ⟨ty, hType⟩

theorem map_ty_of_typed {es : List Expr} {tys : List Ty} (h : List.Forall₂ (HasType Γ) es tys) :
    es.map Expr.ty = tys.map some := by
  induction h with
  | nil => rfl
  | cons hHead _ ih => rw [List.map_cons, List.map_cons, hHead.ty_eq, ih]

theorem HasType.consistent (hΓ : Γ.Named) (h : e.HasType Γ ty) : e.Consistent := by
  cases h with
  | literal hValue => exact .literal hValue
  | group hBinary hInner => exact .group hInner.ty_eq
  | binary hLeft hRight hOperator => exact .binary hLeft.ty_eq hRight.ty_eq hOperator
  | access hSymbol => exact .access (hΓ.symbol _ _ hSymbol)
  | element hIndex hSymbol => exact .element (hΓ.symbol _ _ hSymbol) hIndex.ty_eq
  | call hSignature hArguments hAccepted =>
    obtain ⟨hName, hArity⟩ := hΓ.signature _ _ _ hSignature
    exact .call hName hArity (map_ty_of_typed hArguments) hAccepted
  | list hItems => exact .list (map_ty_of_typed hItems) fun _ _ => rfl

theorem Typed.consistent (hΓ : Γ.Named) (h : e.Typed Γ) : e.Consistent := by
  rcases h with ⟨ty, hType⟩ | ⟨declared, hInitializes⟩
  · exact hType.consistent hΓ
  · cases hInitializes with
    | value hPlain hType hAccepted => exact hType.consistent hΓ
    | items hItems hAccepted => exact .list (map_ty_of_typed hItems) hAccepted

theorem HasType.suits (h : e.HasType Γ ty) {target : Ty} (hAccepted : target.accepts ty = true) :
    e.Suits target :=
  ⟨ty, h.ty_eq, hAccepted⟩

theorem Initializes.suits {declared : Ty} (h : e.Initializes Γ declared) : e.Suits declared := by
  cases h with
  | items => exact ⟨declared, rfl, declared.accepts_refl⟩
  | value hPlain hType hAccepted => exact hType.suits hAccepted

end Expr

namespace HasBindingType

variable {types : TypeRegistry} {Γ : Context} {typeName : Option String} {e : Expr} {ty : Ty}

theorem typed (h : HasBindingType types Γ typeName (some e) ty) : e.Typed Γ := by
  cases h with
  | inferred hValue => exact .inl ⟨ty, hValue⟩
  | initialized hType hValue => exact .inr ⟨ty, hValue⟩

theorem suits (h : HasBindingType types Γ typeName (some e) ty) : e.Suits ty := by
  cases h with
  | inferred hValue => exact hValue.suits ty.accepts_refl
  | initialized hType hValue => exact hValue.suits

end HasBindingType

section Statements

variable {types : TypeRegistry} {Γ Γ' : Context} {returnType : Ty}

/-- A statement as it stands in a function of the given return type, in some context. -/
def Stmt.Placed (types : TypeRegistry) (returnType : Ty) (s : Stmt) : Prop :=
  ∃ Γ Γ', Stmt.WellTyped types Γ s Γ' ∧ Γ.Named ∧ Γ.returnType = returnType

theorem Stmt.WellTyped.named {s : Stmt} (h : Stmt.WellTyped types Γ s Γ') (hΓ : Γ.Named) :
    Γ'.Named := by
  cases h with
  | declaration => exact hΓ.bind _
  | expression | assignment | conditional | switch | loop | returns => exact hΓ

theorem Block.WellTyped.placed {statements : List Stmt} (h : Block.WellTyped types Γ statements)
    (hΓ : Γ.Named) {s : Stmt} (hMem : s ∈ statements) : s.Placed types Γ.returnType := by
  induction statements generalizing Γ with
  | nil => cases hMem
  | cons first rest ih =>
    cases h with
    | cons hFirst hRest =>
      rcases List.mem_cons.mp hMem with rfl | hMem
      · exact ⟨Γ, _, hFirst, hΓ, rfl⟩
      · rw [← hFirst.returnType_eq]
        exact ih hRest (hFirst.named hΓ) hMem

theorem Cases.WellTyped.body_of_mem {subject : Ty} {cases : List Case}
    (h : Cases.WellTyped types Γ subject cases) {case : Case} (hMem : case ∈ cases) :
    Block.WellTyped types Γ case.body := by
  induction cases with
  | nil => cases hMem
  | cons first rest ih =>
    cases h with
    | default hBody hRest | value _ _ hBody hRest =>
      rcases List.mem_cons.mp hMem with rfl | hMem
      · exact hBody
      · exact ih hRest hMem

theorem Cases.WellTyped.value_of_mem {subject : Ty} {cases : List Case}
    (h : Cases.WellTyped types Γ subject cases) {e : Expr}
    (hMem : e ∈ cases.filterMap Case.value) :
    ∃ ty, e.HasType Γ ty ∧ subject.accepts ty = true := by
  induction cases with
  | nil => cases hMem
  | cons first rest ih =>
    cases h with
    | default hBody hRest => exact ih hRest hMem
    | value hValue hAccepted hBody hRest =>
      rcases List.mem_cons.mp hMem with rfl | hMem
      · exact ⟨_, hValue, hAccepted⟩
      · exact ih hRest hMem

namespace Stmt.WellTyped

variable {s : Stmt}

theorem child (h : Stmt.WellTyped types Γ s Γ') (hΓ : Γ.Named) {inner : Stmt}
    (hMem : inner ∈ s.children) : inner.Placed types Γ.returnType := by
  cases h with
  | expression | declaration | assignment | returns => cases hMem
  | conditional hCondition hNonempty hConsequent hAlternative =>
    rcases List.mem_append.mp hMem with hMem | hMem
    · exact hConsequent.placed hΓ hMem
    · exact hAlternative.placed hΓ hMem
  | switch hSubject hDefault hCases =>
    obtain ⟨case, hCase, hMem⟩ := List.mem_flatMap.mp hMem
    exact (hCases.body_of_mem hCase).placed hΓ hMem
  | loop hCondition hBody => exact hBody.placed hΓ hMem

theorem expression_typed (h : Stmt.WellTyped types Γ s Γ') {e : Expr} (hMem : e ∈ s.expressions) :
    e.Typed Γ := by
  cases h with
  | expression hCall hExpr =>
    obtain rfl := List.mem_singleton.mp hMem
    exact .inl ⟨_, hExpr⟩
  | declaration hBinding =>
    obtain rfl := Option.mem_toList.mp hMem
    exact hBinding.typed
  | assignment hReceiver hType hValue hMutable hAccepted =>
    rcases List.mem_pair.mp hMem with rfl | rfl
    · exact .inl ⟨_, hType⟩
    · exact .inl ⟨_, hValue⟩
  | conditional hCondition | loop hCondition =>
    obtain rfl := List.mem_singleton.mp hMem
    exact .inl ⟨_, hCondition⟩
  | switch hSubject hDefault hCases =>
    rcases List.mem_cons.mp hMem with rfl | hMem
    · exact .inl ⟨_, hSubject⟩
    · obtain ⟨ty, hType, -⟩ := hCases.value_of_mem hMem
      exact .inl ⟨ty, hType⟩
  | returns hValue hAccepted =>
    obtain rfl := List.mem_singleton.mp hMem
    exact .inl ⟨_, hValue⟩

theorem consistent (h : Stmt.WellTyped types Γ s Γ') : s.Consistent Γ.returnType := by
  cases h with
  | expression => exact .expression
  | declaration hBinding =>
    refine .declaration ?_
    rintro e rfl
    exact hBinding.suits
  | assignment hReceiver hType hValue hMutable hAccepted =>
    cases hType with
    | access hSymbol => exact .assignment rfl (hMutable _ rfl) (hValue.suits hAccepted)
    | element hIndex hSymbol => exact .assignment rfl (hMutable _ rfl) (hValue.suits hAccepted)
    | literal | group | binary | call | list => cases hReceiver
  | conditional hCondition => exact .conditional hCondition.ty_eq
  | switch hSubject hDefault hCases =>
    refine .switch hSubject.ty_eq ?_
    intro value hMem
    obtain ⟨ty, hType, hAccepted⟩ := hCases.value_of_mem hMem
    exact hType.suits hAccepted
  | loop hCondition => exact .loop hCondition.ty_eq
  | returns hValue hAccepted => exact .returns (hValue.suits hAccepted)

end Stmt.WellTyped

end Statements

section Programs

variable {types : TypeRegistry} {Γ Γ' : Context}

/-- A global in the context of those before it. -/
theorem Globals.WellTyped.of_mem {globals : List Global} (h : Globals.WellTyped types Γ globals Γ')
    (hΓ : Γ.Named) : Γ'.Named ∧ ∀ global ∈ globals, ∃ Δ ty, Δ.Named ∧
      HasBindingType types Δ global.typeName global.value ty ∧
      global.symbol = some ⟨global.name, ty, global.isMutable⟩ := by
  induction h with
  | nil => exact ⟨hΓ, fun _ hMem => nomatch hMem⟩
  | cons hBinding hSymbol hRest ih =>
    obtain ⟨hΓ', hOthers⟩ := ih (hΓ.bind _)
    refine ⟨hΓ', fun global hMem => ?_⟩
    rcases List.mem_cons.mp hMem with rfl | hMem
    · exact ⟨_, _, hΓ, hBinding, hSymbol⟩
    · exact hOthers global hMem

/-- A function in the context of those before it. -/
theorem Functions.WellTyped.of_mem {functions : List Function}
    (h : Functions.WellTyped types Γ functions) (hΓ : Γ.Named) {function : Function}
    (hMem : function ∈ functions) :
    ∃ Δ signature, Δ.Named ∧ function.WellTyped types Δ signature := by
  induction h with
  | nil => cases hMem
  | cons hFunction hRest ih =>
    rcases List.mem_cons.mp hMem with rfl | hMem
    · exact ⟨_, _, hΓ, hFunction⟩
    · exact ih (hΓ.declare _) hMem

theorem Function.WellTyped.placed {function : Function} {signature : Signature}
    (h : function.WellTyped types Γ signature) (hΓ : Γ.Named) {s : Stmt} (hStmt : function.HasStmt s) :
    s.Placed types signature.returnType := by
  induction hStmt with
  | body hMem =>
    have hPlaced := h.body.placed ((hΓ.declare _).enter _ _) hMem
    rwa [Context.enter_returnType] at hPlaced
  | inside _ hMem ih =>
    obtain ⟨Δ, Δ', hTyped, hΔ, hReturn⟩ := ih
    rw [← hReturn]
    exact hTyped.child hΔ hMem

namespace Source.WellTyped

variable {source : Source}

theorem function_of_mem (h : source.WellTyped types) {function : Function}
    (hMem : function ∈ source.functions) :
    ∃ Γ signature, Γ.Named ∧ function.WellTyped types Γ signature := by
  obtain ⟨Γ, hGlobals, hFunctions⟩ := h.items
  exact hFunctions.of_mem (hGlobals.of_mem .initial).1 hMem

theorem global_of_mem (h : source.WellTyped types) {global : Global}
    (hMem : global ∈ source.globals) : ∃ Γ ty, Γ.Named ∧
      HasBindingType types Γ global.typeName global.value ty ∧
      global.symbol = some ⟨global.name, ty, global.isMutable⟩ := by
  obtain ⟨Γ, hGlobals, -⟩ := h.items
  exact (hGlobals.of_mem .initial).2 global hMem

theorem typed (h : source.WellTyped types) {e : Expr} (hExpr : source.HasExpr e) :
    ∃ Γ, Γ.Named ∧ e.Typed Γ := by
  induction hExpr with
  | global hMem hValue =>
    obtain ⟨Γ, ty, hΓ, hBinding, -⟩ := h.global_of_mem hMem
    rw [hValue] at hBinding
    exact ⟨Γ, hΓ, hBinding.typed⟩
  | statement hMem hStatement hExpr =>
    obtain ⟨Γ, signature, hΓ, hFunction⟩ := h.function_of_mem hMem
    obtain ⟨Δ, Δ', hTyped, hΔ, -⟩ := hFunction.placed hΓ hStatement
    exact ⟨Δ, hΔ, hTyped.expression_typed hExpr⟩
  | inside _ hMem ih =>
    obtain ⟨Γ, hΓ, hTyped⟩ := ih
    exact ⟨Γ, hΓ, hTyped.child hMem⟩

theorem annotated (h : source.WellTyped types) : source.Annotated where
  expressions e hExpr := by
    obtain ⟨Γ, hΓ, hTyped⟩ := h.typed hExpr
    exact hTyped.consistent hΓ
  globals global hMem := by
    obtain ⟨Γ, ty, -, hBinding, hSymbol⟩ := h.global_of_mem hMem
    refine ⟨ty, hSymbol, fun e hValue => ?_⟩
    rw [hValue] at hBinding
    exact hBinding.suits
  functions function hMem := by
    obtain ⟨Γ, signature, hΓ, hFunction⟩ := h.function_of_mem hMem
    refine ⟨signature, hFunction.slot, hFunction.name_eq, ?_, fun s hStatement => ?_⟩
    · exact hFunction.parameterTypes.length_eq.symm
    · obtain ⟨Δ, Δ', hTyped, -, hReturn⟩ := hFunction.placed hΓ hStatement
      rw [← hReturn]
      exact hTyped.consistent

end Source.WellTyped

end Programs

/-- What the checker returns is the program that it was given with all slots filled, and at each node
the slots agree. -/
theorem Checker.check_annotates {types : TypeRegistry} {source checked : Source}
    (h : ((ofTypes types).check source).1 = .ok checked) :
    checked.erase = source.erase ∧ checked.Annotated := by
  obtain ⟨scopes', hYields⟩ := check_eq_ok_iff_yields.mp h
  exact ⟨Source.erase_of_check hYields, (Source.wellTyped_of_check hYields).annotated⟩

namespace Stale

/-- A program over a nominal type, with slots that other checks might have left behind. -/
def source : Source :=
  ⟨[⟨"xs", some "Integer", true, some (.list [.literal (.integer 1) (some .string)] none),
      some ⟨"ys", .nil, false⟩⟩],
    [⟨"first", ["p", "i"], ["Point", "Integer"], some "Integer",
        [.declaration "q" (some "Point") (some (.access "p" none none)) none,
          .assignment (.element "xs" (.access "i" (some ⟨"i", .string, true⟩) none) none none)
            (.binary .add (.access "i" none (some .nil)) (.literal (.integer 1) none) none),
          .returns (.call "first" [.access "q" none none, .literal (.integer 0) none]
            (some ⟨"second", [], .nil⟩) none)],
        none⟩,
      ⟨"main", [], [], some "Integer", [.returns (.literal (.integer 0) (some .boolean))],
        some ⟨"main", [.any], .nil⟩⟩]⟩

end Stale

theorem Checker.check_annotates_stale : ∃ checked,
    ((ofTypes (.ofNames ["Point"])).check Stale.source).1 = .ok checked ∧
    checked.erase = Stale.source.erase ∧ checked.Annotated := by
  have hOk : ((ofTypes (.ofNames ["Point"])).check Stale.source).1.toOption.any (fun _ => true) =
      true := by decide +kernel
  obtain ⟨checked, hCheck, -⟩ := exists_of_any_ok hOk
  exact ⟨checked, hCheck, check_annotates hCheck⟩

end ProcLang
