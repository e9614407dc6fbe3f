import Mathlib.Data.List.Forall2
import ProcLang.Proofs.Typing.Context

/-! # The typing rules

The rules that annotated trees obey, by contexts instead of frames. A tree whose slots are filled
shows its own derivation: each rule reads the slots of one node and asks for the derivations of the
parts. A context is only extended for what follows in the same block.
-/

namespace ProcLang

set_option autoImplicit false

/-- Integer literals have 32 bits, and decimal literals lie in the range of doubles. -/
inductive Literal.HasType : Literal → Ty → Prop
  | nil : HasType .nil .nil
  | boolean {b} : HasType (.boolean b) .boolean
  | integer {n} (hRange : -2147483648 ≤ n ∧ n < 2147483648) : HasType (.integer n) .integer
  | decimal {d} (hRange : d.fitsDouble = true) : HasType (.decimal d) .decimal
  | character {c} : HasType (.character c) .character
  | string {s} : HasType (.string s) .string

/-- The operand types of an operator, and the type of its result. -/
inductive Operator.HasType : Operator → Ty → Ty → Ty → Prop
  | logical {operator} (hLogical : operator.isLogical = true) :
    HasType operator .boolean .boolean .boolean
  | comparison {operator ty} (hComparison : operator.isComparison = true)
      (hOrdered : Ty.comparable.accepts ty = true) :
    HasType operator ty ty .boolean
  | join {left right} (hString : left = .string ∨ right = .string) :
    HasType .add left right .string
  | arithmetic {operator ty} (hOperator : operator ∈ [.add, .subtract, .multiply, .divide])
      (hNumeric : ty.isNumeric = true) :
    HasType operator ty ty ty
  | power {ty} (hNumeric : ty.isNumeric = true) :
    HasType .power ty .integer ty

/-- The type of an expression in a context. -/
inductive Expr.HasType (Γ : Context) : Expr → Ty → Prop
  | literal {value ty} (hValue : value.HasType ty) :
    HasType Γ (.literal value (some ty)) ty
  | group {inner ty} (hBinary : inner.isBinary = true) (hInner : HasType Γ inner ty) :
    HasType Γ (.group inner (some ty)) ty
  | binary {operator left right leftType rightType ty} (hLeft : HasType Γ left leftType)
      (hRight : HasType Γ right rightType) (hOperator : operator.HasType leftType rightType ty) :
    HasType Γ (.binary operator left right (some ty)) ty
  | access {name symbol} (hSymbol : Γ.symbol? name = some symbol) :
    HasType Γ (.access name (some symbol) (some symbol.ty)) symbol.ty
  | element {name index symbol} (hIndex : HasType Γ index .integer)
      (hSymbol : Γ.symbol? name = some symbol) :
    HasType Γ (.element name index (some symbol) (some symbol.ty)) symbol.ty
  | call {name arguments signature tys}
      (hSignature : Γ.signature? name arguments.length = some signature)
      (hArguments : List.Forall₂ (HasType Γ) arguments tys)
      (hAccepted : List.Forall₂ (fun target source => target.accepts source = true)
        signature.parameterTypes tys) :
    HasType Γ (.call name arguments (some signature) (some signature.returnType))
      signature.returnType
  | list {items tys} (hItems : List.Forall₂ (HasType Γ) items tys) :
    HasType Γ (.list items (some .any)) .any

/-- An initial value of a declared type: the items of a list each have that type. -/
inductive Expr.Initializes (Γ : Context) (declared : Ty) : Expr → Prop
  | items {items tys} (hItems : List.Forall₂ (Expr.HasType Γ) items tys)
      (hAccepted : ∀ ty ∈ tys, declared.accepts ty = true) :
    Initializes Γ declared (.list items (some declared))
  | value {value ty} (hPlain : value.isList = false) (hValue : value.HasType Γ ty)
      (hAccepted : declared.accepts ty = true) :
    Initializes Γ declared value

/-- The type of a variable with a declared type, an initial value or both. -/
inductive HasBindingType (types : TypeRegistry) (Γ : Context) :
    Option String → Option Expr → Ty → Prop
  | declared {typeName ty} (hType : types.lookup typeName = some ty) :
    HasBindingType types Γ (some typeName) none ty
  | inferred {value ty} (hValue : value.HasType Γ ty) :
    HasBindingType types Γ none (some value) ty
  | initialized {typeName value ty} (hType : types.lookup typeName = some ty)
      (hValue : value.Initializes Γ ty) :
    HasBindingType types Γ (some typeName) (some value) ty

mutual

/-- A statement in a context, and the context of the statements after it. -/
inductive Stmt.WellTyped (types : TypeRegistry) : Context → Stmt → Context → Prop
  | expression {Γ e ty} (hCall : e.isCall = true) (hExpr : e.HasType Γ ty) :
    Stmt.WellTyped types Γ (.expression e) Γ
  | declaration {Γ name typeName value ty} (hBinding : HasBindingType types Γ typeName value ty) :
    Stmt.WellTyped types Γ (.declaration name typeName value (some ⟨name, ty, true⟩))
      (Γ.bind ⟨name, ty, true⟩)
  | assignment {Γ receiver value receiverType valueType} (hReceiver : receiver.isReceiver = true)
      (hType : receiver.HasType Γ receiverType) (hValue : value.HasType Γ valueType)
      (hMutable : ∀ symbol, receiver.receiverSymbol? = some symbol → symbol.isMutable = true)
      (hAccepted : receiverType.accepts valueType = true) :
    Stmt.WellTyped types Γ (.assignment receiver value) Γ
  | conditional {Γ condition consequent alternative} (hCondition : condition.HasType Γ .boolean)
      (hNonempty : consequent ≠ []) (hConsequent : Block.WellTyped types Γ consequent)
      (hAlternative : Block.WellTyped types Γ alternative) :
    Stmt.WellTyped types Γ (.conditional condition consequent alternative) Γ
  | switch {Γ subject cases ty} (hSubject : subject.HasType Γ ty)
      (hDefault : cases.countP Case.isDefault = 1) (hCases : Cases.WellTyped types Γ ty cases) :
    Stmt.WellTyped types Γ (.switch subject cases) Γ
  | loop {Γ condition body} (hCondition : condition.HasType Γ .boolean)
      (hBody : Block.WellTyped types Γ body) :
    Stmt.WellTyped types Γ (.loop condition body) Γ
  | returns {Γ value ty} (hValue : value.HasType Γ ty)
      (hAccepted : Γ.returnType.accepts ty = true) :
    Stmt.WellTyped types Γ (.returns value) Γ

inductive Block.WellTyped (types : TypeRegistry) : Context → List Stmt → Prop
  | nil {Γ} : Block.WellTyped types Γ []
  | cons {Γ Γ' statement rest} (hStatement : Stmt.WellTyped types Γ statement Γ')
      (hRest : Block.WellTyped types Γ' rest) :
    Block.WellTyped types Γ (statement :: rest)

/-- The cases of a `SWITCH` whose subject has the given type. -/
inductive Cases.WellTyped (types : TypeRegistry) : Context → Ty → List Case → Prop
  | nil {Γ subject} : Cases.WellTyped types Γ subject []
  | default {Γ subject body rest} (hBody : Block.WellTyped types Γ body)
      (hRest : Cases.WellTyped types Γ subject rest) :
    Cases.WellTyped types Γ subject (⟨none, body⟩ :: rest)
  | value {Γ subject value ty body rest} (hValue : value.HasType Γ ty)
      (hAccepted : subject.accepts ty = true) (hBody : Block.WellTyped types Γ body)
      (hRest : Cases.WellTyped types Γ subject rest) :
    Cases.WellTyped types Γ subject (⟨some value, body⟩ :: rest)

end

/-- The globals of a program, and the context of its functions. -/
inductive Globals.WellTyped (types : TypeRegistry) : Context → List Global → Context → Prop
  | nil {Γ} : Globals.WellTyped types Γ [] Γ
  | cons {Γ Γ' global rest ty}
      (hBinding : HasBindingType types Γ global.typeName global.value ty)
      (hSymbol : global.symbol = some ⟨global.name, ty, global.isMutable⟩)
      (hRest : Globals.WellTyped types (Γ.bind ⟨global.name, ty, global.isMutable⟩) rest Γ') :
    Globals.WellTyped types Γ (global :: rest) Γ'

/-- What a function returns: `nil` where no type is written. -/
inductive HasReturnType (types : TypeRegistry) : Option String → Ty → Prop
  | missing : HasReturnType types none .nil
  | named {name ty} (hType : types.lookup name = some ty) : HasReturnType types (some name) ty

theorem HasReturnType.unique {types : TypeRegistry} {name : Option String} {ty ty' : Ty}
    (h : HasReturnType types name ty) (h' : HasReturnType types name ty') : ty = ty' := by
  cases h with
  | missing =>
    cases h'
    rfl
  | named hType =>
    cases h' with
    | named hType' => exact Option.some.inj (hType.symm.trans hType')

/-- A function with its signature. The body can mention the function itself. -/
structure Function.WellTyped (types : TypeRegistry) (Γ : Context) (function : Function)
    (signature : Signature) : Prop where
  slot : function.signature = some signature
  name_eq : signature.name = function.name
  parameterTypes : List.Forall₂ (fun name ty => types.lookup name = some ty)
    function.parameterTypes signature.parameterTypes
  returnType : HasReturnType types function.returnType signature.returnType
  body : Block.WellTyped types
    ((Γ.declare signature).enter (function.parameters.zip signature.parameterTypes)
      signature.returnType)
    function.body

/-- Functions in order: each can mention those before it. -/
inductive Functions.WellTyped (types : TypeRegistry) : Context → List Function → Prop
  | nil {Γ} : Functions.WellTyped types Γ []
  | cons {Γ function signature rest} (hFunction : function.WellTyped types Γ signature)
      (hRest : Functions.WellTyped types (Γ.declare signature) rest) :
    Functions.WellTyped types Γ (function :: rest)

/-- The first function that is named `main` and has no parameters returns an integer. -/
inductive Functions.HasMain (types : TypeRegistry) : List Function → Prop
  | here {function rest} (hName : function.name = "main") (hParameters : function.parameters = [])
      (hReturn : HasReturnType types function.returnType .integer) :
    Functions.HasMain types (function :: rest)
  | later {function rest} (hOther : function.name = "main" → function.parameters ≠ [])
      (hRest : Functions.HasMain types rest) :
    Functions.HasMain types (function :: rest)

/-- A program whose slots are filled. -/
structure Source.WellTyped (types : TypeRegistry) (source : Source) : Prop where
  main : Functions.HasMain types source.functions
  items : ∃ Γ, Globals.WellTyped types .initial source.globals Γ ∧
    Functions.WellTyped types Γ source.functions

/-- A program whose slots are filled, in a context in which other code can be mentioned already. -/
structure Source.WellTypedIn (types : TypeRegistry) (Γ : Context) (source : Source) : Prop where
  main : Functions.HasMain types source.functions
  items : ∃ Γ', Globals.WellTyped types Γ source.globals Γ' ∧
    Functions.WellTyped types Γ' source.functions

theorem Source.wellTypedIn_initial {types : TypeRegistry} {source : Source} :
    source.WellTypedIn types .initial ↔ source.WellTyped types :=
  ⟨fun h => ⟨h.main, h.items⟩, fun h => ⟨h.main, h.items⟩⟩

theorem Expr.HasType.ty_eq {Γ : Context} {e : Expr} {ty : Ty} (h : e.HasType Γ ty) :
    e.ty = some ty := by
  cases h <;> rfl

theorem Stmt.WellTyped.returnType_eq {types : TypeRegistry} {Γ Γ' : Context} {s : Stmt}
    (h : Stmt.WellTyped types Γ s Γ') : Γ'.returnType = Γ.returnType := by
  cases h <;> rfl

@[simp] theorem Context.enter_returnType (Γ : Context) (parameters : List (String × Ty))
    (returnType : Ty) : (Γ.enter parameters returnType).returnType = returnType := by
  have hFold (Γ : Context) : (parameters.foldl
      (fun Γ parameter => Γ.bind ⟨parameter.1, parameter.2, false⟩) Γ).returnType = Γ.returnType := by
    induction parameters generalizing Γ with
    | nil => rfl
    | cons parameter parameters ih => exact ih (Γ.bind ⟨parameter.1, parameter.2, false⟩)
  exact hFold { Γ with returnType }

end ProcLang
