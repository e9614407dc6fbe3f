import ProcLang.Proofs.Traversal
import ProcLang.Proofs.Typing.Checked
import ProcLang.Proofs.Typing.KnownTypes

/-! # Errors have grounds

The checker objects only to what is there: to a type that has no such name, to two known types that
do not fit, to a number of default cases that a `SWITCH` of the program has.
-/

namespace ProcLang

set_option autoImplicit false

section Except

variable {ε α β : Type} {post : ε → Prop}

/-- Whatever a computation fails with meets the condition. -/
def FailsAs (post : ε → Prop) (computation : Except ε α) : Prop :=
  ∀ error, computation = .error error → post error

theorem failsAs_ok (a : α) : FailsAs post (.ok a) :=
  nofun

theorem failsAs_error {error : ε} (h : post error) : FailsAs post (.error error : Except ε α) := by
  rintro other ⟨⟩
  exact h

theorem failsAs_bind {first : Except ε α} {next : α → Except ε β} (hFirst : FailsAs post first)
    (hNext : ∀ a, first = .ok a → FailsAs post (next a)) : FailsAs post (first >>= next) := by
  cases first with
  | error error => exact failsAs_error (hFirst error rfl)
  | ok a => exact hNext a rfl

theorem failsAs_ite {p : Prop} [Decidable p] {here there : Except ε α}
    (hHere : p → FailsAs post here) (hThere : ¬p → FailsAs post there) :
    FailsAs post (if p then here else there) := by
  split
  · rename_i hp
    exact hHere hp
  · rename_i hp
    exact hThere hp

theorem failsAs_unless {p : Prop} [Decidable p] {error : ε} {next : Unit → Except ε β}
    (hError : ¬p → post error) (hNext : FailsAs post (next ())) :
    FailsAs post (if p then next () else (throw error : Except ε Unit) >>= next) :=
  failsAs_ite (fun _ => hNext) fun hp => failsAs_error (hError hp)

theorem failsAs_mapError {ε' : Type} {post : ε' → Prop} {f : ε → ε'} {computation : Except ε α}
    (h : FailsAs (fun error => post (f error)) computation) :
    FailsAs post (computation.mapError f) := by
  cases computation with
  | error error => exact failsAs_error (h error rfl)
  | ok a => exact failsAs_ok a

theorem failsAs_mapM {f : α → Except ε β} (h : ∀ a, FailsAs post (f a)) (as : List α) :
    FailsAs post (as.mapM f) := by
  induction as with
  | nil => exact failsAs_ok []
  | cons a as ih =>
    rw [List.mapM_cons]
    exact failsAs_bind (h a) fun _ _ => failsAs_bind ih fun _ _ => failsAs_ok _

end Except

structure Scopes.Sound (types : TypeRegistry) (scopes : Scopes) : Prop where
  valid : scopes.Valid
  known : scopes.context.Known types

namespace Scopes.Sound

variable {types : TypeRegistry} {scopes : Scopes}

theorem initial (hTypes : types.Coherent) :
    (({} : Scopes).defineFunction Checker.print).Sound types where
  valid := Valid.empty.defineFunction Checker.print
  known := context_defineFunction_print ▸ Context.Known.initial hTypes

theorem push (h : scopes.Sound types) : scopes.push.Sound types where
  valid := h.valid.push
  known := h.valid.context_push ▸ h.known

theorem defineVariable (h : scopes.Sound types) {symbol : Variable}
    (hSymbol : types.Knows symbol.ty) : (scopes.defineVariable symbol).Sound types where
  valid := h.valid.defineVariable symbol
  known := h.valid.context_defineVariable symbol ▸ h.known.bind hSymbol

theorem defineFunction (h : scopes.Sound types) {signature : Signature}
    (hSignature : signature.Known types) : (scopes.defineFunction signature).Sound types where
  valid := h.valid.defineFunction signature
  known := h.valid.context_defineFunction signature ▸ h.known.declare hSignature

theorem body (h : scopes.Sound types) (function : Function) {signature : Signature}
    (hSignature : signature.Known types) : (function.bodyScopes signature scopes).Sound types := by
  obtain ⟨hValid, hContext⟩ := function.bodyScopes_valid h.valid signature
  exact ⟨hValid, hContext ▸ h.known.body hSignature function.parameters⟩

theorem knows_of_check (h : scopes.Sound types) {e e' : Expr} {ty : Ty}
    (hCheck : e.check scopes = .ok (ty, e')) : types.Knows ty :=
  (Expr.hasType_of_check h.valid e hCheck).known h.known

end Scopes.Sound

/-- From sound scopes, whatever a computation fails with meets the condition, and the scopes that it
leaves are sound, also when it fails. -/
def Check.FailsAs {α : Type} (types : TypeRegistry) (post : SemanticError → Prop)
    (computation : Check α) : Prop :=
  ∀ scopes : Scopes, scopes.Sound types →
    ProcLang.FailsAs post (computation.run.run scopes).1 ∧
      (computation.run.run scopes).2.Sound types

namespace Check

variable {α β : Type} {types : TypeRegistry} {post : SemanticError → Prop}

theorem failsAs_pure (a : α) : FailsAs types post (pure a) :=
  fun _ hScopes => ⟨failsAs_ok a, hScopes⟩

theorem failsAs_bind {first : Check α} {next : α → Check β} (hFirst : FailsAs types post first)
    (hNext : ∀ a, FailsAs types post (next a)) : FailsAs types post (first >>= next) := by
  intro scopes hScopes
  obtain ⟨hStart, hSound⟩ := hFirst scopes hScopes
  simp only [ExceptT.run_bind, StateT.run_bind]
  rcases hRun : first.run.run scopes with ⟨error | a, scopes'⟩
  · rw [hRun] at hStart hSound
    exact ⟨failsAs_error (hStart error rfl), hSound⟩
  · rw [hRun] at hSound
    exact hNext a scopes' hSound

/-- Scopes that are looked up are sound. -/
theorem failsAs_get_bind {next : Scopes → Check β}
    (h : ∀ scopes : Scopes, scopes.Sound types → FailsAs types post (next scopes)) :
    FailsAs types post (get >>= next) :=
  fun scopes hScopes => h scopes hScopes scopes hScopes

theorem failsAs_modify {f : Scopes → Scopes}
    (h : ∀ {scopes : Scopes}, scopes.Sound types → (f scopes).Sound types) :
    FailsAs types post (modify f : Check Unit) :=
  fun _ hScopes => ⟨failsAs_ok (), h hScopes⟩

/-- What follows a computation that leaves the scopes alone may use what it succeeded with. -/
theorem failsAs_liftExcept_bind {first : Except SemanticError α} {next : α → Check β}
    (hFirst : ProcLang.FailsAs post first)
    (hNext : ∀ a, first = .ok a → FailsAs types post (next a)) :
    FailsAs types post (liftExcept first >>= next) := by
  intro scopes hScopes
  cases first with
  | error error => exact ⟨failsAs_error (hFirst error rfl), hScopes⟩
  | ok a => exact hNext a rfl scopes hScopes

theorem failsAs_mapM {f : α → Check β} {as : List α} (h : ∀ a ∈ as, FailsAs types post (f a)) :
    FailsAs types post (as.mapM f) := by
  induction as with
  | nil => exact failsAs_pure []
  | cons a as ih =>
    obtain ⟨hHead, hTail⟩ := List.forall_mem_cons.mp h
    rw [List.mapM_cons]
    exact failsAs_bind hHead fun _ => failsAs_bind (ih hTail) fun _ => failsAs_pure _

end Check

/-- An error says what is so. Those that mention no type and no number are left open; `p` says which
`SWITCH` may have a number of default cases that is wrong. -/
def SemanticError.Grounded (types : TypeRegistry) (p : Stmt → Bool) : SemanticError → Prop
  | unknownType name => types.lookup name = none
  | typeMismatch expected found =>
    types.Knows expected ∧ types.Knows found ∧ expected.accepts found = false
  | invalidOperands _ left right => types.Knows left ∧ types.Knows right
  | defaultCaseCount found => found ≠ 1 ∧ ∃ subject cases, p (.switch subject cases) = true ∧
    cases.countP Case.isDefault = found
  | integerOutOfRange n => ¬(-2147483648 ≤ n ∧ n < 2147483648)
  | decimalOutOfRange d => d.fitsDouble = false
  | missingMain | undefinedVariable _ | undefinedFunction _ _ | missingTypeAndValue _
  | invalidReceiver | immutableAssignment _ | expressionNotCall | emptyConsequent | invalidGroup =>
    True

open SemanticError (Grounded)

section Expressions

variable {types : TypeRegistry} {p : Stmt → Bool}

theorem grounded_requireAssignable {target source : Ty} (hTarget : types.Knows target)
    (hSource : types.Knows source) :
    FailsAs (Grounded types p) (requireAssignable target source) :=
  failsAs_ite (fun _ => failsAs_ok ()) fun hAccepts =>
    failsAs_error ⟨hTarget, hSource, Bool.eq_false_iff.mpr hAccepts⟩

theorem Literal.grounded_check (value : Literal) : FailsAs (Grounded types p) value.check := by
  cases value with
  | nil | boolean | character | string => exact failsAs_ok _
  | integer n => exact failsAs_ite (fun _ => failsAs_ok _) fun hRange => failsAs_error hRange
  | decimal d =>
    exact failsAs_ite (fun _ => failsAs_ok _) fun hRange =>
      failsAs_error (Bool.eq_false_iff.mpr hRange)

theorem Operator.grounded_check (hTypes : types.Coherent) (operator : Operator) {left right : Ty}
    (hLeft : types.Knows left) (hRight : types.Knows right) :
    FailsAs (Grounded types p) (operator.check left right) := by
  have hInvalid (ty : Ty) (q : Prop) [Decidable q] : FailsAs (Grounded types p)
      (if q then .ok ty else .error (.invalidOperands operator left right)) :=
    failsAs_ite (fun _ => failsAs_ok ty) fun _ => failsAs_error ⟨hLeft, hRight⟩
  cases operator with
  | and | or =>
    have hBoolean : types.Knows .boolean := hTypes.builtin .boolean (by decide)
    refine failsAs_bind (grounded_requireAssignable hBoolean hLeft) fun _ _ => ?_
    exact failsAs_bind (grounded_requireAssignable hBoolean hRight) fun _ _ => failsAs_ok _
  | less | greater | equal | notEqual =>
    have hComparable : types.Knows .comparable := hTypes.builtin .comparable (by decide)
    refine failsAs_bind (grounded_requireAssignable hComparable hLeft) fun _ _ => ?_
    refine failsAs_bind (grounded_requireAssignable hComparable hRight) fun _ _ => ?_
    refine failsAs_bind (grounded_requireAssignable hLeft hRight) fun _ _ => ?_
    exact failsAs_bind (grounded_requireAssignable hRight hLeft) fun _ _ => failsAs_ok _
  | add => exact failsAs_ite (fun _ => failsAs_ok Ty.string) fun _ => hInvalid left _
  | subtract | multiply | divide | power => exact hInvalid left _

theorem Scopes.grounded_requireVariable (scopes : Scopes) (name : String) :
    FailsAs (Grounded types p) (scopes.requireVariable name) := by
  unfold requireVariable
  split
  · exact failsAs_ok _
  · exact failsAs_error trivial

theorem Scopes.grounded_requireFunction (scopes : Scopes) (name : String) (arity : Nat) :
    FailsAs (Grounded types p) (scopes.requireFunction name arity) := by
  unfold requireFunction
  split
  · exact failsAs_ok _
  · exact failsAs_error trivial

theorem TypeRegistry.grounded_resolve (types : TypeRegistry) (name : String) :
    FailsAs (Grounded types p) (types.resolve name) := by
  unfold resolve
  split
  · exact failsAs_ok _
  · rename_i hUnknown
    exact failsAs_error hUnknown

namespace Expr

variable {scopes : Scopes}

mutual

theorem grounded_check (h : scopes.Sound types) (e : Expr) :
    FailsAs (Grounded types p) (e.check scopes) := by
  cases e with
  | literal value ty =>
    rw [check]
    exact failsAs_bind value.grounded_check fun _ _ => failsAs_ok _
  | group inner ty =>
    rw [check]
    refine failsAs_unless (fun _ => trivial) ?_
    exact failsAs_bind (grounded_check h inner) fun _ _ => failsAs_ok _
  | binary operator left right ty =>
    rw [check]
    refine failsAs_bind (grounded_check h left) fun _ hLeft => ?_
    refine failsAs_bind (grounded_check h right) fun _ hRight => ?_
    exact failsAs_bind
      (operator.grounded_check h.known.coherent (h.knows_of_check hLeft) (h.knows_of_check hRight))
      fun _ _ => failsAs_ok _
  | access name symbol ty =>
    rw [check]
    exact failsAs_bind (scopes.grounded_requireVariable name) fun _ _ => failsAs_ok _
  | element name index symbol ty =>
    rw [check]
    refine failsAs_bind (grounded_check h index) fun _ hIndex => ?_
    refine failsAs_bind (grounded_requireAssignable (h.known.coherent.builtin .integer (by decide))
      (h.knows_of_check hIndex)) fun _ _ => ?_
    exact failsAs_bind (scopes.grounded_requireVariable name) fun _ _ => failsAs_ok _
  | call name arguments signature ty =>
    rw [check]
    refine failsAs_bind (scopes.grounded_requireFunction name _) fun signature hSignature => ?_
    have hKnown := h.known.signature (Scopes.lookup_of_requireFunction hSignature)
    exact failsAs_bind (grounded_checkArguments h arguments hKnown.parameterTypes) fun _ _ =>
      failsAs_ok _
  | list items ty =>
    rw [check]
    exact failsAs_bind (grounded_checkItems h items) fun _ _ => failsAs_ok _

theorem grounded_checkArguments (h : scopes.Sound types) (arguments : List Expr)
    {parameterTypes : List Ty} (hTypes : ∀ ty ∈ parameterTypes, types.Knows ty) :
    FailsAs (Grounded types p) (checkArguments scopes arguments parameterTypes) := by
  cases arguments with
  | nil =>
    rw [checkArguments]
    · exact failsAs_ok _
    · nofun
  | cons argument arguments =>
    cases parameterTypes with
    | nil =>
      rw [checkArguments]
      · exact failsAs_ok _
      · nofun
    | cons parameterType parameterTypes =>
      obtain ⟨hHead, hTail⟩ := List.forall_mem_cons.mp hTypes
      rw [checkArguments]
      refine failsAs_bind (grounded_check h argument) fun _ hArgument => ?_
      refine failsAs_bind (grounded_requireAssignable hHead (h.knows_of_check hArgument))
        fun _ _ => ?_
      exact failsAs_bind (grounded_checkArguments h arguments hTail) fun _ _ => failsAs_ok _

theorem grounded_checkItems (h : scopes.Sound types) (items : List Expr) :
    FailsAs (Grounded types p) (checkItems scopes items) := by
  cases items with
  | nil =>
    rw [checkItems]
    exact failsAs_ok []
  | cons item items =>
    rw [checkItems]
    refine failsAs_bind (grounded_check h item) fun _ _ => ?_
    exact failsAs_bind (grounded_checkItems h items) fun _ _ => failsAs_ok _

end

/-- An expression whose type must fit. -/
theorem grounded_checkAgainst {α : Type} (h : scopes.Sound types) (e : Expr) {target : Ty}
    (hTarget : types.Knows target) (f : Expr → α) :
    FailsAs (Grounded types p) (e.check scopes >>= fun found =>
      requireAssignable target found.1 >>= fun _ => pure (f found.2)) :=
  failsAs_bind (e.grounded_check h) fun _ hFound =>
    failsAs_bind (grounded_requireAssignable hTarget (h.knows_of_check hFound)) fun _ _ =>
      failsAs_ok _

theorem grounded_checkInitializer (h : scopes.Sound types) {declared : Ty}
    (hDeclared : types.Knows declared) (value : Expr) :
    FailsAs (Grounded types p) (value.checkInitializer scopes declared) := by
  cases value with
  | list items ty =>
    refine failsAs_bind (failsAs_mapM (fun item => ?_) items) fun _ _ => failsAs_ok _
    exact item.grounded_checkAgainst h hDeclared id
  | literal | group | binary | access | element | call =>
    exact grounded_checkAgainst h _ hDeclared id

end Expr

end Expressions

section Statements

variable {types : TypeRegistry} {p : Stmt → Bool} {scopes : Scopes}

theorem grounded_checkBinding (h : scopes.Sound types) (name : String) (typeName : Option String)
    (value : Option Expr) :
    FailsAs (Grounded types p) (checkBinding types scopes name typeName value) := by
  cases typeName with
  | none =>
    refine failsAs_bind (failsAs_ok none) fun _ hNone => ?_
    cases hNone
    cases value with
    | none => exact failsAs_error trivial
    | some value => exact failsAs_bind (value.grounded_check h) fun _ _ => failsAs_ok _
  | some typeName =>
    have hDeclared : FailsAs (Grounded types p) ((some typeName).mapM types.resolve) :=
      failsAs_bind (types.grounded_resolve typeName) fun _ _ => failsAs_ok _
    refine failsAs_bind hDeclared fun declared hFound => ?_
    obtain ⟨ty, hType, hFound⟩ := except_bind_ok hFound
    cases hFound
    cases value with
    | none => exact failsAs_ok _
    | some value =>
      have hKnown := h.known.coherent.knows_of_lookup (TypeRegistry.resolve_eq_ok_iff.mp hType)
      exact failsAs_bind (value.grounded_checkInitializer h hKnown) fun _ _ => failsAs_ok _

theorem grounded_checkCondition (h : scopes.Sound types) (condition : Expr) :
    FailsAs (Grounded types p) (checkCondition scopes condition) :=
  condition.grounded_checkAgainst h (h.known.coherent.builtin .boolean (by decide)) id

theorem grounded_checkAssignment (h : scopes.Sound types) (receiver value : Expr) :
    FailsAs (Grounded types p) (checkAssignment scopes receiver value) := by
  refine failsAs_unless (fun _ => trivial) ?_
  refine failsAs_bind (value.grounded_check h) fun (valueType, value) hValue => ?_
  refine failsAs_bind (receiver.grounded_check h) fun (receiverType, receiver) hReceiver => ?_
  have hRest : FailsAs (Grounded types p) (do
      requireAssignable receiverType valueType
      return (receiver, value)) :=
    failsAs_bind
      (grounded_requireAssignable (h.knows_of_check hReceiver) (h.knows_of_check hValue))
      fun _ _ => failsAs_ok _
  dsimp only
  split
  · exact failsAs_unless (fun _ => trivial) hRest
  · exact hRest

theorem grounded_checkCaseValue (h : scopes.Sound types) {subjectType : Ty}
    (hSubject : types.Knows subjectType) (value? : Option Expr) :
    FailsAs (Grounded types p) (checkCaseValue scopes subjectType value?) := by
  cases value? with
  | none => exact failsAs_ok none
  | some value => exact value.grounded_checkAgainst h hSubject some

theorem sound_of_check (h : scopes.Sound types) {s s' : Stmt} {scopes' : Scopes}
    (hCheck : s.check types scopes = .ok (scopes', s')) : scopes'.Sound types := by
  obtain ⟨hValid, hTyped⟩ := wellTyped_of_check h.valid s hCheck
  exact ⟨hValid, hTyped.known h.known⟩

namespace Stmt

mutual

theorem grounded_check {scopes : Scopes} (h : scopes.Sound types) {s : Stmt}
    (hp : s.every p = true) : FailsAs (Grounded types p) (s.check types scopes) := by
  cases s with
  | expression e =>
    rw [check]
    refine failsAs_unless (fun _ => trivial) ?_
    exact failsAs_bind (e.grounded_check h) fun _ _ => failsAs_ok _
  | declaration name typeName value symbol =>
    rw [check]
    exact failsAs_bind (grounded_checkBinding h name typeName value) fun _ _ => failsAs_ok _
  | assignment receiver value =>
    rw [check]
    exact failsAs_bind (grounded_checkAssignment h receiver value) fun _ _ => failsAs_ok _
  | conditional condition consequent alternative =>
    simp only [every, Bool.and_eq_true] at hp
    rw [check]
    refine failsAs_bind (grounded_checkCondition h condition) fun _ _ => ?_
    refine failsAs_ite (fun _ => failsAs_error trivial) fun _ => ?_
    refine failsAs_bind (grounded_checkBlock h.push hp.1.2) fun _ _ => ?_
    exact failsAs_bind (grounded_checkBlock h.push hp.2) fun _ _ => failsAs_ok _
  | switch subject cases =>
    simp only [every, Bool.and_eq_true] at hp
    rw [check]
    refine failsAs_bind (subject.grounded_check h) fun _ hSubject => ?_
    refine failsAs_unless (fun hCount => ⟨hCount, subject, cases, hp.1, rfl⟩) ?_
    exact failsAs_bind (grounded_checkCases h (h.knows_of_check hSubject) hp.2) fun _ _ =>
      failsAs_ok _
  | loop condition body =>
    simp only [every, Bool.and_eq_true] at hp
    rw [check]
    refine failsAs_bind (grounded_checkCondition h condition) fun _ _ => ?_
    exact failsAs_bind (grounded_checkBlock h.push hp.2) fun _ _ => failsAs_ok _
  | returns value =>
    rw [check]
    exact value.grounded_checkAgainst h h.known.returnType fun value => (scopes, returns value)

theorem grounded_checkBlock {scopes : Scopes} (h : scopes.Sound types) {statements : List Stmt}
    (hp : everyIn p statements = true) :
    FailsAs (Grounded types p) (checkBlock types scopes statements) := by
  cases statements with
  | nil =>
    rw [checkBlock]
    exact failsAs_ok []
  | cons statement rest =>
    rw [everyIn, Bool.and_eq_true] at hp
    rw [checkBlock]
    refine failsAs_bind (grounded_check h hp.1) fun (scopes', _) hStatement => ?_
    exact failsAs_bind (grounded_checkBlock (sound_of_check h hStatement) hp.2) fun _ _ =>
      failsAs_ok _

theorem grounded_checkCases {scopes : Scopes} (h : scopes.Sound types) {subjectType : Ty}
    (hSubject : types.Knows subjectType) {cases : List Case} (hp : everyInCases p cases = true) :
    FailsAs (Grounded types p) (checkCases types scopes subjectType cases) := by
  cases cases with
  | nil =>
    rw [checkCases]
    exact failsAs_ok []
  | cons case rest =>
    obtain ⟨value, body⟩ := case
    rw [everyInCases, Bool.and_eq_true] at hp
    rw [checkCases]
    refine failsAs_bind (grounded_checkCaseValue h.push hSubject value) fun _ _ => ?_
    refine failsAs_bind (grounded_checkBlock h.push hp.1) fun _ _ => ?_
    exact failsAs_bind (grounded_checkCases h hSubject hp.2) fun _ _ => failsAs_ok _

end

end Stmt

end Statements

section Programs

variable {types : TypeRegistry} {p : Stmt → Bool}

theorem Global.grounded_check (global : Global) :
    (global.check types).FailsAs types (Grounded types p) := by
  refine Check.failsAs_get_bind fun scopes h => ?_
  refine Check.failsAs_liftExcept_bind (grounded_checkBinding h _ _ _) fun (ty, value) hBinding => ?_
  have hType : types.Knows ty := (hasBindingType_of_check h.valid hBinding).known h.known
  exact Check.failsAs_bind (Check.failsAs_modify fun h => h.defineVariable hType) fun _ =>
    Check.failsAs_pure _

namespace Function

theorem grounded_checkReturnType (types : TypeRegistry) (returnType : Option String) :
    FailsAs (Grounded types p) (checkReturnType types returnType) := by
  cases returnType with
  | none => exact failsAs_ok Ty.nil
  | some name => exact types.grounded_resolve name

theorem grounded_check {function : Function} (hp : Stmt.everyIn p function.body = true) :
    (function.check types).FailsAs types (Grounded types p) := by
  have hCheck : FailsAs (Grounded types p) (function.checkSignature types) := by
    refine failsAs_bind (failsAs_mapM types.grounded_resolve function.parameterTypes) fun _ _ => ?_
    exact failsAs_bind (grounded_checkReturnType types _) fun _ _ => failsAs_ok _
  refine Check.failsAs_liftExcept_bind hCheck fun signature hSignature => ?_
  obtain ⟨-, hParameters, hReturn⟩ := signature_of_check hSignature
  have hKnown {scopes : Scopes} (h : scopes.Sound types) : signature.Known types :=
    ⟨h.known.coherent.knows_all hParameters, h.known.coherent.knows_of_hasReturnType hReturn⟩
  refine Check.failsAs_bind (Check.failsAs_modify fun h => h.defineFunction (hKnown h)) fun _ => ?_
  refine Check.failsAs_get_bind fun scopes h => ?_
  exact Check.failsAs_liftExcept_bind (Stmt.grounded_checkBlock (h.body function (hKnown h)) hp)
    fun _ _ => Check.failsAs_pure _

end Function

namespace Source

theorem grounded_checkMain (source : Source) :
    FailsAs (Grounded types p) (source.checkMain types) := by
  unfold checkMain
  split
  · exact failsAs_error trivial
  · refine failsAs_bind (Function.grounded_checkReturnType types _) fun _ _ => ?_
    exact failsAs_ite (fun _ => failsAs_ok ()) fun _ => failsAs_error trivial

theorem grounded_check {source : Source}
    (hp : ∀ function ∈ source.functions, Stmt.everyIn p function.body = true) :
    (source.check types).FailsAs types (Grounded types p) := by
  refine Check.failsAs_liftExcept_bind source.grounded_checkMain fun _ _ => ?_
  refine Check.failsAs_bind (Check.failsAs_mapM fun global _ => global.grounded_check) fun _ => ?_
  refine Check.failsAs_bind (Check.failsAs_mapM fun function hMem => ?_)
    fun _ => Check.failsAs_pure _
  exact Function.grounded_check (hp function hMem)

end Source

end Programs

end ProcLang
