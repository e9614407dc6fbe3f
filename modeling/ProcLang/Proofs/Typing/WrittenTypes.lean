import ProcLang.Proofs.Typing.Derivable
import ProcLang.Proofs.Typing.TypeNames

/-! # Written types

A program may leave out the type of a variable that has an initial value, and the return type `Nil`.
The checker finds these types, and they have names. If the names are written where types were left
out, then the program is checked in another way, each initial value against a declared type, but
with the same result.
-/

namespace ProcLang

set_option autoImplicit false

namespace Stmt

mutual

/-- Gives each declaration another type name, from the one that it has and the type in its slot. -/
def mapTypeNames (f : Option String → Option Ty → Option String) : Stmt → Stmt
  | expression e => expression e
  | declaration name typeName value symbol =>
    declaration name (f typeName (symbol.map Variable.ty)) value symbol
  | assignment receiver value => assignment receiver value
  | conditional condition consequent alternative =>
    conditional condition (mapTypeNamesIn f consequent) (mapTypeNamesIn f alternative)
  | switch subject cases => switch subject (mapTypeNamesInCases f cases)
  | loop condition body => loop condition (mapTypeNamesIn f body)
  | returns value => returns value

def mapTypeNamesIn (f : Option String → Option Ty → Option String) : List Stmt → List Stmt
  | [] => []
  | statement :: rest => mapTypeNames f statement :: mapTypeNamesIn f rest

def mapTypeNamesInCases (f : Option String → Option Ty → Option String) : List Case → List Case
  | [] => []
  | ⟨value, body⟩ :: rest => ⟨value, mapTypeNamesIn f body⟩ :: mapTypeNamesInCases f rest

end

def isExplicitNode : Stmt → Bool
  | declaration _ typeName _ _ => typeName.isSome
  | _ => true

end Stmt

namespace Global

def mapTypeNames (f : Option String → Option Ty → Option String) (global : Global) : Global :=
  { global with typeName := f global.typeName (global.symbol.map Variable.ty) }

end Global

namespace Function

/-- The return type that a function without one has is `nil`. -/
def mapTypeNames (f : Option String → Option Ty → Option String) (function : Function) : Function :=
  { function with
    returnType := f function.returnType (some .nil)
    body := Stmt.mapTypeNamesIn f function.body }

end Function

/-- The name that is there, or else that of the type in the slot. -/
def writtenName (typeName : Option String) (ty : Option Ty) : Option String :=
  typeName.or (ty.map Ty.name)

namespace Source

def mapTypeNames (f : Option String → Option Ty → Option String) (source : Source) : Source :=
  ⟨source.globals.map (Global.mapTypeNames f), source.functions.map (Function.mapTypeNames f)⟩

/-- Writes the types that were left out. -/
def writeTypes (source : Source) : Source :=
  source.mapTypeNames writtenName

/-- Leaves out the types of all variables and all return types. -/
def omitTypes (source : Source) : Source :=
  source.mapTypeNames fun _ _ => none

/-- Nothing is left out. -/
def isExplicit (source : Source) : Bool :=
  source.globals.all (fun global => global.typeName.isSome) &&
    source.functions.all fun function =>
      function.returnType.isSome && Stmt.everyIn Stmt.isExplicitNode function.body

end Source

section Fusion

variable {f g : Option String → Option Ty → Option String}

namespace Stmt

mutual

theorem mapTypeNames_mapTypeNames (s : Stmt) :
    (s.mapTypeNames f).mapTypeNames g = s.mapTypeNames fun name ty => g (f name ty) ty := by
  cases s with
  | expression | declaration | assignment | returns => rfl
  | conditional condition consequent alternative =>
    simp only [mapTypeNames, mapTypeNamesIn_mapTypeNamesIn consequent,
      mapTypeNamesIn_mapTypeNamesIn alternative]
  | switch subject cases =>
    simp only [mapTypeNames, mapTypeNamesInCases_mapTypeNamesInCases cases]
  | loop condition body => simp only [mapTypeNames, mapTypeNamesIn_mapTypeNamesIn body]

theorem mapTypeNamesIn_mapTypeNamesIn (statements : List Stmt) :
    mapTypeNamesIn g (mapTypeNamesIn f statements) =
      mapTypeNamesIn (fun name ty => g (f name ty) ty) statements := by
  cases statements with
  | nil => rfl
  | cons statement rest =>
    simp only [mapTypeNamesIn, mapTypeNames_mapTypeNames statement,
      mapTypeNamesIn_mapTypeNamesIn rest]

theorem mapTypeNamesInCases_mapTypeNamesInCases (cases : List Case) :
    mapTypeNamesInCases g (mapTypeNamesInCases f cases) =
      mapTypeNamesInCases (fun name ty => g (f name ty) ty) cases := by
  cases cases with
  | nil => rfl
  | cons case rest =>
    obtain ⟨value, body⟩ := case
    simp only [mapTypeNamesInCases, mapTypeNamesIn_mapTypeNamesIn body,
      mapTypeNamesInCases_mapTypeNamesInCases rest]

end

end Stmt

theorem Source.mapTypeNames_mapTypeNames (source : Source) :
    (source.mapTypeNames f).mapTypeNames g =
      source.mapTypeNames fun name ty => g (f name ty) ty := by
  have hGlobals : Global.mapTypeNames g ∘ Global.mapTypeNames f =
      Global.mapTypeNames fun name ty => g (f name ty) ty := rfl
  have hFunctions : Function.mapTypeNames g ∘ Function.mapTypeNames f =
      Function.mapTypeNames fun name ty => g (f name ty) ty := by
    funext function
    simp only [Function.comp, Function.mapTypeNames, Stmt.mapTypeNamesIn_mapTypeNamesIn]
  simp only [mapTypeNames, List.map_map, hGlobals, hFunctions]

/-- Written types are all that is added. -/
theorem Source.omitTypes_writeTypes (source : Source) :
    source.writeTypes.omitTypes = source.omitTypes :=
  source.mapTypeNames_mapTypeNames

end Fusion

section Rules

variable {types : TypeRegistry} {Γ Γ' : Context}

theorem Expr.HasType.initializes {e : Expr} {ty : Ty} (h : e.HasType Γ ty) : e.Initializes Γ ty := by
  cases e with
  | list =>
    cases h with
    | list hItems => exact .items hItems fun _ _ => rfl
  | literal | group | binary | access | element | call => exact .value rfl h ty.accepts_refl

theorem HasBindingType.written (hΓ : Γ.Known types) {typeName : Option String}
    {value : Option Expr} {ty : Ty} (h : HasBindingType types Γ typeName value ty) :
    HasBindingType types Γ (writtenName typeName (some ty)) value ty := by
  cases h with
  | declared hType => exact .declared hType
  | inferred hValue => exact .initialized (hValue.known hΓ _) hValue.initializes
  | initialized hType hValue => exact .initialized hType hValue

theorem Stmt.isDefault_mapTypeNamesInCases (f : Option String → Option Ty → Option String)
    (cases : List Case) :
    (mapTypeNamesInCases f cases).countP Case.isDefault = cases.countP Case.isDefault := by
  induction cases with
  | nil => rfl
  | cons case rest ih =>
    obtain ⟨value, body⟩ := case
    rw [mapTypeNamesInCases, List.countP_cons, List.countP_cons, ih]
    rfl

mutual

theorem Stmt.WellTyped.writeTypes {Γ Γ' : Context} (hΓ : Γ.Known types) (s : Stmt)
    (h : s.WellTyped types Γ Γ') : (s.mapTypeNames writtenName).WellTyped types Γ Γ' := by
  cases s with
  | expression | assignment | returns => exact h
  | declaration =>
    cases h with
    | declaration hBinding => exact .declaration (hBinding.written hΓ)
  | conditional condition consequent alternative =>
    cases h with
    | conditional hCondition hNonempty hConsequent hAlternative =>
      refine .conditional hCondition ?_ (Block.WellTyped.writeTypes hΓ consequent hConsequent)
        (Block.WellTyped.writeTypes hΓ alternative hAlternative)
      cases consequent with
      | nil => exact hNonempty
      | cons => exact List.cons_ne_nil _ _
  | switch subject cases =>
    cases h with
    | switch hSubject hDefault hCases =>
      exact .switch hSubject ((Stmt.isDefault_mapTypeNamesInCases _ cases).trans hDefault)
        (Cases.WellTyped.writeTypes hΓ cases hCases)
  | loop condition body =>
    cases h with
    | loop hCondition hBody => exact .loop hCondition (Block.WellTyped.writeTypes hΓ body hBody)

theorem Block.WellTyped.writeTypes {Γ : Context} (hΓ : Γ.Known types) (statements : List Stmt)
    (h : Block.WellTyped types Γ statements) :
    Block.WellTyped types Γ (Stmt.mapTypeNamesIn writtenName statements) := by
  cases statements with
  | nil => exact .nil
  | cons statement rest =>
    cases h with
    | cons hStatement hRest =>
      exact .cons (Stmt.WellTyped.writeTypes hΓ statement hStatement)
        (Block.WellTyped.writeTypes (hStatement.known hΓ) rest hRest)

theorem Cases.WellTyped.writeTypes {Γ : Context} (hΓ : Γ.Known types) {subject : Ty}
    (cases : List Case) (h : Cases.WellTyped types Γ subject cases) :
    Cases.WellTyped types Γ subject (Stmt.mapTypeNamesInCases writtenName cases) := by
  cases cases with
  | nil => exact .nil
  | cons case rest =>
    obtain ⟨value, body⟩ := case
    cases h with
    | default hBody hRest =>
      exact .default (Block.WellTyped.writeTypes hΓ body hBody)
        (Cases.WellTyped.writeTypes hΓ rest hRest)
    | value hValue hAccepted hBody hRest =>
      exact .value hValue hAccepted (Block.WellTyped.writeTypes hΓ body hBody)
        (Cases.WellTyped.writeTypes hΓ rest hRest)

end

theorem Globals.WellTyped.writeTypes {globals : List Global}
    (h : Globals.WellTyped types Γ globals Γ') (hΓ : Γ.Known types) :
    Globals.WellTyped types Γ (globals.map (Global.mapTypeNames writtenName)) Γ' ∧
      Γ'.Known types := by
  induction h with
  | nil => exact ⟨.nil, hΓ⟩
  | @cons Γ Γ' global rest ty hBinding hSymbol _ ih =>
    obtain ⟨hRest, hΓ'⟩ := ih (hΓ.bind (hBinding.known hΓ))
    refine ⟨.cons ?_ hSymbol hRest, hΓ'⟩
    simp only [Global.mapTypeNames, hSymbol]
    exact hBinding.written hΓ

theorem HasReturnType.written (hTypes : types.Coherent) {returnType : Option String} {ty : Ty}
    (h : HasReturnType types returnType ty) :
    HasReturnType types (writtenName returnType (some .nil)) ty := by
  cases h with
  | missing => exact .named (hTypes.builtin .nil (by decide))
  | named hType => exact .named hType

theorem Function.WellTyped.writeTypes (hΓ : Γ.Known types) {function : Function}
    {signature : Signature} (h : function.WellTyped types Γ signature) :
    (function.mapTypeNames writtenName).WellTyped types Γ signature where
  slot := h.slot
  name_eq := h.name_eq
  parameterTypes := h.parameterTypes
  returnType := h.returnType.written hΓ.coherent
  body := by
    have hSignature := h.signature_known hΓ.coherent
    exact Block.WellTyped.writeTypes ((hΓ.declare hSignature).body hSignature _) _ h.body

theorem Functions.WellTyped.writeTypes {functions : List Function}
    (h : Functions.WellTyped types Γ functions) (hΓ : Γ.Known types) :
    Functions.WellTyped types Γ (functions.map (Function.mapTypeNames writtenName)) := by
  induction h with
  | nil => exact .nil
  | cons hFunction _ ih =>
    exact .cons (hFunction.writeTypes hΓ) (ih (hΓ.declare (hFunction.signature_known hΓ.coherent)))

theorem Functions.HasMain.writeTypes (hTypes : types.Coherent) {functions : List Function}
    (h : Functions.HasMain types functions) :
    Functions.HasMain types (functions.map (Function.mapTypeNames writtenName)) := by
  induction h with
  | here hName hParameters hReturn => exact .here hName hParameters (hReturn.written hTypes)
  | later hOther _ ih => exact .later hOther ih

theorem Source.WellTypedIn.writeTypes (hΓ : Γ.Known types) {source : Source}
    (h : source.WellTypedIn types Γ) : source.writeTypes.WellTypedIn types Γ := by
  obtain ⟨Γ', hGlobals, hFunctions⟩ := h.items
  obtain ⟨hGlobals, hΓ'⟩ := hGlobals.writeTypes hΓ
  exact ⟨h.main.writeTypes hΓ.coherent, Γ', hGlobals, hFunctions.writeTypes hΓ'⟩

end Rules

section Explicit

variable {types : TypeRegistry} {Γ Γ' : Context}

theorem isSome_writtenName (typeName : Option String) (ty : Ty) :
    (writtenName typeName (some ty)).isSome = true := by
  cases typeName <;> rfl

namespace Stmt

mutual

theorem isExplicit_writeTypes {Γ Γ' : Context} (s : Stmt) (h : s.WellTyped types Γ Γ') :
    (s.mapTypeNames writtenName).every isExplicitNode = true := by
  cases s with
  | expression | assignment | returns => rfl
  | declaration name typeName value symbol =>
    cases h with
    | declaration hBinding => exact isSome_writtenName typeName _
  | conditional condition consequent alternative =>
    cases h with
    | conditional hCondition hNonempty hConsequent hAlternative =>
      simp only [mapTypeNames, every, isExplicitNode, isExplicitIn_writeTypes consequent hConsequent,
        isExplicitIn_writeTypes alternative hAlternative, Bool.and_self]
  | switch subject cases =>
    cases h with
    | switch hSubject hDefault hCases =>
      simp only [mapTypeNames, every, isExplicitNode, isExplicitInCases_writeTypes cases hCases,
        Bool.and_self]
  | loop condition body =>
    cases h with
    | loop hCondition hBody =>
      simp only [mapTypeNames, every, isExplicitNode, isExplicitIn_writeTypes body hBody,
        Bool.and_self]

theorem isExplicitIn_writeTypes {Γ : Context} (statements : List Stmt)
    (h : Block.WellTyped types Γ statements) :
    everyIn isExplicitNode (mapTypeNamesIn writtenName statements) = true := by
  cases statements with
  | nil => rfl
  | cons statement rest =>
    cases h with
    | cons hStatement hRest =>
      simp only [mapTypeNamesIn, everyIn, isExplicit_writeTypes statement hStatement,
        isExplicitIn_writeTypes rest hRest, Bool.and_self]

theorem isExplicitInCases_writeTypes {Γ : Context} {subject : Ty} (cases : List Case)
    (h : Cases.WellTyped types Γ subject cases) :
    everyInCases isExplicitNode (mapTypeNamesInCases writtenName cases) = true := by
  cases cases with
  | nil => rfl
  | cons case rest =>
    obtain ⟨value, body⟩ := case
    cases h with
    | default hBody hRest | value hValue hAccepted hBody hRest =>
      simp only [mapTypeNamesInCases, everyInCases, isExplicitIn_writeTypes body hBody,
        isExplicitInCases_writeTypes rest hRest, Bool.and_self]

end

end Stmt

theorem Globals.WellTyped.isExplicit_writeTypes {globals : List Global}
    (h : Globals.WellTyped types Γ globals Γ') :
    (globals.map (Global.mapTypeNames writtenName)).all (fun global => global.typeName.isSome) =
      true := by
  induction h with
  | nil => rfl
  | @cons Γ Γ' global rest ty hBinding hSymbol _ ih =>
    have hHead : (global.mapTypeNames writtenName).typeName.isSome = true := by
      simp only [Global.mapTypeNames, hSymbol]
      exact isSome_writtenName global.typeName ty
    rw [List.map_cons, List.all_cons, hHead, ih, Bool.and_self]

theorem Functions.WellTyped.isExplicit_writeTypes {functions : List Function}
    (h : Functions.WellTyped types Γ functions) :
    (functions.map (Function.mapTypeNames writtenName)).all (fun function =>
      function.returnType.isSome && Stmt.everyIn Stmt.isExplicitNode function.body) = true := by
  induction h with
  | nil => rfl
  | @cons Γ function signature rest hFunction _ ih =>
    rw [List.map_cons, List.all_cons, ih, Bool.and_true, Bool.and_eq_true]
    exact ⟨isSome_writtenName function.returnType .nil,
      Stmt.isExplicitIn_writeTypes function.body hFunction.body⟩

theorem Source.WellTypedIn.isExplicit_writeTypes {source : Source}
    (h : source.WellTypedIn types Γ) : source.writeTypes.isExplicit = true := by
  obtain ⟨Γ', hGlobals, hFunctions⟩ := h.items
  rw [Source.isExplicit, Bool.and_eq_true]
  exact ⟨hGlobals.isExplicit_writeTypes, hFunctions.isExplicit_writeTypes⟩

end Explicit

/-- Where a checker with registered types, new or used, accepts a program, let each type that was
left out be written as the name of the type that the checker found. A checker like it accepts the new
program, whatever its slots hold, and fills all slots as before: nothing but type names was added,
and none is missing. -/
theorem Checker.check_writeTypes {checker : Checker} (hBuilt : checker.Built)
    {names : List String} (hTypes : checker.types = .ofNames names) {source checked : Source}
    (hChecked : (checker.check source).1 = .ok checked) {written : Source}
    (hWritten : written.erase = checked.writeTypes.erase) :
    (checker.check written).1 = .ok checked.writeTypes ∧
      checked.writeTypes.omitTypes = checked.omitTypes ∧ checked.writeTypes.isExplicit = true := by
  have hSound := hBuilt.sound (hTypes ▸ TypeRegistry.coherent_ofNames names)
  have hYields : Check.Yields (source.check checker.types) checker.scopes checked
      (checker.check source).2.scopes := Prod.ext hChecked rfl
  have hTyped := Source.wellTypedIn_of_check hSound.valid hYields
  obtain ⟨scopes', hAgain⟩ := Source.check_of_wellTypedIn hSound.valid hWritten.symm
    (hTyped.writeTypes hSound.known)
  exact ⟨congrArg Prod.fst hAgain, checked.omitTypes_writeTypes, hTyped.isExplicit_writeTypes⟩

/-- A list, a variable of a nominal type in a loop and a function without a result, each with the
type name that is given or without one. -/
def reticent (items point returned : Option String) : Source :=
  ⟨[⟨"items", items, false,
        some (.list [.literal (.integer 1) none, .literal (.boolean true) none] none), none⟩],
    [⟨"visit", ["p"], ["Point"], returned,
        [.loop (.literal (.boolean false) none)
          [.declaration "q" point (some (.access "p" none none)) none]], none⟩,
      ⟨"main", [], [], some "Integer", [.returns (.literal (.integer 0) none)], none⟩]⟩

theorem Checker.check_writeTypes_reticent :
    let checker := Checker.ofTypes (.ofNames ["Point"])
    ∃ checked, (checker.check (reticent none none none)).1 = .ok checked ∧
      (checker.check (reticent (some "Any") (some "Point") (some "Nil"))).1 =
        .ok checked.writeTypes := by
  intro checker
  obtain ⟨checked, hChecked, hWritten⟩ : ∃ checked,
      (checker.check (reticent none none none)).1 = .ok checked ∧
        (reticent (some "Any") (some "Point") (some "Nil")).erase = checked.writeTypes.erase :=
    ⟨_, rfl, rfl⟩
  exact ⟨checked, hChecked, (check_writeTypes (.ofTypes _) rfl hChecked hWritten).1⟩

end ProcLang
