import ProcLang.Proofs.Typing.Rules
import ProcLang.Value.Operation

/-! # Values of types

The kind of a value corresponds to a type, but for lists, which only have type `any`. Operators
respect the types that their rules give them, unless these are too coarse: `comparable` joins values
that have no common order.
-/

namespace ProcLang

set_option autoImplicit false

def Tag.ty? : Tag → Option Ty
  | nil => some .nil
  | boolean => some .boolean
  | integer => some .integer
  | decimal => some .decimal
  | character => some .character
  | string => some .string
  | list => none

namespace Ty

/-- Whether values of a kind may stand where one of type `ty` is expected. -/
def admits (ty : Ty) (tag : Tag) : Bool :=
  match tag.ty? with
  | some source => ty.accepts source
  | none => ty = any

theorem accepts_refl (ty : Ty) : ty.accepts ty = true := by
  cases ty <;> simp [accepts, isComparable]

theorem eq_of_accepts {target source : Ty} (h : target.accepts source = true)
    (hAny : target ≠ .any) (hComparable : target ≠ .comparable) : source = target := by
  cases target <;> simp_all [accepts]

theorem eq_of_accepts_of_accepts {left right : Ty}
    (hLeft : comparable.accepts left = true) (hRight : comparable.accepts right = true)
    (hLeftRight : left.accepts right = true) (hRightLeft : right.accepts left = true) :
    left = right := by
  cases left <;> cases right <;> simp_all [accepts, isComparable]

theorem accepts_trans {target middle source : Ty} (hTarget : target.accepts middle = true)
    (hMiddle : middle.accepts source = true) : target.accepts source = true := by
  cases target with
  | any => rfl
  | comparable =>
    cases middle <;> simp_all [accepts, isComparable]
    all_goals simp [← hMiddle]
  | nil | boolean | integer | decimal | character | string | named =>
    rwa [eq_of_accepts hTarget (by simp) (by simp)] at hMiddle

theorem admits_of_accepts {target source : Ty} {tag : Tag} (hAccepts : target.accepts source = true)
    (hAdmits : source.admits tag = true) : target.admits tag = true := by
  unfold admits at hAdmits ⊢
  cases hTag : tag.ty? with
  | some ty =>
    rw [hTag] at hAdmits
    exact accepts_trans hAccepts hAdmits
  | none =>
    rw [hTag] at hAdmits
    obtain rfl := of_decide_eq_true hAdmits
    cases target <;> simp_all [accepts, isComparable]

end Ty

theorem Literal.HasType.admits {value : Literal} {ty : Ty} (h : value.HasType ty) :
    ty.admits value.value.tag = true := by
  cases h <;> rfl

namespace Value

variable {value : Value}

theorem eq_boolean_of_admits (h : Ty.boolean.admits value.tag = true) : ∃ b, value = boolean b := by
  cases value <;> first | exact ⟨_, rfl⟩ | cases h

theorem eq_integer_of_admits (h : Ty.integer.admits value.tag = true) : ∃ n, value = integer n := by
  cases value <;> first | exact ⟨_, rfl⟩ | cases h

theorem eq_decimal_of_admits (h : Ty.decimal.admits value.tag = true) : ∃ d, value = decimal d := by
  cases value <;> first | exact ⟨_, rfl⟩ | cases h

theorem eq_character_of_admits (h : Ty.character.admits value.tag = true) :
    ∃ c, value = character c := by
  cases value <;> first | exact ⟨_, rfl⟩ | cases h

theorem eq_string_of_admits (h : Ty.string.admits value.tag = true) : ∃ s, value = string s := by
  cases value <;> first | exact ⟨_, rfl⟩ | cases h

theorem order?_of_admits {ty : Ty} {left right : Value} (hOrdered : ty.isComparable = true)
    (hLeft : ty.admits left.tag = true) (hRight : ty.admits right.tag = true) :
    ∃ order, left.order? right = some order := by
  cases ty with
  | integer =>
    obtain ⟨a, rfl⟩ := eq_integer_of_admits hLeft
    obtain ⟨b, rfl⟩ := eq_integer_of_admits hRight
    exact ⟨_, rfl⟩
  | decimal =>
    obtain ⟨a, rfl⟩ := eq_decimal_of_admits hLeft
    obtain ⟨b, rfl⟩ := eq_decimal_of_admits hRight
    exact ⟨_, rfl⟩
  | character =>
    obtain ⟨a, rfl⟩ := eq_character_of_admits hLeft
    obtain ⟨b, rfl⟩ := eq_character_of_admits hRight
    exact ⟨_, rfl⟩
  | string =>
    obtain ⟨a, rfl⟩ := eq_string_of_admits hLeft
    obtain ⟨b, rfl⟩ := eq_string_of_admits hRight
    exact ⟨_, rfl⟩
  | any | nil | comparable | boolean | named => cases hOrdered

end Value

namespace Operator

/-- The operator applies, and what it computes has the given type. -/
def Computes (operator : Operator) (left right : Value) (ty : Ty) : Prop :=
  ∃ result, operator.result? left right = some result ∧
    ∀ value, result = .ok value → ty.admits value.tag = true

variable {operator : Operator} {leftType rightType ty : Ty} {left right : Value}

theorem computes_ok {value : Value} (h : operator.result? left right = some (.ok value))
    (hValue : ty.admits value.tag = true) : operator.Computes left right ty := by
  refine ⟨_, h, ?_⟩
  rintro _ ⟨⟩
  exact hValue

theorem computes_map {α : Type} {computation : Except ArithmeticError α} {f : α → Value}
    (h : operator.result? left right = some (computation.map f))
    (hValue : ∀ a, ty.admits (f a).tag = true) : operator.Computes left right ty := by
  refine ⟨_, h, ?_⟩
  intro value hOk
  cases computation with
  | error error => cases hOk
  | ok a =>
    cases hOk
    exact hValue a

theorem computes_logical (hLogical : operator.isLogical = true)
    (hLeft : Ty.boolean.admits left.tag = true) (hRight : Ty.boolean.admits right.tag = true) :
    operator.Computes left right .boolean := by
  obtain ⟨a, rfl⟩ := Value.eq_boolean_of_admits hLeft
  obtain ⟨b, rfl⟩ := Value.eq_boolean_of_admits hRight
  cases operator with
  | and | or => exact computes_ok rfl rfl
  | less | greater | equal | notEqual | add | subtract | multiply | divide | power => cases hLogical

theorem computes_of_order {order : Ordering} (hComparison : operator.isComparison = true)
    (hOrder : left.order? right = some order) : operator.Computes left right .boolean := by
  cases operator with
  | equal | notEqual => exact computes_ok rfl rfl
  | less =>
    have hResult : less.result? left right = some (.ok (.boolean (order = .lt))) := by
      rw [result?, hOrder]
      rfl
    exact computes_ok hResult rfl
  | greater =>
    have hResult : greater.result? left right = some (.ok (.boolean (order = .gt))) := by
      rw [result?, hOrder]
      rfl
    exact computes_ok hResult rfl
  | and | or | add | subtract | multiply | divide | power => cases hComparison

theorem computes_comparison (hComparison : operator.isComparison = true)
    (hOrdered : ty.isComparable = true) (hLeft : ty.admits left.tag = true)
    (hRight : ty.admits right.tag = true) : operator.Computes left right .boolean := by
  obtain ⟨order, hOrder⟩ := Value.order?_of_admits hOrdered hLeft hRight
  exact computes_of_order hComparison hOrder

theorem computes_join (hString : leftType = .string ∨ rightType = .string)
    (hLeft : leftType.admits left.tag = true) (hRight : rightType.admits right.tag = true) :
    Operator.add.Computes left right .string := by
  have hJoin : (left.isString || right.isString) = true := by
    rcases hString with rfl | rfl
    · obtain ⟨s, rfl⟩ := Value.eq_string_of_admits hLeft
      rfl
    · obtain ⟨s, rfl⟩ := Value.eq_string_of_admits hRight
      exact Bool.or_true _
  refine computes_ok (if_pos hJoin) ?_
  rfl

theorem computes_arithmetic (hOperator : operator ∈ [.add, .subtract, .multiply, .divide])
    (hNumeric : ty.isNumeric = true) (hLeft : ty.admits left.tag = true)
    (hRight : ty.admits right.tag = true) : operator.Computes left right ty := by
  cases ty with
  | integer =>
    obtain ⟨a, rfl⟩ := Value.eq_integer_of_admits hLeft
    obtain ⟨b, rfl⟩ := Value.eq_integer_of_admits hRight
    cases operator with
    | add | subtract | multiply => exact computes_ok rfl rfl
    | divide => exact computes_map rfl fun _ => rfl
    | and | or | less | greater | equal | notEqual | power => simp at hOperator
  | decimal =>
    obtain ⟨a, rfl⟩ := Value.eq_decimal_of_admits hLeft
    obtain ⟨b, rfl⟩ := Value.eq_decimal_of_admits hRight
    cases operator with
    | add | subtract | multiply => exact computes_ok rfl rfl
    | divide => exact computes_map rfl fun _ => rfl
    | and | or | less | greater | equal | notEqual | power => simp at hOperator
  | any | nil | comparable | boolean | character | string | named => cases hNumeric

theorem computes_power (hNumeric : ty.isNumeric = true) (hLeft : ty.admits left.tag = true)
    (hRight : Ty.integer.admits right.tag = true) : Operator.power.Computes left right ty := by
  obtain ⟨n, rfl⟩ := Value.eq_integer_of_admits hRight
  cases ty with
  | integer =>
    obtain ⟨a, rfl⟩ := Value.eq_integer_of_admits hLeft
    exact computes_map rfl fun _ => rfl
  | decimal =>
    obtain ⟨a, rfl⟩ := Value.eq_decimal_of_admits hLeft
    exact computes_map rfl fun _ => rfl
  | any | nil | comparable | boolean | character | string | named => cases hNumeric

theorem HasType.computes (h : operator.HasType leftType rightType ty)
    (hOrdered : leftType ≠ .comparable) (hLeft : leftType.admits left.tag = true)
    (hRight : rightType.admits right.tag = true) : operator.Computes left right ty := by
  cases h with
  | logical hLogical => exact computes_logical hLogical hLeft hRight
  | comparison hComparison hAccepted =>
    refine computes_comparison hComparison ?_ hLeft hRight
    simpa [Ty.accepts, hOrdered] using hAccepted
  | join hString => exact computes_join hString hLeft hRight
  | arithmetic hOperator hNumeric => exact computes_arithmetic hOperator hNumeric hLeft hRight
  | power hNumeric => exact computes_power hNumeric hLeft hRight

theorem Computes.evaluate_ok {value : Value} (h : operator.Computes left right ty)
    (hValue : operator.evaluate left right = .ok value) : ty.admits value.tag = true := by
  obtain ⟨result, hResult, hAdmits⟩ := h
  rw [evaluate, hResult] at hValue
  cases result with
  | error error => cases hValue
  | ok found =>
    cases hValue
    exact hAdmits value rfl

theorem Computes.evaluate_error {error : OperationError} (h : operator.Computes left right ty)
    (hError : operator.evaluate left right = .error error) : ∃ reason, error = .arithmetic reason := by
  obtain ⟨result, hResult, -⟩ := h
  rw [evaluate, hResult] at hError
  cases result with
  | error reason =>
    cases hError
    exact ⟨reason, rfl⟩
  | ok found => cases hError

end Operator

end ProcLang
