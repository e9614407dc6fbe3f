import ProcLang.Proofs.Typing.Checked

/-! # Operator tables

The types that the checker gives to operators agree with what operators do to values: on operands
of the checked types an operator has a result of the checked type, or its arithmetic fails. There is
one exception. Values of different kinds can both have type `comparable`, and then neither is less
than the other.
-/

namespace ProcLang

set_option autoImplicit false

namespace Value

variable {left right : Value}

theorem order?_eq_none_of_tag_ne (h : left.tag ≠ right.tag) : left.order? right = none := by
  cases left <;> cases right <;> first | rfl | exact absurd rfl h

/-- Kinds of which all values have type `comparable` are ordered. -/
theorem order?_of_tag_eq (hOrdered : Ty.comparable.admits left.tag = true)
    (h : left.tag = right.tag) : ∃ order, left.order? right = some order := by
  cases left with
  | integer | decimal | character | string =>
    cases right <;> first | exact ⟨_, rfl⟩ | cases h
  | nil | boolean | list => cases hOrdered

end Value

namespace Operator

variable {operator : Operator} {leftType rightType ty : Ty} {left right : Value}

/-- Two values of different kinds are put in order because both have type `comparable`. -/
structure Clashes (operator : Operator) (leftType rightType : Ty) (left right : Value) : Prop where
  orders : operator = .less ∨ operator = .greater
  left_comparable : leftType = .comparable
  right_comparable : rightType = .comparable
  tag_ne : left.tag ≠ right.tag

theorem Clashes.evaluate_eq (h : operator.Clashes leftType rightType left right) :
    operator.evaluate left right = .error (.invalidOperands operator left.tag right.tag) := by
  have hOrder := Value.order?_eq_none_of_tag_ne h.tag_ne
  have hResult : operator.result? left right = none := by
    rcases h.orders with rfl | rfl <;> rw [result?, hOrder] <;> rfl
  rw [evaluate, hResult]

theorem computes_comparable (hComparison : operator.isComparison = true)
    (hClash : ¬operator.Clashes .comparable .comparable left right)
    (hLeft : Ty.comparable.admits left.tag = true) : operator.Computes left right .boolean := by
  by_cases hTag : left.tag = right.tag
  · obtain ⟨order, hOrder⟩ := Value.order?_of_tag_eq hLeft hTag
    exact computes_of_order hComparison hOrder
  · have hEquality : operator ≠ .less ∧ operator ≠ .greater := by
      constructor <;> rintro rfl
      · exact hClash ⟨.inl rfl, rfl, rfl, hTag⟩
      · exact hClash ⟨.inr rfl, rfl, rfl, hTag⟩
    cases operator with
    | equal | notEqual => exact computes_ok rfl rfl
    | less => exact absurd rfl hEquality.1
    | greater => exact absurd rfl hEquality.2
    | and | or | add | subtract | multiply | divide | power => cases hComparison

theorem HasType.computes_of_not_clashes (h : operator.HasType leftType rightType ty)
    (hClash : ¬operator.Clashes leftType rightType left right)
    (hLeft : leftType.admits left.tag = true) (hRight : rightType.admits right.tag = true) :
    operator.Computes left right ty := by
  by_cases hOrdered : leftType = .comparable
  · subst hOrdered
    cases h with
    | comparison hComparison => exact computes_comparable hComparison hClash hLeft
    | join hString => exact computes_join hString hLeft hRight
    | arithmetic _ hNumeric | power hNumeric => cases hNumeric
  · exact h.computes hOrdered hLeft hRight

theorem Computes.outcome (h : operator.Computes left right ty) :
    (∃ value, operator.evaluate left right = .ok value ∧ ty.admits value.tag = true) ∨
      ∃ reason, operator.evaluate left right = .error (.arithmetic reason) := by
  cases hOutcome : operator.evaluate left right with
  | ok value => exact .inl ⟨value, rfl, h.evaluate_ok hOutcome⟩
  | error error =>
    obtain ⟨reason, rfl⟩ := h.evaluate_error hOutcome
    exact .inr ⟨reason, rfl⟩

/-- Where the checker gives an operator a type, values of the operand types have a result of that
type or none for an arithmetic reason, unless they clash. -/
theorem tables_agree (hCheck : operator.check leftType rightType = .ok ty)
    (hLeft : leftType.admits left.tag = true) (hRight : rightType.admits right.tag = true) :
    (¬operator.Clashes leftType rightType left right →
      (∃ value, operator.evaluate left right = .ok value ∧ ty.admits value.tag = true) ∨
        ∃ reason, operator.evaluate left right = .error (.arithmetic reason)) ∧
    (operator.Clashes leftType rightType left right →
      operator.evaluate left right = .error (.invalidOperands operator left.tag right.tag)) := by
  refine ⟨fun hClash => ?_, Clashes.evaluate_eq⟩
  exact ((hasType_of_check hCheck).computes_of_not_clashes hClash hLeft hRight).outcome

/-- Two texts are both comparable, and so is an integer. -/
theorem tables_agree_comparable :
    less.check .comparable .comparable = .ok .boolean ∧
      (∃ value, less.evaluate (.string "a") (.string "b") = .ok value ∧
        Ty.boolean.admits value.tag = true) ∧
      less.evaluate (.integer 1) (.string "a") =
        .error (.invalidOperands .less .integer .string) := by
  have hCheck : less.check .comparable .comparable = .ok .boolean := rfl
  have hText (s : String) : Ty.comparable.admits (Value.string s).tag = true := rfl
  have hInteger : Ty.comparable.admits (Value.integer 1).tag = true := rfl
  obtain ⟨hTexts, -⟩ := tables_agree hCheck (hText "a") (hText "b")
  obtain ⟨-, hMixed⟩ := tables_agree hCheck hInteger (hText "a")
  refine ⟨hCheck, ?_, hMixed ⟨.inl rfl, rfl, rfl, nofun⟩⟩
  rcases hTexts fun hClash => hClash.tag_ne rfl with hValue | ⟨reason, hReason⟩
  · exact hValue
  · cases hReason

/-- What is checked as comparable need not have an order. -/
theorem tables_disagree : ∃ ty,
    less.check .comparable .comparable = .ok ty ∧
      Ty.comparable.admits (Value.integer 1).tag = true ∧
      Ty.comparable.admits (Value.string "a").tag = true ∧
      ¬((∃ value, less.evaluate (.integer 1) (.string "a") = .ok value ∧
          ty.admits value.tag = true) ∨
        ∃ reason, less.evaluate (.integer 1) (.string "a") = .error (.arithmetic reason)) := by
  refine ⟨.boolean, rfl, rfl, rfl, ?_⟩
  rintro (⟨value, hValue, -⟩ | ⟨reason, hReason⟩)
  · cases hValue
  · cases hReason

end Operator

end ProcLang
