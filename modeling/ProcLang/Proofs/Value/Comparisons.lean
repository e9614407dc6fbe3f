import ProcLang.Machine.Evaluation
import ProcLang.Proofs.Decimal.Order
import ProcLang.Proofs.Machine.Outcome

/-! # Comparisons of values

Two values are equal if they mean the same, that is if they differ at most in the forms of the
decimals in them. On the four ordered kinds `<` and `>` go with this equality: of two values of one
such kind exactly one is less than the other, or they are equal, and equal values can stand for one
another wherever values are compared, in a `SWITCH` as well.
-/

namespace ProcLang

set_option autoImplicit false

namespace Value

/-- What a value is, whatever the forms of the decimals in it. -/
inductive Meaning where
  | nil
  | boolean (b : Bool)
  | integer (n : Int)
  | decimal (x : ℚ)
  | character (c : Char)
  | string (s : String)
  | list (items : List Meaning)

mutual

def meaning : Value → Meaning
  | nil => .nil
  | boolean b => .boolean b
  | integer n => .integer n
  | decimal d => .decimal d.toRat
  | character c => .character c
  | string s => .string s
  | list items => .list (meanings items)

def meanings : List Value → List Meaning
  | [] => []
  | item :: items => meaning item :: meanings items

end

theorem compare_eq_eq_iff {a b : Decimal} : a.compare b = .eq ↔ a.toRat = b.toRat := by
  rw [Decimal.compare_eq_cmp, cmp_eq_eq_iff]

mutual

theorem equal_iff (a b : Value) : a.equal b = true ↔ a.meaning = b.meaning := by
  cases a with
  | decimal d => cases b <;> simp [equal, meaning, compare_eq_eq_iff]
  | list items => cases b <;> simp [equal, meaning, equalItems_iff items]
  | nil | boolean | integer | character | string => cases b <;> simp [equal, meaning]

theorem equalItems_iff (as bs : List Value) :
    equalItems as bs = true ↔ meanings as = meanings bs := by
  cases as with
  | nil => cases bs <;> simp [equalItems, meanings]
  | cons a as => cases bs <;> simp [equalItems, meanings, equal_iff a, equalItems_iff as]

end

theorem beq_iff {a b : Value} : (a == b) = true ↔ a.meaning = b.meaning :=
  equal_iff a b

theorem beq_congr {a b a' b' : Value} (hLeft : a.meaning = a'.meaning)
    (hRight : b.meaning = b'.meaning) : (a == b) = (a' == b') := by
  rw [Bool.eq_iff_iff, beq_iff, beq_iff, hLeft, hRight]

theorem tag_eq_of_meaning {a b : Value} (h : a.meaning = b.meaning) : a.tag = b.tag := by
  cases a <;> cases b <;> first | rfl | simp [meaning] at h

end Value

theorem Decimal.compare_congr {a b : Decimal} (h : a.toRat = b.toRat) (c : Decimal) :
    a.compare c = b.compare c := by
  rw [compare_eq_cmp, compare_eq_cmp, h]

instance : Std.TransCmp Decimal.compare where
  eq_swap {a b} := by
    rw [Decimal.compare_eq_cmp, Decimal.compare_eq_cmp, cmp_swap]
  isLE_trans {a b c} := by
    rw [Decimal.compare_eq_cmp, Decimal.compare_eq_cmp, Decimal.compare_eq_cmp, cmp_eq_compare,
      cmp_eq_compare, cmp_eq_compare]
    exact Std.TransCmp.isLE_trans

namespace Value

theorem order?_swap (a b : Value) : b.order? a = (a.order? b).map Ordering.swap := by
  cases a <;> cases b <;> simp only [order?, Option.map_none, Option.map_some, Option.some.injEq]
  all_goals exact Std.OrientedCmp.eq_swap

theorem order?_trans {a b c : Value} (h : a.order? b = some .lt) (h' : b.order? c = some .lt) :
    a.order? c = some .lt := by
  cases a <;> cases b <;> simp only [order?, reduceCtorEq, Option.some.injEq] at h <;>
    cases c <;> simp only [order?, reduceCtorEq, Option.some.injEq] at h' ⊢
  all_goals exact Std.TransCmp.lt_trans h h'

theorem order?_eq_eq_iff {a b : Value} {order : Ordering} (h : a.order? b = some order) :
    order = .eq ↔ a.meaning = b.meaning := by
  cases a <;> cases b <;> simp only [order?, reduceCtorEq, Option.some.injEq] at h
  all_goals subst h
  · simp [meaning]
  · simp [meaning, compare_eq_eq_iff]
  · simp [meaning]
  · simp [meaning]

theorem order?_congr {a b : Value} (h : a.meaning = b.meaning) (c : Value) :
    a.order? c = b.order? c := by
  cases a <;> cases b <;> simp only [meaning, reduceCtorEq, Meaning.integer.injEq,
    Meaning.decimal.injEq, Meaning.character.injEq, Meaning.string.injEq] at h
  case decimal.decimal => cases c <;> simp [order?, Decimal.compare_congr h]
  all_goals cases c <;> simp [order?, h]

end Value

/-- The operator gives true on these operands. -/
def Operator.Holds (operator : Operator) (left right : Value) : Prop :=
  operator.evaluate left right = .ok (.boolean true)

namespace Operator

variable {a b : Value}

theorem equal_holds_iff : equal.Holds a b ↔ a.meaning = b.meaning := by
  simp [Holds, evaluate, result?, Value.beq_iff]

theorem less_holds_iff : less.Holds a b ↔ a.order? b = some .lt := by
  unfold Holds evaluate result?
  cases a.order? b <;> simp

theorem greater_holds_iff : greater.Holds a b ↔ a.order? b = some .gt := by
  unfold Holds evaluate result?
  cases a.order? b <;> simp

theorem equal_holds_list_iff {as bs : List Value} :
    equal.Holds (.list as) (.list bs) ↔ List.Forall₂ equal.Holds as bs := by
  rw [equal_holds_iff, Value.meaning, Value.meaning, Value.Meaning.list.injEq]
  induction as generalizing bs with
  | nil => cases bs <;> simp [Value.meanings]
  | cons a as ih => cases bs <;> simp [Value.meanings, equal_holds_iff, ih]

theorem equal_holds_decimal_iff {a b : Decimal} :
    equal.Holds (.decimal a) (.decimal b) ↔ a.toRat = b.toRat := by
  simp [equal_holds_iff, Value.meaning]

theorem less_holds_decimal_iff {a b : Decimal} :
    less.Holds (.decimal a) (.decimal b) ↔ a.toRat < b.toRat := by
  rw [less_holds_iff, Value.order?, Option.some.injEq, Decimal.compare_eq_cmp, cmp_eq_lt_iff]

theorem greater_holds_iff_less : greater.Holds a b ↔ less.Holds b a := by
  rw [greater_holds_iff, less_holds_iff, Value.order?_swap a b]
  cases a.order? b with
  | none => simp
  | some order => cases order <;> simp [Ordering.swap]

/-- The three comparisons of two values of one ordered kind, as an ordering decides them. -/
theorem exists_ordering (hOrdered : a.tag ∈ [Tag.integer, .decimal, .character, .string])
    (hTag : a.tag = b.tag) :
    ∃ order : Ordering,
      less.evaluate a b = .ok (.boolean (order = .lt)) ∧
      equal.evaluate a b = .ok (.boolean (order = .eq)) ∧
      greater.evaluate a b = .ok (.boolean (order = .gt)) := by
  obtain ⟨order, hOrder⟩ : ∃ order, a.order? b = some order := by
    cases a <;> simp [Value.tag] at hOrdered <;> cases b <;> simp [Value.tag, Value.order?] at hTag ⊢
  have hEqual : (a == b) = decide (order = .eq) := by
    rw [Bool.eq_iff_iff, decide_eq_true_iff, Value.beq_iff, Value.order?_eq_eq_iff hOrder]
  refine ⟨order, ?_, ?_, ?_⟩
  · simp [evaluate, result?, hOrder]
  · simp [evaluate, result?, hEqual]
  · simp [evaluate, result?, hOrder]

/-- Comparisons see no more of their operands than how these are ordered and of which kind they
are. -/
theorem evaluate_congr {operator : Operator} (hComparison : operator = less ∨ operator = greater)
    {c d : Value} (hOrder : a.order? c = b.order? d) (hLeft : a.tag = b.tag) (hRight : c.tag = d.tag) :
    operator.evaluate a c = operator.evaluate b d := by
  rcases hComparison with rfl | rfl <;> simp only [evaluate, result?, hOrder, hLeft, hRight]

end Operator

namespace Exec

variable {n : Nat} {a b : Value}

theorem executeCases_congr (h : a.meaning = b.meaning) (n : Nat) (default? : Option (List Stmt))
    (cases : List Case) : executeCases n a default? cases = executeCases n b default? cases := by
  induction n generalizing cases with
  | zero => rfl
  | succ n ih =>
    cases cases with
    | nil => rfl
    | cons case rest =>
      obtain ⟨value?, body⟩ := case
      cases value? with
      | none => exact ih rest
      | some value =>
        funext machine
        cases hValue : evaluate n value machine with
        | done result left =>
          have hSame : (result == a) = (result == b) := Value.beq_congr rfl h
          change (evaluate n value >>= _) machine = (evaluate n value >>= _) machine
          rw [bind_of_done hValue, bind_of_done hValue, hSame, ih rest]
        | failed error left => exact (bind_of_failed hValue).trans (bind_of_failed hValue).symm
        | exhausted => exact (bind_of_exhausted hValue).trans (bind_of_exhausted hValue).symm

end Exec

/-- Two values that no comparison tells apart: neither `<` and `>`, with whatever other operand, nor a
`SWITCH` whose subject or one of whose case values they are. -/
structure Value.Interchangeable (a b : Value) : Prop where
  left : ∀ operator, operator = .less ∨ operator = .greater → ∀ c,
    Operator.evaluate operator a c = operator.evaluate b c
  right : ∀ operator, operator = .less ∨ operator = .greater → ∀ c,
    Operator.evaluate operator c a = operator.evaluate c b
  subject : ∀ {n subject subject' machine left}, Exec.evaluate n subject machine = .done a left →
    Exec.evaluate n subject' machine = .done b left → ∀ cases,
    Exec.execute (n + 1) (.switch subject cases) machine =
      Exec.execute (n + 1) (.switch subject' cases) machine
  caseValue : ∀ {n value value' machine left}, Exec.evaluate n value machine = .done a left →
    Exec.evaluate n value' machine = .done b left → ∀ subject default? body rest,
    Exec.executeCases (n + 1) subject default? (⟨some value, body⟩ :: rest) machine =
      Exec.executeCases (n + 1) subject default? (⟨some value', body⟩ :: rest) machine

theorem Value.interchangeable {a b : Value} (h : a.meaning = b.meaning) : a.Interchangeable b where
  left operator hComparison c :=
    Operator.evaluate_congr hComparison (order?_congr h c) (tag_eq_of_meaning h) rfl
  right operator hComparison c := by
    have hOrder : c.order? a = c.order? b := by
      rw [order?_swap a c, order?_swap b c, order?_congr h c]
    exact Operator.evaluate_congr hComparison hOrder rfl (tag_eq_of_meaning h)
  subject {n subject subject' machine left} hSubject hSubject' cases := by
    change (Exec.evaluate n subject >>= _) machine = (Exec.evaluate n subject' >>= _) machine
    rw [Exec.bind_of_done hSubject, Exec.bind_of_done hSubject', Exec.executeCases_congr h]
  caseValue {n value value' machine left} hValue hValue' subject default? body rest := by
    have hSame : (a == subject) = (b == subject) := beq_congr h rfl
    change (Exec.evaluate n value >>= _) machine = (Exec.evaluate n value' >>= _) machine
    rw [Exec.bind_of_done hValue, Exec.bind_of_done hValue', hSame]

/-- `==` is an equivalence of all values, which goes through lists item by item and by the numbers
that decimals stand for, and `!=` is its negation. On each ordered kind `<`, `==` and `>` exclude one
another and one of them holds; `<` is transitive and `>` its converse. Equal values can stand for one
another. -/
theorem Operator.comparisons_cohere :
    Equivalence equal.Holds ∧
    (∀ as bs, equal.Holds (.list as) (.list bs) ↔ List.Forall₂ equal.Holds as bs) ∧
    (∀ a b : Decimal, (equal.Holds (.decimal a) (.decimal b) ↔ a.toRat = b.toRat) ∧
      (less.Holds (.decimal a) (.decimal b) ↔ a.toRat < b.toRat)) ∧
    (∀ a b, ∃ holds, equal.evaluate a b = .ok (.boolean holds) ∧
      notEqual.evaluate a b = .ok (.boolean !holds)) ∧
    (∀ a b : Value, a.tag ∈ [Tag.integer, .decimal, .character, .string] → a.tag = b.tag →
      ∃ order : Ordering,
        less.evaluate a b = .ok (.boolean (order = .lt)) ∧
        equal.evaluate a b = .ok (.boolean (order = .eq)) ∧
        greater.evaluate a b = .ok (.boolean (order = .gt))) ∧
    (∀ a b, greater.Holds a b ↔ less.Holds b a) ∧
    (∀ a b c, less.Holds a b → less.Holds b c → less.Holds a c) ∧
    ∀ a b, equal.Holds a b → a.Interchangeable b := by
  refine ⟨?_, ?_, ?_, ?_, ?_, ?_, ?_, ?_⟩
  · constructor
    · intro a
      exact equal_holds_iff.mpr rfl
    · intro a b h
      exact equal_holds_iff.mpr (equal_holds_iff.mp h).symm
    · intro a b c h h'
      exact equal_holds_iff.mpr ((equal_holds_iff.mp h).trans (equal_holds_iff.mp h'))
  · intro as bs
    exact equal_holds_list_iff
  · intro a b
    exact ⟨equal_holds_decimal_iff, less_holds_decimal_iff⟩
  · intro a b
    exact ⟨a == b, rfl, rfl⟩
  · intro a b hOrdered hTag
    exact exists_ordering hOrdered hTag
  · intro a b
    exact greater_holds_iff_less
  · intro a b c h h'
    exact less_holds_iff.mpr (Value.order?_trans (less_holds_iff.mp h) (less_holds_iff.mp h'))
  · intro a b h
    exact Value.interchangeable (equal_holds_iff.mp h)

/-- One has two forms here: both are less than two and a half, and they select the same case. -/
theorem Operator.comparisons_cohere_forms :
    equal.Holds (.list [.decimal ⟨10, 1⟩]) (.list [.decimal ⟨100, 2⟩]) ∧
    less.Holds (.decimal ⟨10, 1⟩) (.decimal ⟨25, 1⟩) ∧
    less.Holds (.decimal ⟨100, 2⟩) (.decimal ⟨25, 1⟩) ∧
    ∀ cases machine,
      Exec.execute 2 (.switch (.literal (.decimal ⟨10, 1⟩) none) cases) machine =
        Exec.execute 2 (.switch (.literal (.decimal ⟨100, 2⟩) none) cases) machine := by
  obtain ⟨-, hItems, hDecimals, -, -, -, -, hEqual⟩ := comparisons_cohere
  have hForms : equal.Holds (.decimal ⟨10, 1⟩) (.decimal ⟨100, 2⟩) := by
    rw [(hDecimals _ _).1]
    norm_num [Decimal.toRat]
  have hLess : less.Holds (.decimal ⟨10, 1⟩) (.decimal ⟨25, 1⟩) := by
    rw [(hDecimals _ _).2]
    norm_num [Decimal.toRat]
  have hSame := hEqual _ _ hForms
  refine ⟨(hItems _ _).mpr (.cons hForms .nil), hLess, ?_, ?_⟩
  · rw [Holds, ← hSame.left less (.inl rfl)]
    exact hLess
  · intro cases machine
    exact hSame.subject rfl rfl cases

end ProcLang
