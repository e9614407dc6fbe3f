import ProcLang.Machine.Run
import ProcLang.Proofs.Machine.Balance
import ProcLang.Proofs.Machine.Scopes

/-! # Assignments to items of lists

An assignment `x[i] = e` reads the list of `x`, then evaluates `i` and `e`, and then binds `x` to
the list that it has read with one item replaced. If `i` or `e` calls something that assigns to `x`
as well, that assignment is lost.
-/

namespace ProcLang

set_option autoImplicit false

variable {n : Nat} {machine machine' : Machine} {name : String}

namespace Exec

section Assign

variable {value : Value}

theorem lookup_eq_done {result : Value} :
    lookup name machine = .done result machine ↔
      machine.store.lookup machine.env.current name = some result := by
  unfold lookup
  constructor
  · intro h
    split at h
    · rename_i hFound
      cases h
      exact hFound
    · cases h
  · intro h
    rw [h]

theorem of_assign (h : assign name value machine = .done () machine') :
    ∃ owner binding, machine.store.resolve machine.env.current name = some (owner, binding) ∧
      machine' = { machine with store := machine.store.define owner name value true } := by
  unfold assign at h
  split at h
  · rename_i owner hTarget
    cases h
    unfold Store.assignmentTarget at hTarget
    split at hTarget
    · cases hTarget
    · rename_i found binding hResolve
      split at hTarget
      · cases hTarget
        exact ⟨owner, binding, hResolve, rfl⟩
      · cases hTarget
  · cases h
  · cases h

theorem lookup_of_assign (h : assign name value machine = .done () machine') :
    lookup name machine' = .done value machine' := by
  obtain ⟨owner, binding, hResolve, rfl⟩ := of_assign h
  rw [lookup_eq_done, Store.lookup, Store.resolve_define hResolve]
  rfl

/-- From all scopes, a name means another value where it means the variable that was assigned, and
nothing else where it does not. -/
theorem resolve_of_assign (h : assign name value machine = .done () machine') :
    ∃ owner, (∃ binding, machine.store.resolve machine.env.current name = some (owner, binding)) ∧
      ∀ id other, machine'.store.resolve id other =
        (machine.store.resolve id other).map fun (found, binding) =>
          (found, if found = owner ∧ other = name then ⟨value, true⟩ else binding) := by
  obtain ⟨owner, binding, hResolve, rfl⟩ := of_assign h
  obtain ⟨hBound, -⟩ := Store.of_resolve hResolve
  exact ⟨owner, ⟨binding, hResolve⟩, Store.resolve_define_of_bound hBound value true⟩

end Assign

end Exec

namespace Exec

variable {index value : Expr} {slot : Option Variable} {ty : Option Ty} {completion : Completion}

theorem of_element_assignment
    (h : execute n (.assignment (.element name index slot ty) value) machine =
      .done completion machine') :
    ∃ k items i machine₁ result machine₂, n = k + 1 ∧ completion = .normal ∧
      lookup name machine = .done (.list items) machine ∧
      evaluate k index machine = .done (.integer i) machine₁ ∧ 0 ≤ i ∧ i < items.length ∧
      evaluate k value machine₁ = .done result machine₂ ∧
      assign name (.list (items.set i.toNat result)) machine₂ = .done () machine' := by
  cases n with
  | zero => cases h
  | succ k =>
    obtain ⟨list, machine₀, hLookup, hItems⟩ := of_bind_done h
    obtain rfl : machine₀ = machine := lookup_machine hLookup
    obtain ⟨items, hList, hRest⟩ := of_ofExcept_bind_done hItems
    obtain rfl := Value.of_items hList
    obtain ⟨index, machine₁, hIndex, hRest⟩ := of_bind_done hRest
    obtain ⟨position, hPosition, hRest⟩ := of_ofExcept_bind_done hRest
    obtain ⟨i, rfl, hLower, hUpper, rfl⟩ := Value.of_position hPosition
    obtain ⟨result, machine₂, hValue, hRest⟩ := of_bind_done hRest
    obtain ⟨_, machine₃, hAssign, hRest⟩ := of_bind_done hRest
    cases hRest
    exact ⟨k, items, i, machine₁, result, machine₂, rfl, rfl, hLookup, hIndex, hLower, hUpper,
      hValue, hAssign⟩

theorem machine_eq_of_isCallFree {e : Expr} {result : Value} (hFree : e.isCallFree = true)
    (h : evaluate n e machine = .done result machine') : machine' = machine :=
  (((keeps_eq_of_isCallFree n).1 e hFree machine).of_done h).symm

/-- After an assignment `x[i] = e` the variable holds the value of `e` at the index, and at all
other positions what it held before the assignment. That is also what it held after `i` and `e` had
been evaluated if neither calls anything. Other variables are as the evaluation left them: whatever
a name means from some scope, other than the variable that was assigned, it still means from there. -/
theorem element_assignment_sets
    (h : execute n (.assignment (.element name index slot ty) value) machine =
      .done completion machine') :
    ∃ k items i machine₁ result machine₂ updated owner, n = k + 1 ∧ completion = .normal ∧
      lookup name machine = .done (.list items) machine ∧
      evaluate k index machine = .done (.integer i) machine₁ ∧ 0 ≤ i ∧ i < items.length ∧
      evaluate k value machine₁ = .done result machine₂ ∧
      machine'.env = machine.env ∧ lookup name machine' = .done (.list updated) machine' ∧
      updated.length = items.length ∧ updated[i.toNat]? = some result ∧
      (∀ position, position ≠ i.toNat → updated[position]? = items[position]?) ∧
      (∃ binding, machine₂.store.resolve machine.env.current name = some (owner, binding)) ∧
      (∀ id other, (other = name →
          ∀ binding, machine₂.store.resolve id other ≠ some (owner, binding)) →
        machine'.store.resolve id other = machine₂.store.resolve id other) ∧
      (index.isCallFree = true → value.isCallFree = true →
        lookup name machine₂ = .done (.list items) machine₂) := by
  have hEnv := (((AllBalanced.all n).execute _ machine).of_done h).env_eq
  obtain ⟨k, items, i, machine₁, result, machine₂, rfl, rfl, hLookup, hIndex, hLower, hUpper,
    hValue, hAssign⟩ := of_element_assignment h
  have hPosition : i.toNat < items.length := by omega
  obtain ⟨owner, hOwner, hResolves⟩ := resolve_of_assign hAssign
  have hSame : machine₂.env = machine.env := by
    obtain ⟨_, _, _, rfl⟩ := of_assign hAssign
    exact hEnv
  rw [hSame] at hOwner
  refine ⟨k, items, i, machine₁, result, machine₂, items.set i.toNat result, owner, rfl, rfl,
    hLookup, hIndex, hLower, hUpper, hValue, hEnv, lookup_of_assign hAssign, ?_, ?_, ?_, hOwner, ?_,
    ?_⟩
  · simp
  · simp [hPosition]
  · intro position hOther
    exact List.getElem?_set_ne (Ne.symm hOther)
  · intro id other hOther
    rw [hResolves]
    cases hFound : machine₂.store.resolve id other with
    | none => rfl
    | some found =>
      obtain ⟨found, binding⟩ := found
      have hElse : ¬(found = owner ∧ other = name) := by
        rintro ⟨rfl, hName⟩
        exact hOther hName binding hFound
      simp [hElse]
  · intro hIndexFree hValueFree
    obtain rfl := machine_eq_of_isCallFree hIndexFree hIndex
    obtain rfl := machine_eq_of_isCallFree hValueFree hValue
    exact hLookup

end Exec

namespace LostAssignment

/-- Assigns to another item of the list in which its result is put. -/
def f : Function :=
  ⟨"f", [], [], some "Integer",
    [.assignment (.element "xs" (.literal (.integer 1) none) none none) (.literal (.integer 9) none),
      .returns (.literal (.integer 5) none)], none⟩

def index : Expr :=
  .literal (.integer 0) none

def value : Expr :=
  .call "f" [] none none

def start : Machine :=
  let machine := Machine.new .buffer 10
  let store := machine.store.define 0 "xs" (.list [.integer 1, .integer 2]) true
  { machine with store := store.defineFunction 0 "f" 0 (.user f 0) }

end LostAssignment

namespace Exec

open LostAssignment

theorem element_assignment_sets_item : ∃ machine' updated,
    execute 10 (.assignment (.element "xs" index none none) value) start = .done .normal machine' ∧
    lookup "xs" machine' = .done (.list updated) machine' ∧
    updated[0]? = some (.integer 5) ∧ updated[1]? = some (.integer 2) := by
  have hDone : ∃ machine', execute 10 (.assignment (.element "xs" index none none) value) start =
      .done .normal machine' := ⟨_, rfl⟩
  obtain ⟨machine', hDone⟩ := hDone
  obtain ⟨k, items, i, machine₁, result, machine₂, updated, owner, hSteps, -, hItems, hIndex, -, -,
    hValue, -, hUpdated, -, hItem, hOthers, -⟩ := element_assignment_sets hDone
  cases hItems
  cases hSteps
  cases hIndex
  cases hValue
  exact ⟨machine', updated, hDone, hUpdated, hItem, hOthers 1 (by decide)⟩

/-- The list that was bound after index and value had been evaluated held another item. -/
theorem element_assignment_loses :
    ∃ machine k name index value slot ty machine₁ i machine₂ result machine' current updated
      position,
      evaluate k index machine = .done (.integer i) machine₁ ∧
      evaluate k value machine₁ = .done result machine₂ ∧
      lookup name machine₂ = .done (.list current) machine₂ ∧
      execute (k + 1) (.assignment (.element name index slot ty) value) machine =
        .done .normal machine' ∧
      lookup name machine' = .done (.list updated) machine' ∧
      position ≠ i.toNat ∧ current[position]? = some (.integer 9) ∧
      updated[position]? = some (.integer 2) :=
  ⟨start, 9, "xs", index, value, none, none, _, 0, _, .integer 5, _, [.integer 1, .integer 9],
    [.integer 5, .integer 2], 1, rfl, rfl, rfl, rfl, rfl, by decide, rfl, rfl⟩

end Exec

end ProcLang
