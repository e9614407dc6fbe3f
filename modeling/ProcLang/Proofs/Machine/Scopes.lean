import ProcLang.Proofs.Chain
import ProcLang.Machine.Exec

/-! # Scopes of changed stores

What the scopes of a store look like after a scope was made, a name was defined or the body of a
function was entered, and what names then mean.
-/

namespace ProcLang

set_option autoImplicit false

namespace Store

theorem scope_newInside (store : Store) (parent id : ScopeId) :
    (store.newInside parent).2.scope id =
      if id = store.scopes.size then { outer := store.chain parent } else store.scope id := by
  unfold scope newInside
  rw [Array.getElem?_push]
  split <;> rfl

theorem scope_modify {store : Store} {id : ScopeId} (h : id < store.scopes.size) (f : Scope → Scope)
    (id' : ScopeId) :
    (store.modify id f).scope id' = if id' = id then f (store.scope id) else store.scope id' := by
  unfold scope modify
  simp only [Array.getElem?_modify, eq_comm (a := id')]
  split
  · rename_i hSame
    rw [← hSame, Array.getElem?_eq_getElem h]
    rfl
  · rfl

theorem modify_of_size_le {store : Store} {id : ScopeId} (h : store.scopes.size ≤ id)
    (f : Scope → Scope) : store.modify id f = store := by
  unfold modify
  congr 1
  apply Array.ext_getElem?
  intro j
  rw [Array.getElem?_modify]
  split
  · rename_i hSame
    subst hSame
    rw [Array.getElem?_eq_none h]
    rfl
  · rfl

theorem scope_modify_eq (store : Store) (id : ScopeId) (f : Scope → Scope) (id' : ScopeId) :
    (store.modify id f).scope id' =
      if id' = id ∧ id < store.scopes.size then f (store.scope id) else store.scope id' := by
  by_cases h : id < store.scopes.size
  · simp [scope_modify h, h]
  · simp [modify_of_size_le (Nat.le_of_not_lt h), h]

@[simp] theorem size_modify (store : Store) (id : ScopeId) (f : Scope → Scope) :
    (store.modify id f).scopes.size = store.scopes.size :=
  Array.size_modify

@[simp] theorem size_define (store : Store) (id : ScopeId) (name : String) (value : Value)
    (isMutable : Bool) : (store.define id name value isMutable).scopes.size = store.scopes.size :=
  size_modify ..

@[simp] theorem size_newInside (store : Store) (parent : ScopeId) :
    (store.newInside parent).2.scopes.size = store.scopes.size + 1 :=
  Array.size_push ..

theorem scope_of_size_le {store : Store} {id : ScopeId} (h : store.scopes.size ≤ id) :
    store.scope id = {} := by
  rw [scope, Array.getElem?_eq_none h]
  rfl

section Define

variable {store : Store} {id : ScopeId} (h : id < store.scopes.size) (name : String) (value : Value)
  (isMutable : Bool)
include h

theorem outer_define (id' : ScopeId) :
    ((store.define id name value isMutable).scope id').outer = (store.scope id').outer := by
  rw [define, scope_modify h]
  split
  · rename_i hSame
    rw [hSame]
  · rfl

theorem callables_define (id' : ScopeId) :
    ((store.define id name value isMutable).scope id').callables = (store.scope id').callables := by
  rw [define, scope_modify h]
  split
  · rename_i hSame
    rw [hSame]
  · rfl

theorem bindings_define (id' : ScopeId) (name' : String) :
    ((store.define id name value isMutable).scope id').bindings.get? name' =
      if id' = id ∧ name = name' then some ⟨value, isMutable⟩
      else (store.scope id').bindings.get? name' := by
  rw [define, scope_modify h]
  by_cases hSame : id' = id
  · simp [hSame, Table.get?_insert]
  · simp [hSame]

theorem chain_define (id' : ScopeId) :
    (store.define id name value isMutable).chain id' = store.chain id' := by
  rw [chain, chain, outer_define h]

end Define

/-- Binds the parameters of a function in a scope. -/
def defineArguments (store : Store) (id : ScopeId) (arguments : List (String × Value)) : Store :=
  arguments.foldl (fun store (name, value) => store.define id name value false) store

/-- What one definition keeps between two stores is kept by the definitions of all arguments. -/
theorem defineArguments_induction {P : Store → Store → Prop} {id id' : ScopeId}
    (hDefine : ∀ {store store'} name value, P store store' →
      P (store.define id name value false) (store'.define id' name value false))
    {store store' : Store} (h : P store store') (arguments : List (String × Value)) :
    P (store.defineArguments id arguments) (store'.defineArguments id' arguments) := by
  induction arguments generalizing store store' with
  | nil => exact h
  | cons argument arguments ih =>
    obtain ⟨name, value⟩ := argument
    exact ih (hDefine name value h)

theorem of_defineArguments {P : Store → Prop} {id : ScopeId}
    (hDefine : ∀ {store} name value, P store → P (store.define id name value false)) {store : Store}
    (h : P store) (arguments : List (String × Value)) : P (store.defineArguments id arguments) :=
  @defineArguments_induction (fun store _ => P store) id id hDefine store store h arguments

section Resolve

variable {store : Store} {id owner : ScopeId} {name : String} {binding : Binding}

theorem lt_size_of_get? (h : (store.scope id).bindings.get? name = some binding) :
    id < store.scopes.size := by
  apply Nat.lt_of_not_le
  intro hSize
  rw [scope_of_size_le hSize] at h
  cases h

theorem of_resolve (h : store.resolve id name = some (owner, binding)) :
    (store.scope owner).bindings.get? name = some binding ∧ owner < store.scopes.size ∧
      ∃ inner outer, store.chain id = inner ++ owner :: outer ∧
        ∀ j ∈ inner, (store.scope j).bindings.get? name = none := by
  obtain ⟨inner, j, outer, hChain, hFound, hInner⟩ := List.findSome?_eq_some_iff.mp h
  simp only [Option.map_eq_some_iff, Prod.mk.injEq] at hFound
  obtain ⟨found, hGet, rfl, rfl⟩ := hFound
  refine ⟨hGet, lt_size_of_get? hGet, inner, outer, hChain, ?_⟩
  intro k hMem
  exact Option.map_eq_none_iff.mp (hInner k hMem)

/-- Where a name is bound already, to define it there is to change what is found in that scope. -/
theorem resolve_define_of_bound {old : Binding}
    (hOld : (store.scope owner).bindings.get? name = some old) (value : Value) (isMutable : Bool)
    (id : ScopeId) (other : String) :
    (store.define owner name value isMutable).resolve id other =
      (store.resolve id other).map fun (found, binding) =>
        (found, if found = owner ∧ other = name then ⟨value, isMutable⟩ else binding) := by
  have hOwner := lt_size_of_get? hOld
  rw [resolve, resolve, chain_define hOwner, List.map_findSome?]
  apply findSome?_congr
  intro j _
  rw [bindings_define hOwner]
  by_cases hSame : j = owner ∧ other = name
  · obtain ⟨rfl, rfl⟩ := hSame
    simp [hOld]
  · rw [if_neg fun hEq => hSame ⟨hEq.1, hEq.2.symm⟩, Function.comp_apply]
    cases (store.scope j).bindings.get? other with
    | none => rfl
    | some binding => exact congrArg (fun found => some (j, found)) (if_neg hSame).symm

theorem resolve_define (h : store.resolve id name = some (owner, binding)) (value : Value)
    (isMutable : Bool) :
    (store.define owner name value isMutable).resolve id name =
      some (owner, ⟨value, isMutable⟩) := by
  simp [resolve_define_of_bound (of_resolve h).1, h]

end Resolve

end Store

theorem Machine.enterFrame_store (machine : Machine) (closure : ScopeId)
    (arguments : List (String × Value)) :
    (machine.enterFrame closure arguments).store =
      (machine.store.newInside closure).2.defineArguments machine.store.scopes.size arguments :=
  rfl

theorem Machine.enterFrame_env (machine : Machine) (closure : ScopeId)
    (arguments : List (String × Value)) :
    (machine.enterFrame closure arguments).env = ⟨machine.store.scopes.size, []⟩ :=
  rfl

end ProcLang
