import ProcLang.Proofs.Chain
import ProcLang.Proofs.Declarations
import ProcLang.Proofs.Machine.Scopes
import ProcLang.Proofs.Typing.Values

/-! # Stores that agree with symbols

A store typing gives each scope the symbols of the names that it binds. A store conforms to it if
its bindings agree with the symbols and if calls reach what the defined functions make them reach.
Whether values must fit the types of symbols is left open by a proposition, `typed`; mutability must
always agree.
-/

namespace ProcLang

set_option autoImplicit false

abbrev StoreTyping := ScopeId → String → Option Variable

namespace StoreTyping

def bind (Φ : StoreTyping) (id : ScopeId) (name : String) (symbol : Variable) : StoreTyping :=
  fun id' name' => if id' = id ∧ name = name' then some symbol else Φ id' name'

theorem bind_of_eq {Φ : StoreTyping} {id : ScopeId} {name : String} {symbol : Variable}
    (h : Φ id name = some symbol) : Φ.bind id name symbol = Φ := by
  funext id' name'
  unfold bind
  split
  · rename_i hSame
    rw [hSame.1, ← hSame.2, h]
  · rfl

theorem bind_of_ne {Φ : StoreTyping} {id id' : ScopeId} (name : String) (symbol : Variable)
    (h : id' ≠ id) : Φ.bind id name symbol id' = Φ id' := by
  funext name'
  exact if_neg fun hSame => h hSame.1

/-- The symbol of the innermost binding of a name. -/
def view (Φ : StoreTyping) (store : Store) (id : ScopeId) (name : String) : Option Variable :=
  (store.chain id).findSome? fun id => Φ id name

end StoreTyping

/-- A binding as its symbol says it is. -/
structure Agrees (typed : Prop) (symbol : Variable) (binding : Binding) : Prop where
  isMutable : binding.isMutable = symbol.isMutable
  admits : typed → symbol.ty.admits binding.value.tag = true

structure Store.Conforms (typed : Prop) (functions : List Function) (Φ : StoreTyping)
    (store : Store) : Prop where
  bindings : ∀ id name, Option.Rel (Agrees typed) (Φ id name)
    ((store.scope id).bindings.get? name)
  /-- Scopes are younger than those around them, and the global scope is around all others. -/
  outer_lt : ∀ id, ∀ j ∈ (store.scope id).outer, j < id
  zero_mem : ∀ id < store.scopes.size, 0 ∈ store.chain id
  callables : ∀ id name arity, (store.scope id).callables.get? (name, arity) =
    if id = 0 then callable? functions name arity else none

/-- Scopes stay where they are, and those below `bound` keep their symbols. -/
structure Extends (bound : Nat) (Φ : StoreTyping) (store : Store) (Φ' : StoreTyping)
    (store' : Store) : Prop where
  size_le : store.scopes.size ≤ store'.scopes.size
  outer_eq : ∀ id < store.scopes.size, (store'.scope id).outer = (store.scope id).outer
  symbols_eq : ∀ id < bound, Φ' id = Φ id

namespace Extends

variable {bound : Nat} {Φ Φ' Φ'' : StoreTyping} {store store' store'' : Store}

theorem refl (bound : Nat) (Φ : StoreTyping) (store : Store) : Extends bound Φ store Φ store where
  size_le := Nat.le_refl _
  outer_eq _ _ := rfl
  symbols_eq _ _ := rfl

theorem mono (h : Extends bound Φ store Φ' store') {bound' : Nat} (hBound : bound' ≤ bound) :
    Extends bound' Φ store Φ' store' where
  size_le := h.size_le
  outer_eq := h.outer_eq
  symbols_eq id hId := h.symbols_eq id (by omega)

theorem trans (h : Extends bound Φ store Φ' store') (h' : Extends bound Φ' store' Φ'' store'') :
    Extends bound Φ store Φ'' store'' where
  size_le := Nat.le_trans h.size_le h'.size_le
  outer_eq id hId := by
    have hSize := h.size_le
    rw [h'.outer_eq id (by omega), h.outer_eq id hId]
  symbols_eq id hId := by
    rw [h'.symbols_eq id hId, h.symbols_eq id hId]

theorem define (Φ : StoreTyping) {id : ScopeId} (hId : id < store.scopes.size) (name : String)
    (symbol : Variable) (value : Value) (isMutable : Bool) :
    Extends id Φ store (Φ.bind id name symbol) (store.define id name value isMutable) where
  size_le := Nat.le_of_eq (Store.size_define ..).symm
  outer_eq _ _ := Store.outer_define hId ..
  symbols_eq _ hOther := StoreTyping.bind_of_ne name symbol (Nat.ne_of_lt hOther)

theorem newInside (bound : Nat) (Φ : StoreTyping) (store : Store) (parent : ScopeId) :
    Extends bound Φ store Φ (store.newInside parent).2 where
  size_le := by simp
  outer_eq id hId := by rw [Store.scope_newInside, if_neg (Nat.ne_of_lt hId)]
  symbols_eq _ _ := rfl

end Extends

namespace Store.Conforms

variable {typed : Prop} {functions : List Function} {Φ : StoreTyping} {store : Store}

theorem chain_le (h : store.Conforms typed functions Φ) {id j : ScopeId}
    (hj : j ∈ store.chain id) : j ≤ id := by
  rcases List.mem_cons.mp hj with rfl | hOuter
  · exact Nat.le_refl _
  · exact Nat.le_of_lt (h.outer_lt _ _ hOuter)

theorem symbols_of_size_le (h : store.Conforms typed functions Φ) {id : ScopeId}
    (hId : store.scopes.size ≤ id) (name : String) : Φ id name = none := by
  have hRel := h.bindings id name
  rw [scope_of_size_le hId] at hRel
  cases hSymbol : Φ id name with
  | none => rfl
  | some symbol =>
    rw [hSymbol] at hRel
    cases hRel

theorem zero_chain (h : store.Conforms typed functions Φ) : store.chain 0 = [0] := by
  unfold chain
  rw [List.eq_nil_iff_forall_not_mem.mpr fun j hj => Nat.not_lt_zero j (h.outer_lt 0 j hj)]

theorem resolve_of_view (h : store.Conforms typed functions Φ) {id : ScopeId} {name : String}
    {symbol : Variable} (hSymbol : Φ.view store id name = some symbol) :
    ∃ owner binding, store.resolve id name = some (owner, binding) ∧ owner ∈ store.chain id ∧
      Φ owner name = some symbol ∧ Agrees typed symbol binding := by
  unfold StoreTyping.view at hSymbol
  unfold resolve
  generalize store.chain id = chain at hSymbol ⊢
  induction chain with
  | nil => cases hSymbol
  | cons scope chain ih =>
    rw [List.findSome?_cons] at hSymbol ⊢
    have hRel := h.bindings scope name
    cases hHere : Φ scope name with
    | some found =>
      rw [hHere] at hSymbol hRel
      cases hSymbol
      cases hBinding : (store.scope scope).bindings.get? name with
      | none =>
        rw [hBinding] at hRel
        cases hRel
      | some binding =>
        rw [hBinding] at hRel
        cases hRel with
        | some hAgrees => exact ⟨scope, binding, rfl, List.mem_cons_self, hHere, hAgrees⟩
    | none =>
      rw [hHere] at hSymbol hRel
      cases hBinding : (store.scope scope).bindings.get? name with
      | some binding =>
        rw [hBinding] at hRel
        cases hRel
      | none =>
        obtain ⟨owner, binding, hResolve, hMem, hOwner, hAgrees⟩ := ih hSymbol
        exact ⟨owner, binding, hResolve, List.mem_cons_of_mem scope hMem, hOwner, hAgrees⟩

theorem lookupFunction_eq (h : store.Conforms typed functions Φ) {id : ScopeId}
    (hId : id < store.scopes.size) (name : String) (arity : Nat) :
    store.lookupFunction id name arity = callable? functions name arity := by
  have hOnly := findSome?_eq_of_mem (f := fun id => (store.scope id).callables.get? (name, arity))
    (h.zero_mem id hId) fun j _ hj => by rw [h.callables, if_neg hj]
  rw [lookupFunction, hOnly, h.callables, if_pos rfl]

theorem newInside (h : store.Conforms typed functions Φ) {parent : ScopeId}
    (hParent : parent < store.scopes.size) :
    (store.newInside parent).2.Conforms typed functions Φ where
  bindings id name := by
    rw [scope_newInside]
    split
    · rename_i hNew
      rw [h.symbols_of_size_le (Nat.le_of_eq hNew.symm)]
      exact .none
    · exact h.bindings id name
  outer_lt id j hj := by
    rw [scope_newInside] at hj
    split at hj
    · rename_i hNew
      exact hNew ▸ Nat.lt_of_le_of_lt (h.chain_le hj) hParent
    · exact h.outer_lt id j hj
  zero_mem id hId := by
    rw [chain, scope_newInside]
    split
    · exact List.mem_cons_of_mem _ (h.zero_mem parent hParent)
    · rename_i hOld
      rw [size_newInside] at hId
      exact h.zero_mem id (Nat.lt_of_le_of_ne (Nat.le_of_lt_succ hId) hOld)
  callables id name arity := by
    rw [scope_newInside]
    split
    · rename_i hNew
      rw [if_neg (hNew ▸ Nat.ne_zero_of_lt hParent)]
      rfl
    · exact h.callables id name arity

theorem define (h : store.Conforms typed functions Φ) {id : ScopeId} {name : String}
    {symbol : Variable} {value : Value} {isMutable : Bool} (hId : id < store.scopes.size)
    (hAgrees : Agrees typed symbol ⟨value, isMutable⟩) :
    (store.define id name value isMutable).Conforms typed functions (Φ.bind id name symbol) where
  bindings id' name' := by
    rw [bindings_define hId, StoreTyping.bind]
    split
    · exact .some hAgrees
    · exact h.bindings id' name'
  outer_lt id' j hj := by
    rw [outer_define hId] at hj
    exact h.outer_lt id' j hj
  zero_mem id' hId' := by
    rw [chain, outer_define hId]
    rw [size_define] at hId'
    exact h.zero_mem id' hId'
  callables id' name' arity := by
    rw [callables_define hId]
    exact h.callables id' name' arity

theorem view_eq (h : store.Conforms typed functions Φ) {bound : Nat} {Φ' : StoreTyping}
    {store' : Store} (hExtends : Extends bound Φ store Φ' store') {id : ScopeId}
    (hId : id < store.scopes.size) (hBound : id < bound) :
    Φ'.view store' id = Φ.view store id := by
  funext name
  unfold StoreTyping.view
  rw [chain, hExtends.outer_eq id hId]
  refine findSome?_congr fun j hj => ?_
  rw [hExtends.symbols_eq j (Nat.lt_of_le_of_lt (h.chain_le hj) hBound)]

theorem view_define (h : store.Conforms typed functions Φ) {id : ScopeId}
    (hId : id < store.scopes.size) (name : String) (symbol : Variable) (value : Value)
    (isMutable : Bool) (name' : String) :
    (Φ.bind id name symbol).view (store.define id name value isMutable) id name' =
      if name = name' then some symbol else Φ.view store id name' := by
  unfold StoreTyping.view
  rw [chain, outer_define hId, List.findSome?_cons]
  by_cases hName : name = name'
  · simp [StoreTyping.bind, hName]
  · rw [chain, List.findSome?_cons, if_neg hName]
    have hHere : Φ.bind id name symbol id name' = Φ id name' := if_neg fun hSame => hName hSame.2
    have hOuter : ((store.scope id).outer.findSome? fun j => Φ.bind id name symbol j name') =
        (store.scope id).outer.findSome? fun j => Φ j name' := by
      refine findSome?_congr fun j hj => ?_
      rw [StoreTyping.bind_of_ne name symbol (Nat.ne_of_lt (h.outer_lt id j hj))]
    rw [hHere, hOuter]

end Store.Conforms

end ProcLang
