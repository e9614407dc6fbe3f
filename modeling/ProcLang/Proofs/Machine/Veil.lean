import ProcLang.Proofs.Avoidance
import ProcLang.Proofs.Machine.Closed

/-! # Hidden scopes

Two machines are in step, but the second one has scopes more, which bind nothing but one name. A veil
says which scopes these are, and which scope of the first machine takes the place of each of the
others. Code that does not mention the name sees the same from both.
-/

namespace ProcLang

set_option autoImplicit false

/-- What tells two stores apart of which the second one has scopes more. -/
structure Veil where
  /-- The name that the hidden scopes may bind. -/
  name : String
  /-- The scope that takes the place of a scope, and for a hidden scope that of the one around it. -/
  seen : Nat → Nat
  isHidden : Nat → Bool
  /-- The scopes around a hidden scope. -/
  outer : Nat → List Nat
  /-- What a scope binds the name to. -/
  bound : Nat → Option Binding
  /-- A hidden scope inside which there is no other scope. -/
  secluded : Option Nat
  isHidden_of_secluded : ∀ {id}, secluded = some id → isHidden id = true

def Veil.partner? (V : Veil) (id : Nat) : Option Nat :=
  if V.isHidden id then none else some (V.seen id)

/-- What the name means in a hidden scope. -/
def Veil.meaning? (V : Veil) (id : Nat) : Option Value :=
  ((id :: V.outer id).findSome? V.bound).map Binding.value

theorem Veil.partner?_eq_some_iff {V : Veil} {id seen : Nat} :
    V.partner? id = some seen ↔ V.isHidden id = false ∧ V.seen id = seen := by
  simp [partner?]

theorem Veil.partner?_of_visible {V : Veil} {id : Nat} (h : V.isHidden id = false) :
    V.partner? id = some (V.seen id) := by
  simp [partner?, h]

theorem Veil.partner?_of_hidden {V : Veil} {id : Nat} (h : V.isHidden id = true) :
    V.partner? id = none := by
  simp [partner?, h]

theorem Veil.open_of_visible {V : Veil} {id : Nat} (h : V.isHidden id = false) :
    V.secluded ≠ some id := by
  intro hSecluded
  simp [V.isHidden_of_secluded hSecluded] at h

/-- The same function, which does not mention the name, in scopes that correspond. -/
inductive Callable.Veiled (V : Veil) : Callable → Callable → Prop
  | print : Veiled V .print .print
  | user {function closure} (hAvoids : function.avoids V.name = true)
      (hVisible : V.isHidden closure = false) :
    Veiled V (.user function (V.seen closure)) (.user function closure)

/-- A scope and what corresponds to it, which is nothing if the scope is hidden. -/
structure Scope.Veiled (V : Veil) (scope? : Option Scope) (scope' : Scope) : Prop where
  bindings : ∀ name, name ≠ V.name →
    scope'.bindings.get? name = scope?.bind fun scope => scope.bindings.get? name
  callables : ∀ key, Option.Rel (Callable.Veiled V)
    (scope?.bind fun scope => scope.callables.get? key) (scope'.callables.get? key)

namespace Scope.Veiled

variable {V V' : Veil} {scope? : Option Scope} {scope scope' : Scope} {name : String}

/-- Scopes in which nothing was defined correspond to each other, and may be hidden. -/
theorem blank (outer? : Option (List ScopeId)) (outer' : List ScopeId) :
    Scope.Veiled V (outer?.map fun outer => { outer }) { outer := outer' } := by
  constructor
  · intro name _
    cases outer? <;> rfl
  · intro key
    cases outer? <;> exact .none

/-- A new scope takes the place of a hidden one. -/
theorem take_place (h : Scope.Veiled V none scope') (outer : List ScopeId) :
    Scope.Veiled V (some { outer }) scope' :=
  ⟨h.bindings, h.callables⟩

theorem define (h : Scope.Veiled V (some scope) scope') (binding : Binding) :
    Scope.Veiled V (some { scope with bindings := scope.bindings.insert name binding })
      { scope' with bindings := scope'.bindings.insert name binding } := by
  constructor
  · intro other hOther
    have hBinding := h.bindings other hOther
    simp only [Option.bind_some] at hBinding ⊢
    rw [Table.get?_insert, Table.get?_insert, hBinding]
  · exact h.callables

theorem define_name (h : Scope.Veiled V scope? scope') (binding : Binding) :
    Scope.Veiled V scope? { scope' with bindings := scope'.bindings.insert V.name binding } := by
  constructor
  · intro other hOther
    rw [Table.get?_insert, if_neg hOther.symm]
    exact h.bindings other hOther
  · exact h.callables

/-- Another veil does as well if it is the same over the scopes of functions. -/
theorem congr (h : Scope.Veiled V scope? scope') (hName : V'.name = V.name)
    (hSame : ∀ {key function closure}, scope'.callables.get? key = some (.user function closure) →
      V.isHidden closure = false → V'.isHidden closure = false ∧ V'.seen closure = V.seen closure) :
    Scope.Veiled V' scope? scope' := by
  constructor
  · rw [hName]
    exact h.bindings
  · intro key
    have hCallables := h.callables key
    generalize (scope?.bind fun scope => scope.callables.get? key) = first? at hCallables ⊢
    generalize hGet : scope'.callables.get? key = second? at hCallables ⊢
    cases hCallables with
    | none => exact .none
    | some hCallable =>
      cases hCallable with
      | print => exact .some .print
      | user hAvoids hVisible =>
        obtain ⟨hVisible', hSeen⟩ := hSame hGet hVisible
        rw [← hSeen]
        exact .some (.user (hName ▸ hAvoids) hVisible')

end Scope.Veiled

structure Store.Veiled (V : Veil) (store store' : Store) : Prop where
  closed : store'.Closed
  /-- New scopes correspond to new scopes. -/
  fresh : ∀ k, V.isHidden (store'.scopes.size + k) = false ∧
    V.seen (store'.scopes.size + k) = store.scopes.size + k
  seen_lt : ∀ {id}, id < store'.scopes.size → V.seen id < store.scopes.size
  injective : ∀ {id id'}, V.isHidden id = false → V.isHidden id' = false →
    V.seen id = V.seen id' → id = id'
  scope : ∀ id, Scope.Veiled V ((V.partner? id).map store.scope) (store'.scope id)
  bound : ∀ id, (store'.scope id).bindings.get? V.name = V.bound id
  chain : ∀ id, store.chain (V.seen id) = (store'.chain id).filterMap V.partner?
  outer_eq : ∀ {id}, V.isHidden id = true → (store'.scope id).outer = V.outer id
  secluded_outer : ∀ {id outer}, outer ∈ (store'.scope id).outer → V.secluded ≠ some outer

namespace Store.Veiled

variable {V : Veil} {store store' : Store} {id : Nat} {name : String}
  (h : Store.Veiled V store store')
include h

theorem scope_of_visible (hVisible : V.isHidden id = false) :
    Scope.Veiled V (some (store.scope (V.seen id))) (store'.scope id) := by
  have hScope := h.scope id
  rwa [V.partner?_of_visible hVisible] at hScope

theorem seen_lt_iff : V.seen id < store.scopes.size ↔ id < store'.scopes.size := by
  refine ⟨fun hSeen => ?_, h.seen_lt⟩
  by_contra hNew
  obtain ⟨k, rfl⟩ : ∃ k, id = store'.scopes.size + k := ⟨id - store'.scopes.size, by omega⟩
  have hFresh := (h.fresh k).2
  omega

theorem hidden_lt (hHidden : V.isHidden id = true) : id < store'.scopes.size := by
  by_contra hNew
  obtain ⟨k, rfl⟩ : ∃ k, id = store'.scopes.size + k := ⟨id - store'.scopes.size, by omega⟩
  simp [(h.fresh k).1] at hHidden

theorem seen_eq_size_iff : V.seen id = store.scopes.size ↔ id = store'.scopes.size := by
  have hNew := (h.fresh 0).2
  constructor
  · intro hSeen
    have hLater : ¬ id < store'.scopes.size := by
      rw [← h.seen_lt_iff]
      omega
    obtain ⟨k, rfl⟩ : ∃ k, id = store'.scopes.size + k := ⟨id - store'.scopes.size, by omega⟩
    have hFresh := (h.fresh k).2
    omega
  · rintro rfl
    exact hNew

/-- A search along a chain passes by the hidden scopes. -/
theorem findSome?_chain {α : Type} (f : Nat → Option α) (id : Nat) :
    (store.chain (V.seen id)).findSome? f =
      (store'.chain id).findSome? fun j => (V.partner? j).bind f := by
  rw [h.chain]
  generalize store'.chain id = chain
  induction chain with
  | nil => rfl
  | cons j chain ih =>
    cases hPartner : V.partner? j with
    | none => simp [hPartner, ih]
    | some i => simp [List.findSome?_cons, hPartner, ih]

theorem resolve (hName : name ≠ V.name) (id : Nat) :
    Option.Rel (fun found found' => V.partner? found'.1 = some found.1 ∧ found'.2 = found.2)
      (store.resolve (V.seen id) name) (store'.resolve id name) := by
  rw [Store.resolve, h.findSome?_chain]
  apply findSome?_rel (Q := Eq) _ (List.forall₂_refl _)
  rintro j _ rfl
  rw [(h.scope j).bindings name hName]
  cases hPartner : V.partner? j with
  | none => exact .none
  | some i =>
    simp only [Option.map_some, Option.bind_some]
    cases (store.scope i).bindings.get? name with
    | none => exact .none
    | some binding => exact .some ⟨hPartner, rfl⟩

theorem lookup_eq (hName : name ≠ V.name) (id : Nat) :
    store'.lookup id name = store.lookup (V.seen id) name := by
  unfold lookup
  have hResolve := h.resolve hName id
  generalize store.resolve (V.seen id) name = found at hResolve
  generalize store'.resolve id name = found' at hResolve
  cases hResolve with
  | none => rfl
  | some hFound => simp [hFound.2]

theorem lookupFunction (id : Nat) (name : String) (arity : Nat) :
    Option.Rel (Callable.Veiled V) (store.lookupFunction (V.seen id) name arity)
      (store'.lookupFunction id name arity) := by
  rw [Store.lookupFunction, h.findSome?_chain]
  apply findSome?_rel (Q := Eq) _ (List.forall₂_refl _)
  rintro j _ rfl
  simpa only [Option.bind_map, Function.comp_def] using (h.scope j).callables (name, arity)

theorem lookup_name (hHidden : V.isHidden id = true) :
    store'.lookup id V.name = V.meaning? id := by
  have hChain : store'.chain id = id :: V.outer id := congrArg (id :: ·) (h.outer_eq hHidden)
  have hBound : ∀ j ∈ id :: V.outer id,
      ((store'.scope j).bindings.get? V.name).map (fun binding => (j, binding)) =
        (V.bound j).map fun binding => (j, binding) := fun j _ => by rw [h.bound]
  rw [lookup, Store.resolve, hChain, findSome?_congr hBound, Veil.meaning?]
  generalize id :: V.outer id = chain
  induction chain with
  | nil => rfl
  | cons j chain ih =>
    cases hj : V.bound j with
    | none => simpa [hj] using ih
    | some binding => simp [hj]

theorem map_scope_modify {other : Nat} (hVisible : V.isHidden id = false) (hOther : other ≠ id)
    (f : Scope → Scope) : (V.partner? other).map (store.modify (V.seen id) f).scope =
      (V.partner? other).map store.scope := by
  refine Option.map_congr fun seen hSeen => ?_
  obtain ⟨hVisible', rfl⟩ := Veil.partner?_eq_some_iff.mp hSeen
  have hOtherSeen : V.seen other ≠ V.seen id := mt (h.injective hVisible' hVisible) hOther
  rw [scope_modify_eq, if_neg fun hSame => hOtherSeen hSame.1]

/-- Scopes that correspond get the same binding. -/
theorem define (hVisible : V.isHidden id = false) (hName : name ≠ V.name) (value : Value)
    (isMutable : Bool) :
    Store.Veiled V (store.define (V.seen id) name value isMutable)
      (store'.define id name value isMutable) := by
  by_cases hId : id < store'.scopes.size
  · have hSeen := h.seen_lt hId
    constructor
    · exact h.closed.define id name value isMutable
    · simpa using h.fresh
    · intro other hOther
      simpa using h.seen_lt (by simpa using hOther)
    · exact h.injective
    · intro other
      rw [Store.define, Store.define, scope_modify hId]
      by_cases hOther : other = id
      · rw [if_pos hOther, hOther, V.partner?_of_visible hVisible, Option.map_some,
          scope_modify hSeen, if_pos rfl]
        exact (h.scope_of_visible hVisible).define _
      · rw [if_neg hOther, h.map_scope_modify hVisible hOther]
        exact h.scope other
    · intro other
      rw [bindings_define hId, if_neg (fun hSame => hName hSame.2), h.bound]
    · intro other
      rw [chain_define hId, chain_define hSeen]
      exact h.chain other
    · intro other hHidden
      rw [outer_define hId]
      exact h.outer_eq hHidden
    · intro other outer hOuter
      rw [outer_define hId] at hOuter
      exact h.secluded_outer hOuter
  · have hSeen := mt h.seen_lt_iff.mp hId
    rw [Store.define, Store.define, modify_of_size_le (Nat.le_of_not_lt hId),
      modify_of_size_le (Nat.le_of_not_lt hSeen)]
    exact h

/-- What the scopes correspond to that were there before the first store made one more. -/
theorem map_scope_newInside {parent : Nat} (hId : id ≠ store'.scopes.size) :
    (V.partner? id).map (store.newInside parent).2.scope = (V.partner? id).map store.scope := by
  refine Option.map_congr fun seen hSeen => ?_
  obtain ⟨-, rfl⟩ := Veil.partner?_eq_some_iff.mp hSeen
  rw [scope_newInside, if_neg (mt h.seen_eq_size_iff.mp hId)]

/-- The scopes that both stores make correspond. -/
theorem newInside {parent : Nat} (hParent : parent < store'.scopes.size)
    (hOpen : V.secluded ≠ some parent) :
    Store.Veiled V (store.newInside (V.seen parent)).2 (store'.newInside parent).2 := by
  obtain ⟨hNewVisible, hNewSeen⟩ := h.fresh 0
  simp only [Nat.add_zero] at hNewVisible hNewSeen
  have hNewPartner := V.partner?_of_visible hNewVisible
  constructor
  · exact h.closed.newInside hParent
  · intro k
    have hFresh := h.fresh (k + 1)
    rw [size_newInside, size_newInside, Nat.add_right_comm, Nat.add_assoc, Nat.add_right_comm,
      Nat.add_assoc]
    exact hFresh
  · intro id hId
    rw [size_newInside] at hId ⊢
    rcases Nat.lt_succ_iff_lt_or_eq.mp hId with hId | rfl
    · exact Nat.lt_succ_of_lt (h.seen_lt hId)
    · omega
  · exact h.injective
  · intro id
    rw [scope_newInside store']
    by_cases hNew : id = store'.scopes.size
    · rw [if_pos hNew, hNew, hNewPartner, hNewSeen, Option.map_some, scope_newInside, if_pos rfl]
      exact .blank (some _) _
    · rw [if_neg hNew, h.map_scope_newInside hNew]
      exact h.scope id
  · intro id
    rw [scope_newInside, ← h.bound]
    split
    · rename_i hNew
      rw [scope_of_size_le (Nat.le_of_eq hNew.symm)]
    · rfl
  · intro id
    rw [Store.chain, Store.chain, scope_newInside store']
    by_cases hNew : id = store'.scopes.size
    · subst hNew
      rw [hNewSeen, scope_newInside, if_pos rfl, if_pos rfl, List.filterMap_cons, hNewPartner,
        hNewSeen, h.chain]
    · rw [if_neg hNew, scope_newInside, if_neg (mt h.seen_eq_size_iff.mp hNew)]
      exact h.chain id
  · intro id hHidden
    rw [scope_newInside, if_neg (Nat.ne_of_lt (h.hidden_lt hHidden))]
    exact h.outer_eq hHidden
  · intro id outer hOuter hSecluded
    rw [scope_newInside] at hOuter
    split at hOuter
    · rcases List.mem_cons.mp hOuter with rfl | hOuter
      · exact hOpen hSecluded
      · exact h.secluded_outer hOuter hSecluded
    · exact h.secluded_outer hOuter hSecluded

theorem defineArguments (hVisible : V.isHidden id = false) {arguments : List (String × Value)}
    (hNames : ∀ argument ∈ arguments, argument.1 ≠ V.name) :
    Store.Veiled V (store.defineArguments (V.seen id) arguments)
      (store'.defineArguments id arguments) := by
  induction arguments generalizing store store' with
  | nil => exact h
  | cons argument arguments ih =>
    have hHead := hNames argument List.mem_cons_self
    exact ih (h.define hVisible hHead argument.2 false)
      fun other hMem => hNames other (List.mem_cons_of_mem argument hMem)

end Store.Veiled

/-- The environment that has entered one more scope. -/
def Environment.inside (env : Environment) (id : ScopeId) : Environment :=
  { env with entered := id :: env.entered }

/-- Two machines in step, each in an environment of its own. -/
structure Machine.Veiled (V : Veil) (env env' : Environment) (machine machine' : Machine) : Prop where
  store : Store.Veiled V machine.store machine'.store
  env_eq : machine.env = env
  env_eq' : machine'.env = env'
  sees : V.seen env'.current = env.current
  current_lt : env'.current < machine'.store.scopes.size
  printer_eq : machine'.printer = machine.printer
  callDepth_eq : machine'.callDepth = machine.callDepth
  callLimit_eq : machine'.callLimit = machine.callLimit

namespace Machine.Veiled

variable {V : Veil} {env env' : Environment} {machine machine' left left' : Machine} {name : String}
  (h : Machine.Veiled V env env' machine machine')
include h

theorem define {id : Nat} (hVisible : V.isHidden id = false) (hName : name ≠ V.name) (value : Value)
    (isMutable : Bool) :
    Machine.Veiled V env env'
      { machine with store := machine.store.define (V.seen id) name value isMutable }
      { machine' with store := machine'.store.define id name value isMutable } :=
  { h with
    store := h.store.define hVisible hName value isMutable
    current_lt := by simpa using h.current_lt }

/-- Both machines enter a new scope, unless no scope may be inside the current one. -/
theorem pushScope (hOpen : V.secluded ≠ some env'.current) :
    Machine.Veiled V (env.inside machine.store.scopes.size)
        (env'.inside machine'.store.scopes.size) machine.pushScope machine'.pushScope ∧
      V.isHidden machine'.store.scopes.size = false := by
  obtain ⟨hVisible, hSeen⟩ := h.store.fresh 0
  refine ⟨?_, hVisible⟩
  have hStore := h.store.newInside h.current_lt hOpen
  rw [h.sees, ← h.env_eq, ← h.env_eq'] at hStore
  constructor
  · exact hStore
  · rw [← h.env_eq]
    rfl
  · rw [← h.env_eq']
    rfl
  · exact hSeen
  · exact (Store.size_newInside ..).symm ▸ Nat.lt_succ_self _
  · exact h.printer_eq
  · exact h.callDepth_eq
  · exact h.callLimit_eq

/-- Both machines leave a scope that was not there before. -/
theorem popScope (hLeft : Machine.Veiled V (env.inside machine.store.scopes.size)
    (env'.inside machine'.store.scopes.size) left left') :
    Machine.Veiled V env env' left.popScope left'.popScope where
  store := hLeft.store
  env_eq := by
    rw [Machine.popScope, hLeft.env_eq]
    rfl
  env_eq' := by
    rw [Machine.popScope, hLeft.env_eq']
    rfl
  sees := h.sees
  current_lt := Nat.lt_trans h.current_lt hLeft.current_lt
  printer_eq := hLeft.printer_eq
  callDepth_eq := hLeft.callDepth_eq
  callLimit_eq := hLeft.callLimit_eq

/-- Both machines enter the body of a function that does not mention the name. -/
theorem enterFrame {closure : Nat} (hClosure : closure < machine'.store.scopes.size)
    (hVisible : V.isHidden closure = false) {arguments : List (String × Value)}
    (hNames : ∀ argument ∈ arguments, argument.1 ≠ V.name) :
    Machine.Veiled V ⟨machine.store.scopes.size, []⟩ ⟨machine'.store.scopes.size, []⟩
        (machine.enterFrame (V.seen closure) arguments) (machine'.enterFrame closure arguments) ∧
      V.isHidden machine'.store.scopes.size = false := by
  obtain ⟨hNewVisible, hNewSeen⟩ := h.store.fresh 0
  refine ⟨?_, hNewVisible⟩
  have hInside := h.store.newInside hClosure (Veil.open_of_visible hVisible)
  have hStore := hInside.defineArguments hNewVisible hNames
  simp only [Nat.add_zero] at hNewSeen
  constructor
  · rw [Machine.enterFrame_store, Machine.enterFrame_store, ← hNewSeen]
    exact hStore
  · rfl
  · rfl
  · exact hNewSeen
  · rw [Machine.size_enterFrame]
    exact Nat.lt_succ_self _
  · exact h.printer_eq
  · exact congrArg (· + 1) h.callDepth_eq
  · exact h.callLimit_eq

/-- Both machines return to where the function was called. -/
theorem leaveFrame (hLeft : Machine.Veiled V ⟨machine.store.scopes.size, []⟩
    ⟨machine'.store.scopes.size, []⟩ left left') :
    Machine.Veiled V env env' (left.leaveFrame machine.env) (left'.leaveFrame machine'.env) where
  store := hLeft.store
  env_eq := h.env_eq
  env_eq' := h.env_eq'
  sees := h.sees
  current_lt := Nat.lt_trans h.current_lt hLeft.current_lt
  printer_eq := hLeft.printer_eq
  callDepth_eq := congrArg (· - 1) hLeft.callDepth_eq
  callLimit_eq := hLeft.callLimit_eq

end Machine.Veiled

end ProcLang
