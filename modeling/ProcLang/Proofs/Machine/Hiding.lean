import ProcLang.Proofs.Machine.Veil

/-! # Hiding scopes

How a veil changes when only one of its machines changes. The second machine enters a scope that
becomes hidden, and binds the name in it. When the first machine enters a scope too, it can take the
place of the hidden one, as long as no other scope is inside that one.
-/

namespace ProcLang

set_option autoImplicit false

namespace Veil

/-- Nothing is hidden. -/
def clear (name : String) : Veil where
  name
  seen id := id
  isHidden _ := false
  outer _ := []
  bound _ := none
  secluded := none
  isHidden_of_secluded := nofun

/-- The next scope that the second store makes inside a scope is hidden. -/
def hide (V : Veil) (store store' : Store) (parent : Nat) : Veil where
  name := V.name
  seen id :=
    if id < store'.scopes.size then V.seen id
    else if id = store'.scopes.size then V.seen parent
    else store.scopes.size + (id - store'.scopes.size - 1)
  isHidden id := if id < store'.scopes.size then V.isHidden id else id = store'.scopes.size
  outer id := if id = store'.scopes.size then store'.chain parent else V.outer id
  bound := V.bound
  secluded := some store'.scopes.size
  isHidden_of_secluded := by
    rintro id ⟨⟩
    simp

/-- A scope binds the name. -/
def bind (V : Veil) (id : Nat) (binding : Binding) : Veil :=
  { V with bound := fun j => if j = id then some binding else V.bound j }

/-- There may be scopes inside all hidden scopes. -/
def expose (V : Veil) : Veil :=
  { V with
    secluded := none
    isHidden_of_secluded := nofun }

/-- The next scope of the first store takes the place of a scope that was hidden. -/
def occupy (V : Veil) (store store' : Store) (id : Nat) : Veil where
  name := V.name
  seen j :=
    if j = id then store.scopes.size
    else if j < store'.scopes.size then V.seen j
    else V.seen j + 1
  isHidden j := j ≠ id && V.isHidden j
  outer := V.outer
  bound := V.bound
  secluded := none
  isHidden_of_secluded := nofun

section Hide

variable (V : Veil) (store store' : Store) (parent : Nat) {id : Nat}

theorem hide_of_lt (h : id < store'.scopes.size) :
    (V.hide store store' parent).isHidden id = V.isHidden id ∧
      (V.hide store store' parent).seen id = V.seen id := by
  simp [hide, h]

theorem hide_self : (V.hide store store' parent).isHidden store'.scopes.size = true ∧
    (V.hide store store' parent).seen store'.scopes.size = V.seen parent := by
  simp [hide]

theorem hide_of_gt (h : store'.scopes.size < id) :
    (V.hide store store' parent).isHidden id = false ∧
      (V.hide store store' parent).seen id =
        store.scopes.size + (id - store'.scopes.size - 1) := by
  have hLt : ¬ id < store'.scopes.size := by omega
  have hNe : id ≠ store'.scopes.size := by omega
  simp [hide, hLt, hNe]

theorem partner?_hide_of_lt (h : id < store'.scopes.size) :
    (V.hide store store' parent).partner? id = V.partner? id := by
  simp [partner?, V.hide_of_lt store store' parent h]

end Hide

section Occupy

variable (V : Veil) (store store' : Store) (id : Nat) {j : Nat}

theorem occupy_self : (V.occupy store store' id).isHidden id = false ∧
    (V.occupy store store' id).seen id = store.scopes.size := by
  simp [occupy]

theorem occupy_of_lt (hOther : j ≠ id) (h : j < store'.scopes.size) :
    (V.occupy store store' id).isHidden j = V.isHidden j ∧
      (V.occupy store store' id).seen j = V.seen j := by
  simp [occupy, hOther, h]

theorem occupy_of_ge (hOther : j ≠ id) (h : store'.scopes.size ≤ j) :
    (V.occupy store store' id).isHidden j = V.isHidden j ∧
      (V.occupy store store' id).seen j = V.seen j + 1 := by
  simp [occupy, hOther, Nat.not_lt_of_le h]

theorem partner?_occupy_of_lt (hOther : j ≠ id) (h : j < store'.scopes.size) :
    (V.occupy store store' id).partner? j = V.partner? j := by
  simp [partner?, V.occupy_of_lt store store' id hOther h]

end Occupy

end Veil

namespace Store

variable {V : Veil} {store store' : Store} {parent id : Nat}

theorem scope_newInside_of_gt (parent k : Nat) :
    (store.newInside parent).2.scope (store.scopes.size + k + 1) = {} := by
  apply scope_of_size_le
  rw [size_newInside]
  omega

/-- A scope is the given one, another one that is there, or one that has not been made yet. -/
theorem scope_cases (store : Store) (id j : Nat) :
    j = id ∨ (j ≠ id ∧ j < store.scopes.size) ∨ ∃ k, j = store.scopes.size + k := by
  by_cases hj : j < store.scopes.size
  · by_cases hSame : j = id
    · exact .inl hSame
    · exact .inr (.inl ⟨hSame, hj⟩)
  · exact .inr (.inr ⟨j - store.scopes.size, by omega⟩)

theorem veiled_clear {name : String} (hClosed : store.Closed)
    (hUnbound : ∀ id, (store.scope id).bindings.get? name = none)
    (hAvoids : ∀ id key function closure, (store.scope id).callables.get? key =
      some (.user function closure) → function.avoids name = true) :
    Store.Veiled (.clear name) store store where
  closed := hClosed
  fresh _ := ⟨rfl, rfl⟩
  seen_lt hId := hId
  injective _ _ hSeen := hSeen
  scope id := by
    constructor
    · exact fun _ _ => rfl
    · intro key
      change Option.Rel _ ((store.scope id).callables.get? key) _
      cases hGet : (store.scope id).callables.get? key with
      | none => exact .none
      | some callable =>
        cases callable with
        | print => exact .some .print
        | user function closure =>
          exact .some (.user (V := .clear name) (hAvoids _ _ _ _ hGet) rfl)
  bound id := hUnbound id
  chain id := List.filterMap_some.symm
  outer_eq hHidden := by cases hHidden
  secluded_outer _ hSecluded := by cases hSecluded

namespace Veiled

variable (h : Store.Veiled V store store')
include h

theorem expose : Store.Veiled V.expose store store' where
  closed := h.closed
  fresh := h.fresh
  seen_lt := h.seen_lt
  injective := h.injective
  scope id := (h.scope id).congr rfl fun _ hVisible => ⟨hVisible, rfl⟩
  bound := h.bound
  chain := h.chain
  outer_eq := h.outer_eq
  secluded_outer _ hSecluded := by cases hSecluded

theorem bind (hHidden : V.isHidden id = true) (value : Value) :
    Store.Veiled (V.bind id ⟨value, true⟩) store (store'.define id V.name value true) := by
  have hId := h.hidden_lt hHidden
  constructor
  · exact h.closed.define id V.name value true
  · rw [size_define]
    exact h.fresh
  · intro other hOther
    exact h.seen_lt (by simpa using hOther)
  · exact h.injective
  · intro other
    have hScope : Scope.Veiled V ((V.partner? other).map store.scope)
        ((store'.define id V.name value true).scope other) := by
      rw [Store.define, scope_modify hId]
      split
      · rename_i hSame
        rw [← hSame]
        exact (h.scope other).define_name _
      · exact h.scope other
    exact hScope.congr rfl fun _ hVisible => ⟨hVisible, rfl⟩
  · intro other
    change ((store'.define id V.name value true).scope other).bindings.get? V.name = _
    rw [bindings_define hId, h.bound]
    simp [Veil.bind]
  · intro other
    rw [chain_define hId]
    exact h.chain other
  · intro other hOther
    rw [outer_define hId]
    exact h.outer_eq hOther
  · intro other outer hOuter
    rw [outer_define hId] at hOuter
    exact h.secluded_outer hOuter

section Hide

theorem injective_hide {id' : Nat} (hId : (V.hide store store' parent).isHidden id = false)
    (hId' : (V.hide store store' parent).isHidden id' = false)
    (hSeen : (V.hide store store' parent).seen id = (V.hide store store' parent).seen id') :
    id = id' := by
  have hKnown {id : Nat} (hId : (V.hide store store' parent).isHidden id = false) :
      V.isHidden id = false ∧ (V.hide store store' parent).seen id = V.seen id ∧
          V.seen id < store.scopes.size ∨
        store'.scopes.size < id ∧ (V.hide store store' parent).seen id =
          store.scopes.size + (id - store'.scopes.size - 1) := by
    rcases Nat.lt_trichotomy id store'.scopes.size with hLess | rfl | hMore
    · obtain ⟨hVisible, hSame⟩ := V.hide_of_lt store store' parent hLess
      exact .inl ⟨hVisible ▸ hId, hSame, h.seen_lt hLess⟩
    · simp [V.hide_self store store' parent] at hId
    · exact .inr ⟨hMore, (V.hide_of_gt store store' parent hMore).2⟩
  rcases hKnown hId with ⟨hVisible, hOldSeen, hLess⟩ | ⟨hMore, hNewSeen⟩ <;>
    rcases hKnown hId' with ⟨hVisible', hOldSeen', hLess'⟩ | ⟨hMore', hNewSeen'⟩
  · exact h.injective hVisible hVisible' (by omega)
  · omega
  · omega
  · omega

theorem scope_hide (id : Nat) :
    Scope.Veiled (V.hide store store' parent)
      (((V.hide store store' parent).partner? id).map store.scope)
      ((store'.newInside parent).2.scope id) := by
  rw [scope_newInside]
  rcases Nat.lt_trichotomy id store'.scopes.size with hLess | rfl | hMore
  · rw [if_neg (Nat.ne_of_lt hLess), V.partner?_hide_of_lt store store' parent hLess]
    refine (h.scope id).congr rfl fun hGet hVisible => ?_
    obtain ⟨hSame, hSeen⟩ := V.hide_of_lt store store' parent (h.closed.closure_lt hGet)
    exact ⟨hSame.trans hVisible, hSeen⟩
  · rw [Veil.partner?_of_hidden (V.hide_self store store' parent).1, if_pos rfl]
    exact .blank none _
  · obtain ⟨hVisible, hSeen⟩ := V.hide_of_gt store store' parent hMore
    rw [Veil.partner?_of_visible hVisible, if_neg (Nat.ne_of_gt hMore), Option.map_some, hSeen,
      scope_of_size_le (Nat.le_of_lt hMore), scope_of_size_le (Nat.le_add_right ..)]
    exact .blank (some []) []

theorem chain_hide (hParent : parent < store'.scopes.size) (id : Nat) :
    store.chain ((V.hide store store' parent).seen id) =
      ((store'.newInside parent).2.chain id).filterMap (V.hide store store' parent).partner? := by
  have hOld {id : Nat} (hId : id < store'.scopes.size) : store.chain (V.seen id) =
      (store'.chain id).filterMap (V.hide store store' parent).partner? := by
    refine (h.chain id).trans (List.filterMap_congr fun j hMem => ?_)
    exact (V.partner?_hide_of_lt store store' parent (h.closed.lt_of_mem_chain hId hMem)).symm
  rw [Store.chain.eq_def (store'.newInside parent).2, scope_newInside]
  rcases Nat.lt_trichotomy id store'.scopes.size with hLess | rfl | hMore
  · rw [if_neg (Nat.ne_of_lt hLess), (V.hide_of_lt store store' parent hLess).2]
    exact hOld hLess
  · obtain ⟨hHidden, hSeen⟩ := V.hide_self store store' parent
    rw [if_pos rfl, hSeen, List.filterMap_cons, Veil.partner?_of_hidden hHidden]
    exact hOld hParent
  · obtain ⟨hVisible, hSeen⟩ := V.hide_of_gt store store' parent hMore
    have hNone : store.scope ((V.hide store store' parent).seen id) = {} := by
      rw [hSeen]
      exact scope_of_size_le (Nat.le_add_right ..)
    simp [Store.chain, if_neg (Nat.ne_of_gt hMore), scope_of_size_le (Nat.le_of_lt hMore), hNone,
      Veil.partner?_of_visible hVisible]

/-- Only the second store makes a scope. -/
theorem hide (hParent : parent < store'.scopes.size) :
    Store.Veiled (V.hide store store' parent) store (store'.newInside parent).2 := by
  obtain ⟨hSelf, hSelfSeen⟩ := V.hide_self store store' parent
  constructor
  · exact h.closed.newInside hParent
  · intro k
    have hLater : store'.scopes.size < store'.scopes.size + 1 + k := by omega
    obtain ⟨hVisible, hSeen⟩ := V.hide_of_gt store store' parent hLater
    rw [size_newInside]
    refine ⟨hVisible, ?_⟩
    omega
  · intro id hId
    rw [size_newInside] at hId
    rcases Nat.lt_succ_iff_lt_or_eq.mp hId with hId | rfl
    · rw [(V.hide_of_lt store store' parent hId).2]
      exact h.seen_lt hId
    · rw [hSelfSeen]
      exact h.seen_lt hParent
  · exact h.injective_hide
  · exact h.scope_hide
  · intro id
    rw [scope_newInside]
    split
    · rename_i hId
      have hBound := h.bound id
      rw [scope_of_size_le (Nat.le_of_eq hId.symm)] at hBound
      exact hBound
    · exact h.bound id
  · exact h.chain_hide hParent
  · intro id hHidden
    rw [scope_newInside]
    rcases Nat.lt_trichotomy id store'.scopes.size with hLess | rfl | hMore
    · rw [(V.hide_of_lt store store' parent hLess).1] at hHidden
      simp [Veil.hide, Nat.ne_of_lt hLess, h.outer_eq hHidden]
    · simp [Veil.hide]
    · simp [(V.hide_of_gt store store' parent hMore).1] at hHidden
  · intro id outer hOuter hSecluded
    have hOuterLt : outer < store'.scopes.size := by
      rw [scope_newInside] at hOuter
      split at hOuter
      · exact h.closed.lt_of_mem_chain hParent hOuter
      · exact h.closed.outer_lt hOuter
    cases hSecluded
    exact Nat.lt_irrefl _ hOuterLt

/-- In the new hidden scope the name means what it means in the hidden scope around. -/
theorem meaning?_hide (hHidden : V.isHidden parent = true) :
    (V.hide store store' parent).meaning? store'.scopes.size = V.meaning? parent := by
  have hChain : store'.chain parent = parent :: V.outer parent :=
    congrArg (parent :: ·) (h.outer_eq hHidden)
  have hBound : V.bound store'.scopes.size = none := by
    rw [← h.bound, scope_of_size_le (Nat.le_refl _)]
    rfl
  simp [Veil.meaning?, Veil.hide, hChain, hBound]

end Hide

section Occupy

variable (hSecluded : V.secluded = some id)
include hSecluded

/-- Scopes that have not been made yet still correspond to such scopes. -/
theorem fresh_occupy (k : Nat) :
    (V.occupy store store' id).isHidden (store'.scopes.size + k) = false ∧
      (V.occupy store store' id).seen (store'.scopes.size + k) = store.scopes.size + k + 1 := by
  have hId := h.hidden_lt (V.isHidden_of_secluded hSecluded)
  obtain ⟨hVisible, hSeen⟩ := h.fresh k
  have hOther : store'.scopes.size + k ≠ id := by omega
  obtain ⟨hVisible', hSeen'⟩ := V.occupy_of_ge store store' id hOther (Nat.le_add_right _ k)
  exact ⟨hVisible'.trans hVisible, by omega⟩

theorem injective_occupy {j j' : Nat} (hj : (V.occupy store store' id).isHidden j = false)
    (hj' : (V.occupy store store' id).isHidden j' = false)
    (hSeen : (V.occupy store store' id).seen j = (V.occupy store store' id).seen j') : j = j' := by
  have hKnown {j : Nat} (hj : (V.occupy store store' id).isHidden j = false) :
      j = id ∧ (V.occupy store store' id).seen j = store.scopes.size ∨
      V.isHidden j = false ∧ V.seen j < store.scopes.size ∧
        (V.occupy store store' id).seen j = V.seen j ∨
      ∃ k, j = store'.scopes.size + k ∧
        (V.occupy store store' id).seen j = store.scopes.size + k + 1 := by
    rcases store'.scope_cases id j with rfl | ⟨hOther, hLess⟩ | ⟨k, rfl⟩
    · exact .inl ⟨rfl, (V.occupy_self store store' j).2⟩
    · obtain ⟨hVisible, hSeen⟩ := V.occupy_of_lt store store' id hOther hLess
      exact .inr (.inl ⟨hVisible ▸ hj, h.seen_lt hLess, hSeen⟩)
    · exact .inr (.inr ⟨k, rfl, (h.fresh_occupy hSecluded k).2⟩)
  rcases hKnown hj with ⟨hSame, hjSeen⟩ | ⟨hVisible, hLess, hjSeen⟩ | ⟨k, hk, hjSeen⟩ <;>
    rcases hKnown hj' with ⟨hSame', hjSeen'⟩ | ⟨hVisible', hLess', hjSeen'⟩ | ⟨k', hk', hjSeen'⟩
  case inr.inl.inr.inl => exact h.injective hVisible hVisible' (by omega)
  all_goals omega

omit hSecluded in
/-- What the other scopes correspond to. -/
theorem map_scope_occupy {j : Nat} (hOther : j ≠ id) (hj : j < store'.scopes.size) :
    ((V.occupy store store' id).partner? j).map (store.newInside (V.seen id)).2.scope =
      (V.partner? j).map store.scope := by
  rw [V.partner?_occupy_of_lt store store' id hOther hj]
  exact h.map_scope_newInside (Nat.ne_of_lt hj)

theorem scope_occupy (j : Nat) :
    Scope.Veiled (V.occupy store store' id)
      (((V.occupy store store' id).partner? j).map (store.newInside (V.seen id)).2.scope)
      (store'.scope j) := by
  have hHidden := V.isHidden_of_secluded hSecluded
  have hScope : Scope.Veiled (V.occupy store store' id) ((V.partner? j).map store.scope)
      (store'.scope j) := by
    refine (h.scope j).congr rfl fun {_ _ closure} hGet hVisible => ?_
    have hOther : closure ≠ id := by
      rintro rfl
      simp [hHidden] at hVisible
    obtain ⟨hSame, hSeen⟩ := V.occupy_of_lt store store' id hOther (h.closed.closure_lt hGet)
    exact ⟨hSame.trans hVisible, hSeen⟩
  rcases store'.scope_cases id j with rfl | ⟨hOther, hj⟩ | ⟨k, rfl⟩
  · obtain ⟨hVisible, hSeen⟩ := V.occupy_self store store' j
    rw [Veil.partner?_of_visible hVisible, hSeen, Option.map_some, scope_newInside, if_pos rfl]
    rw [Veil.partner?_of_hidden hHidden] at hScope
    exact hScope.take_place _
  · rwa [h.map_scope_occupy hOther hj]
  · obtain ⟨hVisible, hSeen⟩ := h.fresh_occupy hSecluded k
    rw [Veil.partner?_of_visible hVisible, hSeen, Option.map_some, scope_newInside_of_gt,
      scope_of_size_le (Nat.le_add_right ..)]
    exact .blank (some []) []

theorem chain_occupy (j : Nat) : (store.newInside (V.seen id)).2.chain
    ((V.occupy store store' id).seen j) =
      (store'.chain j).filterMap (V.occupy store store' id).partner? := by
  have hOuter : (store'.scope j).outer.filterMap V.partner? =
      (store'.scope j).outer.filterMap (V.occupy store store' id).partner? := by
    refine List.filterMap_congr fun outer hMem => ?_
    have hOther : outer ≠ id := by
      rintro rfl
      exact h.secluded_outer hMem hSecluded
    exact (V.partner?_occupy_of_lt store store' id hOther (h.closed.outer_lt hMem)).symm
  have hChain := h.chain j
  rw [Store.chain, Store.chain, List.filterMap_cons] at hChain
  rw [Store.chain, Store.chain, List.filterMap_cons, ← hOuter]
  rcases store'.scope_cases id j with rfl | ⟨hOther, hj⟩ | ⟨k, rfl⟩
  · obtain ⟨hVisible, hSeen⟩ := V.occupy_self store store' j
    rw [Veil.partner?_of_hidden (V.isHidden_of_secluded hSecluded)] at hChain
    rw [Veil.partner?_of_visible hVisible, hSeen, scope_newInside, if_pos rfl, Store.chain, hChain]
  · rw [V.partner?_occupy_of_lt store store' id hOther hj,
      (V.occupy_of_lt store store' id hOther hj).2, scope_newInside,
      if_neg (Nat.ne_of_lt (h.seen_lt hj))]
    exact hChain
  · obtain ⟨hVisible, hSeen⟩ := h.fresh_occupy hSecluded k
    rw [Veil.partner?_of_visible hVisible, hSeen, scope_newInside_of_gt,
      scope_of_size_le (Nat.le_add_right ..)]
    rfl

/-- Only the first store makes a scope. It is inside the one that code in the secluded scope sees. -/
theorem occupy : Store.Veiled (V.occupy store store' id) (store.newInside (V.seen id)).2 store' where
  closed := h.closed
  fresh k := by
    obtain ⟨hVisible, hSeen⟩ := h.fresh_occupy hSecluded k
    rw [size_newInside]
    refine ⟨hVisible, ?_⟩
    omega
  seen_lt := by
    intro j hj
    rw [size_newInside]
    by_cases hSame : j = id
    · rw [hSame, (V.occupy_self store store' id).2]
      exact Nat.lt_succ_self _
    · rw [(V.occupy_of_lt store store' id hSame hj).2]
      exact Nat.lt_succ_of_lt (h.seen_lt hj)
  injective := h.injective_occupy hSecluded
  scope := h.scope_occupy hSecluded
  bound := h.bound
  chain := h.chain_occupy hSecluded
  outer_eq hHidden := by
    simp only [Veil.occupy, Bool.and_eq_true] at hHidden
    exact h.outer_eq hHidden.2
  secluded_outer _ hNone := by cases hNone

end Occupy

end Veiled

end Store

namespace Machine

variable {V : Veil} {env env' : Environment} {machine machine' : Machine}

/-- A name that a machine does not know: no scope binds it and no function mentions it. -/
structure Unaware (machine : Machine) (name : String) : Prop where
  unbound : ∀ id, (machine.store.scope id).bindings.get? name = none
  avoids : ∀ {id key function closure}, (machine.store.scope id).callables.get? key =
    some (.user function closure) → function.avoids name = true

/-- A new machine does not know any name. -/
theorem unaware_new (destination : Destination) (callLimit : Nat) (name : String) :
    (Machine.new destination callLimit).Unaware name where
  unbound id := by
    rw [scope_new]
    split <;> rfl
  avoids hGet := (user_not_in_new destination callLimit hGet).elim

theorem veiled_clear {name : String} (hClosed : machine.Closed) (hUnaware : machine.Unaware name) :
    Veiled (.clear name) machine.env machine.env machine machine where
  store := Store.veiled_clear hClosed.store hUnaware.unbound fun _ _ _ _ hGet => hUnaware.avoids hGet
  env_eq := rfl
  env_eq' := rfl
  sees := rfl
  current_lt := hClosed.current_lt
  printer_eq := rfl
  callDepth_eq := rfl
  callLimit_eq := rfl

namespace Veiled

variable (h : Veiled V env env' machine machine')
include h

theorem expose : Veiled V.expose env env' machine machine' :=
  { h with store := h.store.expose }

/-- The second machine binds the name in a hidden scope. -/
theorem bind (hHidden : V.isHidden env'.current = true) (value : Value) :
    Veiled (V.bind env'.current ⟨value, true⟩) env env' machine
      { machine' with store := machine'.store.define env'.current V.name value true } :=
  { h with
    store := h.store.bind hHidden value
    current_lt := by simpa using h.current_lt }

/-- The second machine enters a scope that becomes hidden. -/
theorem hide : Veiled (V.hide machine.store machine'.store env'.current) env
    (env'.inside machine'.store.scopes.size) machine machine'.pushScope where
  store := by
    have hStore := h.store.hide h.current_lt
    rw [← h.env_eq'] at hStore ⊢
    exact hStore
  env_eq := h.env_eq
  env_eq' := by
    rw [← h.env_eq']
    rfl
  sees := (V.hide_self machine.store machine'.store env'.current).2.trans h.sees
  current_lt := (Store.size_newInside ..).symm ▸ Nat.lt_succ_self _
  printer_eq := h.printer_eq
  callDepth_eq := h.callDepth_eq
  callLimit_eq := h.callLimit_eq

/-- The first machine enters a scope, which takes the place of the one where the second machine is. -/
theorem occupy (hSecluded : V.secluded = some env'.current) :
    Veiled (V.occupy machine.store machine'.store env'.current)
      (env.inside machine.store.scopes.size) env' machine.pushScope machine' where
  store := by
    have hStore := h.store.occupy hSecluded
    rw [h.sees, ← h.env_eq] at hStore
    exact hStore
  env_eq := by
    rw [← h.env_eq]
    rfl
  env_eq' := h.env_eq'
  sees := (V.occupy_self machine.store machine'.store env'.current).2
  current_lt := h.current_lt
  printer_eq := h.printer_eq
  callDepth_eq := h.callDepth_eq
  callLimit_eq := h.callLimit_eq

end Veiled

end Machine

end ProcLang
