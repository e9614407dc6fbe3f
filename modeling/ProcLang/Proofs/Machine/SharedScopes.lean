import ProcLang.Proofs.Machine.Scopes

/-! # Shared scopes

Environments share the scopes of one store. A scope can be inside another that other environments
have entered, and it lasts when all of them have left it. Whatever they did before, names mean what
the nearest scope that binds them says, and to assign to a name is to change that very binding, for
all environments from which it can be seen.
-/

namespace ProcLang

set_option autoImplicit false

namespace Store

/-- The scope that a scope was made in. -/
def parent? (store : Store) (id : ScopeId) : Option ScopeId :=
  (store.scope id).outer.head?

/-- The scopes from one on, each before its parent, up to one that has none. -/
inductive ParentChain (store : Store) : ScopeId → List ScopeId → Prop where
  | root {id : ScopeId} (hParent : store.parent? id = none) : ParentChain store id [id]
  | inside {id parent : ScopeId} {chain : List ScopeId} (hParent : store.parent? id = some parent)
      (rest : ParentChain store parent chain) : ParentChain store id (id :: chain)

/-- The first scope, from one on along the parents, in which something is found. -/
inductive Nearest {α : Type} (store : Store) (found? : Scope → Option α) :
    ScopeId → ScopeId → α → Prop where
  | here {id : ScopeId} {a : α} (hFound : found? (store.scope id) = some a) :
    Nearest store found? id id a
  | outside {id parent owner : ScopeId} {a : α} (hNone : found? (store.scope id) = none)
      (hParent : store.parent? id = some parent) (h : Nearest store found? parent owner a) :
    Nearest store found? id owner a

/-- The nearest binding of a name. -/
abbrev NearestBinding (store : Store) (name : String) : ScopeId → ScopeId → Binding → Prop :=
  store.Nearest fun scope => scope.bindings.get? name

/-- The nearest function with a name and a number of parameters. -/
abbrev NearestFunction (store : Store) (name : String) (arity : Nat) :
    ScopeId → ScopeId → Callable → Prop :=
  store.Nearest fun scope => scope.callables.get? (name, arity)

end Store

/-- A store with the environments that share it. -/
structure SharedScopes where
  store : Store := {}
  envs : List Environment := []

/-- What is done to environments, which are numbered in the order in which they were made, or to
their root or current scopes. -/
inductive ScopeAction where
  | new
  | enclosed (index : Nat) (atRoot : Bool)
  | push (index : Nat)
  | pop (index : Nat)
  | define (index : Nat) (name : String) (value : Value) (isMutable : Bool)
  | assign (index : Nat) (name : String) (value : Value)
  | defineFunction (index : Nat) (name : String) (arity : Nat) (callable : Callable)
  | clear (index : Nat) (atRoot : Bool)

def Environment.place (env : Environment) (atRoot : Bool) : ScopeId :=
  if atRoot then env.root else env.current

namespace SharedScopes

/-- Where there is no environment of that number, nothing is done. -/
def atEnv (s : SharedScopes) (index : Nat) (f : Environment → SharedScopes) : SharedScopes :=
  (s.envs[index]?).elim s f

def step (s : SharedScopes) : ScopeAction → SharedScopes
  | .new =>
    let (env, store) := Environment.new s.store
    ⟨store, s.envs ++ [env]⟩
  | .enclosed index atRoot => s.atEnv index fun env =>
    let (inner, store) := Environment.enclosed s.store (env.place atRoot)
    ⟨store, s.envs ++ [inner]⟩
  | .push index => s.atEnv index fun env =>
    let (env, store) := env.push s.store
    ⟨store, s.envs.set index env⟩
  | .pop index => s.atEnv index fun env => { s with envs := s.envs.set index env.pop }
  | .define index name value isMutable => s.atEnv index fun env =>
    { s with store := s.store.define env.current name value isMutable }
  | .assign index name value => s.atEnv index fun env =>
    match s.store.assign env.current name value with
    | .ok store => { s with store }
    | .error _ => s
  | .defineFunction index name arity callable => s.atEnv index fun env =>
    { s with store := s.store.defineFunction env.current name arity callable }
  | .clear index atRoot => s.atEnv index fun env =>
    { s with store := s.store.clear (env.place atRoot) }

def run (actions : List ScopeAction) : SharedScopes :=
  actions.foldl step {}

end SharedScopes

/-- Lookups find what the nearest scope has, and nothing else. -/
structure Store.LooksUpNearest (store : Store) : Prop where
  lookup : ∀ id name value, store.lookup id name = some value ↔
    ∃ owner binding, store.NearestBinding name id owner binding ∧ binding.value = value
  lookupFunction : ∀ id name arity callable, store.lookupFunction id name arity = some callable ↔
    ∃ owner, store.NearestFunction name arity id owner callable

/-- How an assignment in an environment ends, and what names mean after it in whatever scope they
are looked up. -/
structure SharedScopes.AssignsNearest (s : SharedScopes) (index : Nat) (env : Environment)
    (name : String) (value : Value) : Prop where
  succeeds : (∃ store, s.store.assign env.current name value = .ok store) ↔
    ∃ owner binding, s.store.NearestBinding name env.current owner binding ∧
      binding.isMutable = true
  immutable : s.store.assign env.current name value = .error .immutable ↔
    ∃ owner binding, s.store.NearestBinding name env.current owner binding ∧
      binding.isMutable = false
  undefined : s.store.assign env.current name value = .error .undefined ↔
    ¬∃ owner binding, s.store.NearestBinding name env.current owner binding
  steps : ∀ {store}, s.store.assign env.current name value = .ok store →
    s.step (.assign index name value) = { s with store }
  reads : ∀ {store owner binding}, s.store.assign env.current name value = .ok store →
    s.store.NearestBinding name env.current owner binding →
    (∀ id binding, s.store.NearestBinding name id owner binding →
      store.lookup id name = some value) ∧
    (∀ id other, ¬(other = name ∧ ∃ binding, s.store.NearestBinding name id owner binding) →
      store.lookup id other = s.store.lookup id other) ∧
    ∀ id other arity, store.lookupFunction id other arity = s.store.lookupFunction id other arity
  stays : ∀ {error}, s.store.assign env.current name value = .error error →
    s.step (.assign index name value) = s

namespace Store

variable {α β : Type} {store store' : Store} {id owner : ScopeId} {name : String}

/-- The scopes around a scope are those on the chain of its parent, which is older. -/
structure Linked (store : Store) : Prop where
  outer_eq : ∀ {id parent}, store.parent? id = some parent →
    (store.scope id).outer = store.chain parent
  lt : ∀ {id parent}, store.parent? id = some parent → parent < id

theorem parent?_of_outer_eq (h : ∀ id, (store'.scope id).outer = (store.scope id).outer)
    (id : ScopeId) : store'.parent? id = store.parent? id := by
  rw [parent?, parent?, h]

theorem lt_size_of_parent? {parent : ScopeId} (h : store.parent? id = some parent) :
    id < store.scopes.size := by
  apply Nat.lt_of_not_le
  intro hSize
  rw [parent?, scope_of_size_le hSize] at h
  cases h

theorem outer_modify {f : Scope → Scope} (hf : ∀ scope, (f scope).outer = scope.outer)
    (id id' : ScopeId) : ((store.modify id f).scope id').outer = (store.scope id').outer := by
  rw [scope_modify_eq]
  split
  · rename_i hSame
    rw [hf, hSame.1]
  · rfl

namespace Linked

theorem empty : Linked {} := by
  constructor <;> exact fun hParent => absurd (lt_size_of_parent? hParent) (Nat.not_lt_zero _)

theorem of_outer_eq (h : store.Linked)
    (hOuter : ∀ id, (store'.scope id).outer = (store.scope id).outer) : store'.Linked where
  outer_eq hParent := by
    rw [parent?_of_outer_eq hOuter] at hParent
    rw [chain, hOuter, hOuter]
    exact h.outer_eq hParent
  lt hParent := by
    rw [parent?_of_outer_eq hOuter] at hParent
    exact h.lt hParent

theorem modify (h : store.Linked) (id : ScopeId) {f : Scope → Scope}
    (hf : ∀ scope, (f scope).outer = scope.outer) : (store.modify id f).Linked :=
  h.of_outer_eq (outer_modify hf id)

/-- The new scope has nothing around it, as if it had not been made yet. -/
theorem newRoot (h : store.Linked) : store.newRoot.2.Linked := by
  refine h.of_outer_eq fun id => ?_
  unfold scope Store.newRoot
  rw [Array.getElem?_push]
  split
  · rename_i hSize
    rw [hSize, Array.getElem?_eq_none (Nat.le_refl _)]
    rfl
  · rfl

theorem newInside (h : store.Linked) {parent : ScopeId} (hParent : parent < store.scopes.size) :
    (store.newInside parent).2.Linked := by
  have hChain {j : ScopeId} (hj : j < store.scopes.size) :
      (store.newInside parent).2.chain j = store.chain j := by
    rw [chain, chain, scope_newInside, if_neg (Nat.ne_of_lt hj)]
  have hCases {id parent' : ScopeId} (hFound : (store.newInside parent).2.parent? id = some parent') :
      (id = store.scopes.size ∧ parent' = parent) ∨
        (id ≠ store.scopes.size ∧ store.parent? id = some parent') := by
    rw [parent?, scope_newInside] at hFound
    split at hFound
    · exact .inl ⟨‹_›, (Option.some.inj hFound).symm⟩
    · exact .inr ⟨‹_›, hFound⟩
  constructor
  · intro id parent' hFound
    rcases hCases hFound with ⟨rfl, rfl⟩ | ⟨hOld, hFound⟩
    · rw [scope_newInside, if_pos rfl, hChain hParent]
    · have hLess := Nat.lt_trans (h.lt hFound) (lt_size_of_parent? hFound)
      rw [scope_newInside, if_neg hOld, hChain hLess, h.outer_eq hFound]
  · intro id parent' hFound
    rcases hCases hFound with ⟨rfl, rfl⟩ | ⟨-, hFound⟩
    · exact hParent
    · exact h.lt hFound

/-- A chain is a scope before the chain of its parent. -/
theorem chain_eq (h : store.Linked) (id : ScopeId) :
    store.chain id = id :: ((store.parent? id).elim [] store.chain) := by
  rw [chain]
  cases hParent : store.parent? id with
  | none => rw [List.head?_eq_none_iff.mp hParent]; rfl
  | some parent => rw [h.outer_eq hParent]; rfl

/-- The induction is on the scope, whose parent is older. -/
theorem parentChain (h : store.Linked) (id : ScopeId) : store.ParentChain id (store.chain id) := by
  induction id using Nat.strongRecOn with
  | ind id ih =>
    rw [h.chain_eq]
    cases hParent : store.parent? id with
    | none => exact .root hParent
    | some parent => exact .inside hParent (ih parent (h.lt hParent))

theorem le_of_mem_chain (h : store.Linked) {id j : ScopeId} {chain : List ScopeId}
    (hChain : store.ParentChain id chain) (hMem : j ∈ chain) : j ≤ id := by
  induction hChain with
  | root => exact Nat.le_of_eq (List.mem_singleton.mp hMem)
  | inside hParent _ ih =>
    rcases List.mem_cons.mp hMem with rfl | hMem
    · exact Nat.le_refl _
    · exact Nat.le_trans (ih hMem) (Nat.le_of_lt (h.lt hParent))

theorem nodup (h : store.Linked) {id : ScopeId} {chain : List ScopeId}
    (hChain : store.ParentChain id chain) : chain.Nodup := by
  induction hChain with
  | root => exact List.nodup_cons.mpr ⟨List.not_mem_nil, List.nodup_nil⟩
  | inside hParent rest ih =>
    refine List.nodup_cons.mpr ⟨fun hMem => ?_, ih⟩
    exact Nat.not_lt_of_le (h.le_of_mem_chain rest hMem) (h.lt hParent)

/-- A search along a chain ends where the nearest scope has something. -/
theorem search_eq_some_iff (h : store.Linked) (found? : Scope → Option α)
    (pick : ScopeId → α → β) (id : ScopeId) (b : β) :
    (store.chain id).findSome? (fun j => (found? (store.scope j)).map (pick j)) = some b ↔
      ∃ owner a, store.Nearest found? id owner a ∧ pick owner a = b := by
  induction id using Nat.strongRecOn with
  | ind id ih =>
    rw [h.chain_eq, List.findSome?_cons]
    cases hFound : found? (store.scope id) with
    | some a =>
      constructor
      · rintro ⟨⟩
        exact ⟨id, a, .here hFound, rfl⟩
      · rintro ⟨owner, a', hNearest, rfl⟩
        cases hNearest with
        | here hSame =>
          cases hFound.symm.trans hSame
          rfl
        | outside hNone => cases hFound.symm.trans hNone
    | none =>
      cases hParent : store.parent? id with
      | none =>
        refine ⟨nofun, ?_⟩
        rintro ⟨owner, a, hNearest, -⟩
        cases hNearest with
        | here hSame => cases hFound.symm.trans hSame
        | outside _ hOther => cases hParent.symm.trans hOther
      | some parent =>
        refine (ih parent (h.lt hParent)).trans ⟨?_, ?_⟩
        · rintro ⟨owner, a, hNearest, hPick⟩
          exact ⟨owner, a, .outside hFound hParent hNearest, hPick⟩
        · rintro ⟨owner, a, hNearest, hPick⟩
          cases hNearest with
          | here hSame => cases hFound.symm.trans hSame
          | outside _ hOther hNearest =>
            cases hParent.symm.trans hOther
            exact ⟨owner, a, hNearest, hPick⟩

theorem resolve_eq_some_iff (h : store.Linked) {binding : Binding} :
    store.resolve id name = some (owner, binding) ↔
      store.NearestBinding name id owner binding := by
  refine (h.search_eq_some_iff (fun scope => scope.bindings.get? name) Prod.mk id
    (owner, binding)).trans ?_
  constructor
  · rintro ⟨_, _, hNearest, ⟨⟩⟩
    exact hNearest
  · exact fun hNearest => ⟨owner, binding, hNearest, rfl⟩

theorem looksUpNearest (h : store.Linked) : store.LooksUpNearest where
  lookup id name value := by
    rw [lookup, Option.map_eq_some_iff]
    constructor
    · rintro ⟨⟨owner, binding⟩, hResolve, hValue⟩
      exact ⟨owner, binding, h.resolve_eq_some_iff.mp hResolve, hValue⟩
    · rintro ⟨owner, binding, hNearest, hValue⟩
      exact ⟨(owner, binding), h.resolve_eq_some_iff.mpr hNearest, hValue⟩
  lookupFunction id name arity callable := by
    have hSearch := h.search_eq_some_iff (fun scope => scope.callables.get? (name, arity))
      (fun _ callable => callable) id callable
    simp only [Option.map_id'] at hSearch
    rw [lookupFunction, hSearch]
    simp

end Linked

theorem lookupFunction_define (hOwner : owner < store.scopes.size) (value : Value)
    (isMutable : Bool) (id : ScopeId) (other : String) (arity : Nat) :
    (store.define owner name value isMutable).lookupFunction id other arity =
      store.lookupFunction id other arity := by
  rw [lookupFunction, lookupFunction, chain_define hOwner]
  apply findSome?_congr
  intro j _
  rw [callables_define hOwner]

section Assign

variable (h : store.Linked) (id : ScopeId) (name : String) (value : Value)
include h

theorem Linked.assign_iff :
    ((∃ store', store.assign id name value = .ok store') ↔
      ∃ owner binding, store.NearestBinding name id owner binding ∧ binding.isMutable = true) ∧
    (store.assign id name value = .error .immutable ↔
      ∃ owner binding, store.NearestBinding name id owner binding ∧ binding.isMutable = false) ∧
    (store.assign id name value = .error .undefined ↔
      ¬∃ owner binding, store.NearestBinding name id owner binding) := by
  simp only [← h.resolve_eq_some_iff]
  unfold assign assignmentTarget
  cases store.resolve id name with
  | none => simp [Except.map]
  | some found =>
    obtain ⟨owner, binding⟩ := found
    cases hMutable : binding.isMutable <;> simp [hMutable, Except.map]

/-- What a successful assignment does: it defines the name where its nearest binding is. -/
theorem Linked.eq_define_of_assign {binding : Binding}
    (hNearest : store.NearestBinding name id owner binding)
    (hAssign : store.assign id name value = .ok store') :
    store' = store.define owner name value true := by
  unfold assign assignmentTarget at hAssign
  rw [h.resolve_eq_some_iff.mpr hNearest] at hAssign
  cases hMutable : binding.isMutable with
  | false => simp [hMutable, Except.map] at hAssign
  | true => simpa [hMutable, Except.map, eq_comm] using hAssign

end Assign

end Store

namespace SharedScopes

variable {s : SharedScopes} {index : Nat} {env : Environment} {name : String} {value : Value}

theorem step_of_assign_ok {store : Store} (hEnv : s.envs[index]? = some env)
    (hAssign : s.store.assign env.current name value = .ok store) :
    s.step (.assign index name value) = { s with store } := by
  rw [step, atEnv, hEnv, Option.elim_some, hAssign]

theorem step_of_assign_error {error : AssignError} (hEnv : s.envs[index]? = some env)
    (hAssign : s.store.assign env.current name value = .error error) :
    s.step (.assign index name value) = s := by
  rw [step, atEnv, hEnv, Option.elim_some, hAssign]

theorem assignsNearest (h : s.store.Linked) (hEnv : s.envs[index]? = some env) (name : String)
    (value : Value) : s.AssignsNearest index env name value where
  succeeds := (h.assign_iff env.current name value).1
  immutable := (h.assign_iff env.current name value).2.1
  undefined := (h.assign_iff env.current name value).2.2
  steps := step_of_assign_ok hEnv
  stays := step_of_assign_error hEnv
  reads := by
    intro store owner binding hAssign hNearest
    obtain rfl := h.eq_define_of_assign env.current name value hNearest hAssign
    obtain ⟨hBound, hOwner, -⟩ := Store.of_resolve (h.resolve_eq_some_iff.mpr hNearest)
    refine ⟨fun id found hFound => ?_, fun id other hOther => ?_, ?_⟩
    · rw [Store.lookup, Store.resolve_define (h.resolve_eq_some_iff.mpr hFound)]
      rfl
    · rw [Store.lookup, Store.lookup, Store.resolve_define_of_bound hBound]
      cases hResolve : s.store.resolve id other with
      | none => rfl
      | some found =>
        obtain ⟨owner', binding'⟩ := found
        have hElse : ¬(owner' = owner ∧ other = name) := by
          rintro ⟨rfl, rfl⟩
          exact hOther ⟨rfl, binding', h.resolve_eq_some_iff.mp hResolve⟩
        simp [hElse]
    · exact Store.lookupFunction_define hOwner value true

/-- Scopes are linked, and those of the environments have been made. -/
structure Sound (s : SharedScopes) : Prop where
  linked : s.store.Linked
  lt_size : ∀ env ∈ s.envs, ∀ id ∈ env.root :: env.entered, id < s.store.scopes.size

theorem place_mem (env : Environment) (atRoot : Bool) :
    env.place atRoot ∈ env.root :: env.entered := by
  obtain ⟨root, entered⟩ := env
  cases atRoot with
  | true => exact List.mem_cons_self
  | false =>
    cases entered with
    | nil => exact List.mem_cons_self
    | cons id entered => exact List.mem_cons_of_mem root List.mem_cons_self

namespace Sound

theorem place_lt (h : s.Sound) (hMem : env ∈ s.envs) (atRoot : Bool) :
    env.place atRoot < s.store.scopes.size :=
  h.lt_size env hMem _ (place_mem env atRoot)

theorem withStore (h : s.Sound) {store : Store} (hLinked : store.Linked)
    (hSize : s.store.scopes.size ≤ store.scopes.size) : Sound { s with store } :=
  ⟨hLinked, fun env hMem id hId => Nat.lt_of_lt_of_le (h.lt_size env hMem id hId) hSize⟩

theorem modify (h : s.Sound) (id : ScopeId) {f : Scope → Scope}
    (hf : ∀ scope, (f scope).outer = scope.outer) :
    Sound { s with store := s.store.modify id f } :=
  h.withStore (h.linked.modify id hf) (Nat.le_of_eq (Store.size_modify ..).symm)

theorem withEnvs (h : s.Sound) {envs : List Environment}
    (hEnvs : ∀ env ∈ envs, env ∈ s.envs ∨ ∀ id ∈ env.root :: env.entered, id < s.store.scopes.size) :
    Sound { s with envs } := by
  refine ⟨h.linked, fun env hMem => ?_⟩
  rcases hEnvs env hMem with hOld | hNew
  · exact h.lt_size env hOld
  · exact hNew

theorem addEnv (h : s.Sound) (hEnv : ∀ id ∈ env.root :: env.entered, id < s.store.scopes.size) :
    Sound { s with envs := s.envs ++ [env] } := by
  refine h.withEnvs fun other hMem => ?_
  rcases List.mem_append.mp hMem with hOld | hNew
  · exact .inl hOld
  · exact .inr (List.mem_singleton.mp hNew ▸ hEnv)

theorem setEnv (h : s.Sound) (index : Nat)
    (hEnv : ∀ id ∈ env.root :: env.entered, id < s.store.scopes.size) :
    Sound { s with envs := s.envs.set index env } := by
  refine h.withEnvs fun other hMem => ?_
  rcases List.mem_or_eq_of_mem_set hMem with hOld | rfl
  · exact .inl hOld
  · exact .inr hEnv

theorem newInside (h : s.Sound) {parent : ScopeId} (hParent : parent < s.store.scopes.size) :
    Sound { s with store := (s.store.newInside parent).2 } :=
  h.withStore (h.linked.newInside hParent) (by simp)

theorem atEnv (h : s.Sound) (index : Nat) {f : Environment → SharedScopes}
    (hf : ∀ env ∈ s.envs, (f env).Sound) : (s.atEnv index f).Sound := by
  unfold SharedScopes.atEnv
  cases hEnv : s.envs[index]? with
  | none => exact h
  | some env => exact hf env (List.mem_of_getElem? hEnv)

theorem step (h : s.Sound) (action : ScopeAction) : (s.step action).Sound := by
  cases action with
  | new =>
    have hStore : Sound { s with store := s.store.newRoot.2 } :=
      h.withStore h.linked.newRoot (by simp [Store.newRoot])
    refine hStore.addEnv fun id hId => ?_
    rw [List.mem_singleton.mp hId]
    simp [Store.newRoot]
  | enclosed index atRoot =>
    refine h.atEnv index fun env hMem => ?_
    refine (h.newInside (h.place_lt hMem atRoot)).addEnv fun id hId => ?_
    rw [List.mem_singleton.mp hId]
    simp [Store.newInside]
  | push index =>
    refine h.atEnv index fun env hMem => ?_
    have hStore := h.newInside (h.place_lt hMem false)
    refine hStore.setEnv index fun id hId => ?_
    rcases List.mem_cons.mp hId with rfl | hId
    · exact hStore.lt_size env hMem _ List.mem_cons_self
    · rcases List.mem_cons.mp hId with rfl | hId
      · simp [Store.newInside]
      · exact hStore.lt_size env hMem id (List.mem_cons_of_mem _ hId)
  | pop index =>
    refine h.atEnv index fun env hMem => h.setEnv index fun id hId => h.lt_size env hMem id ?_
    rcases List.mem_cons.mp hId with rfl | hId
    · exact List.mem_cons_self
    · exact List.mem_cons_of_mem _ (List.mem_of_mem_tail hId)
  | define index name value isMutable =>
    exact h.atEnv index fun env _ => h.modify env.current fun _ => rfl
  | assign index name value =>
    refine h.atEnv index fun env _ => ?_
    unfold Store.assign
    cases s.store.assignmentTarget env.current name with
    | error error => exact h
    | ok owner => exact h.modify owner fun _ => rfl
  | defineFunction index name arity callable =>
    exact h.atEnv index fun env _ => h.modify env.current fun _ => rfl
  | clear index atRoot => exact h.atEnv index fun env _ => h.modify (env.place atRoot) fun _ => rfl

end Sound

theorem sound_run (actions : List ScopeAction) : (run actions).Sound := by
  have hFold {s : SharedScopes} (h : s.Sound) : (actions.foldl step s).Sound := by
    induction actions generalizing s with
    | nil => exact h
    | cons action actions ih => exact ih (h.step action)
  exact hFold ⟨.empty, fun env hMem => nomatch hMem⟩

/-- Whatever was done to environments before, parents end, names mean what their nearest binding
says, and an assignment changes that very binding or nothing. -/
theorem scopes_are_shared (actions : List ScopeAction) :
    (∀ id, ∃ chain, (run actions).store.ParentChain id chain ∧ chain.Nodup) ∧
      (run actions).store.LooksUpNearest ∧
      ∀ index env name value, (run actions).envs[index]? = some env →
        (run actions).AssignsNearest index env name value := by
  have hLinked := (sound_run actions).linked
  refine ⟨fun id => ?_, hLinked.looksUpNearest, fun index env name value hEnv => ?_⟩
  · exact ⟨_, hLinked.parentChain id, hLinked.nodup (hLinked.parentChain id)⟩
  · exact assignsNearest hLinked hEnv name value

/-- A frame inside the root of an environment, which has left a scope with another `g`. -/
def frame : List ScopeAction :=
  [.new, .define 0 "g" (.integer 1) true, .push 0, .define 0 "g" (.integer 2) false,
    .enclosed 0 true, .pop 0]

theorem scopes_are_shared_frame : ∃ store,
    (run frame).store.assign 2 "g" (.integer 3) = .ok store ∧
      store.lookup 0 "g" = some (.integer 3) ∧ store.lookup 1 "g" = some (.integer 2) := by
  obtain ⟨-, -, hAssigns⟩ := scopes_are_shared frame
  have hEnv := hAssigns 1 ⟨2, []⟩ "g" (.integer 3) rfl
  have hRoot : (run frame).store.NearestBinding "g" 0 0 ⟨.integer 1, true⟩ := .here rfl
  have hFrame : (run frame).store.NearestBinding "g" 2 0 ⟨.integer 1, true⟩ :=
    .outside rfl rfl hRoot
  obtain ⟨store, hAssign⟩ := hEnv.succeeds.mpr ⟨0, _, hFrame, rfl⟩
  obtain ⟨hReads, hOthers, -⟩ := hEnv.reads hAssign hFrame
  refine ⟨store, hAssign, hReads 0 _ hRoot, ?_⟩
  rw [hOthers 1 "g"]
  · rfl
  · rintro ⟨-, binding, hNearest⟩
    cases hNearest with
    | outside hNone => cases hNone

end SharedScopes

end ProcLang
