import ProcLang.Proofs.Typing.Context

/-! # Scopes as a stack of frames

Frames are kept when they have been left, so that those which have been entered and not left are a
path through all that were ever made. What the scopes answer is what a stack of these frames alone
would answer, whatever was done to them before.
-/

namespace ProcLang

set_option autoImplicit false

/-- What is done to scopes. -/
inductive FrameAction where
  | push
  | pushFunction (returnType : Ty)
  | pop
  | defineVariable (symbol : Variable)
  | defineFunction (signature : Signature)

namespace FrameAction

/-- Whether the action enters a new frame. -/
def enters : FrameAction → Bool
  | push | pushFunction _ => true
  | pop | defineVariable _ | defineFunction _ => false

/-- Definitions, and frames that are entered and left again. -/
inductive Nested : List FrameAction → Prop where
  | nil : Nested []
  | symbol {symbol : Variable} {rest : List FrameAction} (hRest : Nested rest) :
    Nested (defineVariable symbol :: rest)
  | signature {signature : Signature} {rest : List FrameAction} (hRest : Nested rest) :
    Nested (defineFunction signature :: rest)
  | block {enter : FrameAction} {inner rest : List FrameAction} (hEnter : enter.enters = true)
      (hInner : Nested inner) (hRest : Nested rest) :
    Nested (enter :: (inner ++ pop :: rest))

end FrameAction

structure StackFrame where
  symbol? : String → Option Variable := fun _ => none
  signature? : String → Nat → Option Signature := fun _ _ => none
  returnType : Option Ty := none

structure FrameStack where
  top : StackFrame := {}
  below : List StackFrame := []

namespace FrameStack

/-- The frames, innermost first. -/
def frames (stack : FrameStack) : List StackFrame :=
  stack.top :: stack.below

def enter (stack : FrameStack) (returnType : Option Ty) : FrameStack :=
  ⟨{ returnType }, stack.frames⟩

/-- Drops the top, unless it is the only frame. -/
def leave (stack : FrameStack) : FrameStack :=
  match stack.below with
  | [] => stack
  | top :: below => ⟨top, below⟩

def step (stack : FrameStack) : FrameAction → FrameStack
  | .push => stack.enter stack.top.returnType
  | .pushFunction returnType => stack.enter (some returnType)
  | .pop => stack.leave
  | .defineVariable symbol =>
    { stack with top.symbol? := fun name =>
        if symbol.name = name then some symbol else stack.top.symbol? name }
  | .defineFunction signature =>
    { stack with top.signature? := fun name arity =>
        if signature.name = name ∧ signature.arity = arity then some signature
        else stack.top.signature? name arity }

def run (actions : List FrameAction) : FrameStack :=
  actions.foldl step {}

def lookupVariable (stack : FrameStack) (name : String) : Option Variable :=
  stack.frames.findSome? fun frame => frame.symbol? name

def lookupFunction (stack : FrameStack) (name : String) (arity : Nat) : Option Signature :=
  stack.frames.findSome? fun frame => frame.signature? name arity

theorem below_step_enters {action : FrameAction} (h : action.enters = true) (stack : FrameStack) :
    (stack.step action).below = stack.frames := by
  cases action with
  | push | pushFunction => rfl
  | pop | defineVariable | defineFunction => cases h

theorem leave_of_below {stack stack' : FrameStack} (h : stack.below = stack'.frames) :
    stack.leave = stack' := by
  rw [leave, h]
  rfl

theorem below_nested {inner : List FrameAction} (h : FrameAction.Nested inner)
    (stack : FrameStack) : (inner.foldl step stack).below = stack.below := by
  induction h generalizing stack with
  | nil => rfl
  | symbol _ ih | signature _ ih => exact ih _
  | block hEnter _ _ ihInner ihRest =>
    have hLeft := leave_of_below ((ihInner _).trans (below_step_enters hEnter stack))
    rw [List.foldl_cons, List.foldl_append, List.foldl_cons, ihRest]
    exact congrArg below hLeft

/-- To leave a frame is to undo everything since it was entered. -/
theorem run_block {enter : FrameAction} {inner : List FrameAction} (hEnter : enter.enters = true)
    (hInner : FrameAction.Nested inner) (actions : List FrameAction) :
    run (actions ++ enter :: (inner ++ [.pop])) = run actions := by
  unfold run
  rw [List.foldl_append, List.foldl_cons, List.foldl_append]
  exact leave_of_below ((below_nested hInner _).trans (below_step_enters hEnter _))

end FrameStack

namespace Scopes

def step (scopes : Scopes) : FrameAction → Scopes
  | .push => scopes.push
  | .pushFunction returnType => scopes.pushFunction returnType
  | .pop => scopes.pop
  | .defineVariable symbol => scopes.defineVariable symbol
  | .defineFunction signature => scopes.defineFunction signature

def run (actions : List FrameAction) : Scopes :=
  actions.foldl step {}

/-- The frame that a frame was made in. -/
def parent? (scopes : Scopes) (number : Nat) : Option Nat :=
  (scopes.frame number).outer.head?

/-- The frames from one on, each before its parent, up to the outermost one. All of them exist. -/
inductive ParentPath (scopes : Scopes) : Nat → List Nat → Prop where
  | root (hLt : 0 < scopes.frames.size) (hParent : scopes.parent? 0 = none) :
    ParentPath scopes 0 [0]
  | inside {number parent : Nat} {path : List Nat} (hLt : number < scopes.frames.size)
      (hParent : scopes.parent? number = some parent) (rest : ParentPath scopes parent path) :
    ParentPath scopes number (number :: path)

theorem ParentPath.unique {scopes : Scopes} {number : Nat} {path path' : List Nat}
    (h : scopes.ParentPath number path) (h' : scopes.ParentPath number path') : path = path' := by
  induction h generalizing path' with
  | root _ hParent =>
    cases h' with
    | root => rfl
    | inside _ hParent' => simp [hParent] at hParent'
  | inside _ hParent _ ih =>
    cases h' with
    | root _ hParent' => simp [hParent] at hParent'
    | inside _ hParent' rest' =>
      cases hParent.symm.trans hParent'
      rw [ih rest']

/-- Each frame has an older one as its parent, except the outermost one, which is the oldest. -/
structure IsTree (scopes : Scopes) : Prop where
  parent_lt : ∀ {number parent}, scopes.parent? number = some parent →
    parent < number ∧ number < scopes.frames.size
  root : ∀ {number}, number < scopes.frames.size → (scopes.parent? number = none ↔ number = 0)

/-- Scopes and a stack have the same answers. -/
structure AnswersAs (scopes : Scopes) (stack : FrameStack) : Prop where
  lookupVariable : ∀ name, scopes.lookupVariable name = stack.lookupVariable name
  lookupFunction : ∀ name arity,
    scopes.lookupFunction name arity = stack.lookupFunction name arity
  returnType : scopes.returnType = stack.top.returnType

def shown (frame : Frame) : StackFrame :=
  ⟨fun name => frame.symbols.get? name, fun name arity => frame.signatures.get? (name, arity),
    frame.returnType⟩

/-- The frames on the chain from the current one. -/
def stack (scopes : Scopes) : FrameStack :=
  ⟨shown scopes.currentFrame,
    scopes.currentFrame.outer.map fun number => shown (scopes.frame number)⟩

theorem frames_stack (scopes : Scopes) :
    scopes.stack.frames = scopes.chain.map fun number => shown (scopes.frame number) :=
  rfl

theorem answersAs_stack (scopes : Scopes) : scopes.AnswersAs scopes.stack where
  lookupVariable name := by
    rw [FrameStack.lookupVariable, frames_stack, List.findSome?_map]
    rfl
  lookupFunction name arity := by
    rw [FrameStack.lookupFunction, frames_stack, List.findSome?_map]
    rfl
  returnType := rfl

theorem size_modifyCurrent (scopes : Scopes) (f : Frame → Frame) :
    (scopes.modifyCurrent f).frames.size = scopes.frames.size := by
  simp [modifyCurrent]

theorem size_pop (scopes : Scopes) : scopes.pop.frames.size = scopes.frames.size := by
  unfold pop
  split <;> rfl

theorem size_step (scopes : Scopes) (action : FrameAction) : (scopes.step action).frames.size =
    scopes.frames.size + if action.enters then 1 else 0 := by
  cases action with
  | push | pushFunction => exact Array.size_push _
  | pop => exact scopes.size_pop
  | defineVariable | defineFunction => exact scopes.size_modifyCurrent _

theorem chain_step_enters {action : FrameAction} (hEnters : action.enters = true)
    (scopes : Scopes) : (scopes.step action).chain = scopes.frames.size :: scopes.chain := by
  have hPush (returnType : Option Ty) : (scopes.pushFrame returnType).chain =
      scopes.frames.size :: scopes.chain := by
    rw [chain, currentFrame, frame_pushFrame]
    exact congrArg _ (congrArg Frame.outer (if_pos rfl))
  cases action with
  | push | pushFunction => exact hPush _
  | pop | defineVariable | defineFunction => cases hEnters

theorem frame_of_size_le {scopes : Scopes} {number : Nat} (h : scopes.frames.size ≤ number) :
    scopes.frame number = {} := by
  rw [frame, Array.getElem?_eq_none h]
  rfl

/-- Frames as a tree: what stands around a frame is its parent and what stands around that. -/
structure Linked (scopes : Scopes) : Prop where
  valid : scopes.Valid
  outer_eq : ∀ {number parent rest}, (scopes.frame number).outer = parent :: rest →
    rest = (scopes.frame parent).outer
  outermost : ∀ {number}, number < scopes.frames.size →
    (scopes.frame number).outer = [] → number = 0

namespace Linked

variable {scopes : Scopes}

theorem empty : ({} : Scopes).Linked where
  valid := .empty
  outer_eq {number} _ _ hOuter := by
    cases number <;> cases hOuter
  outermost hLt _ := Nat.lt_one_iff.mp hLt

theorem lt_size (h : scopes.Linked) {number parent : Nat} {rest : List Nat}
    (hOuter : (scopes.frame number).outer = parent :: rest) :
    parent < number ∧ number < scopes.frames.size := by
  constructor
  · apply h.valid.outer_lt number
    rw [hOuter]
    exact List.mem_cons_self
  · apply Nat.lt_of_not_le
    intro hSize
    rw [frame_of_size_le hSize] at hOuter
    cases hOuter

theorem pushFrame (h : scopes.Linked) (returnType : Option Ty) :
    (scopes.pushFrame returnType).Linked where
  valid := h.valid.pushFrame returnType
  outer_eq {number parent rest} hOuter := by
    have hCurrent := h.valid.current_lt
    rw [frame_pushFrame] at hOuter
    rw [frame_pushFrame]
    split at hOuter
    · cases hOuter
      rw [if_neg (Nat.ne_of_lt hCurrent)]
      rfl
    · have hLt := h.lt_size hOuter
      rw [if_neg (by omega)]
      exact h.outer_eq hOuter
  outermost {number} hLt hOuter := by
    rw [frame_pushFrame] at hOuter
    split at hOuter
    · cases hOuter
    · have hSize : (scopes.pushFrame returnType).frames.size = scopes.frames.size + 1 :=
        Array.size_push _
      exact h.outermost (by omega) hOuter

theorem outer_modifyCurrent (h : scopes.Linked) {f : Frame → Frame}
    (hOuter : ∀ frame, (f frame).outer = frame.outer) (number : Nat) :
    ((scopes.modifyCurrent f).frame number).outer = (scopes.frame number).outer := by
  rw [frame_modifyCurrent h.valid.current_lt]
  split
  · exact hOuter _
  · rfl

theorem modifyCurrent (h : scopes.Linked) {f : Frame → Frame}
    (hOuter : ∀ frame, (f frame).outer = frame.outer) (hValid : (scopes.modifyCurrent f).Valid) :
    (scopes.modifyCurrent f).Linked where
  valid := hValid
  outer_eq hFound := by
    rw [h.outer_modifyCurrent hOuter] at hFound ⊢
    exact h.outer_eq hFound
  outermost hLt hFound := by
    rw [size_modifyCurrent] at hLt
    rw [h.outer_modifyCurrent hOuter] at hFound
    exact h.outermost hLt hFound

theorem pop (h : scopes.Linked) : scopes.pop.Linked := by
  unfold Scopes.pop
  split
  · exact h
  · rename_i parent rest hOuter
    have hLt := h.lt_size hOuter
    have hCurrent := h.valid.current_lt
    refine ⟨⟨?_, h.valid.outer_lt, h.valid.symbol_name, h.valid.signature_key⟩, h.outer_eq,
      h.outermost⟩
    exact Nat.lt_trans hLt.1 hCurrent

theorem step (h : scopes.Linked) (action : FrameAction) : (scopes.step action).Linked := by
  cases action with
  | push => exact h.pushFrame scopes.returnType
  | pushFunction returnType => exact h.pushFrame (some returnType)
  | pop => exact h.pop
  | defineVariable symbol => exact h.modifyCurrent (fun _ => rfl) (h.valid.defineVariable symbol)
  | defineFunction signature =>
    exact h.modifyCurrent (fun _ => rfl) (h.valid.defineFunction signature)

theorem foldl_step (h : scopes.Linked) (actions : List FrameAction) :
    (actions.foldl Scopes.step scopes).Linked := by
  induction actions generalizing scopes with
  | nil => exact h
  | cons action rest ih => exact ih (h.step action)

theorem stack_pushFrame (h : scopes.Linked) (returnType : Option Ty) :
    (scopes.pushFrame returnType).stack = scopes.stack.enter returnType := by
  have hCurrent : (scopes.pushFrame returnType).currentFrame =
      { returnType, outer := scopes.chain } :=
    (frame_pushFrame scopes returnType scopes.frames.size).trans (if_pos rfl)
  have hBelow :
      scopes.chain.map (fun number => shown ((scopes.pushFrame returnType).frame number)) =
        scopes.chain.map fun number => shown (scopes.frame number) := by
    apply List.map_congr_left
    intro number hNumber
    rw [frame_pushFrame, if_neg (Nat.ne_of_lt (h.valid.chain_lt hNumber))]
  rw [stack, hCurrent, hBelow]
  rfl

theorem chain_pop (h : scopes.Linked) {parent : Nat} {rest : List Nat}
    (hOuter : scopes.currentFrame.outer = parent :: rest) : scopes.pop.chain = parent :: rest := by
  rw [Scopes.pop, hOuter]
  exact congrArg (parent :: ·) (h.outer_eq hOuter).symm

theorem stack_pop (h : scopes.Linked) : scopes.pop.stack = scopes.stack.leave := by
  cases hOuter : scopes.currentFrame.outer with
  | nil =>
    simp only [Scopes.pop, FrameStack.leave, stack, hOuter, List.map_nil]
  | cons parent rest =>
    symm
    apply FrameStack.leave_of_below
    rw [frames_stack, h.chain_pop hOuter, Scopes.pop, hOuter]
    exact congrArg (List.map _) hOuter

theorem stack_modifyCurrent (h : scopes.Linked) {f : Frame → Frame}
    (hOuter : ∀ frame, (f frame).outer = frame.outer) :
    (scopes.modifyCurrent f).stack =
      { scopes.stack with top := shown (f scopes.currentFrame) } := by
  unfold stack
  rw [h.valid.currentFrame_modifyCurrent, hOuter]
  congr 1
  apply List.map_congr_left
  intro number hNumber
  rw [frame_modifyCurrent h.valid.current_lt,
    if_neg (Nat.ne_of_lt (h.valid.outer_lt _ _ hNumber))]

theorem stack_step (h : scopes.Linked) (action : FrameAction) :
    (scopes.step action).stack = scopes.stack.step action := by
  cases action with
  | push => exact h.stack_pushFrame scopes.returnType
  | pushFunction returnType => exact h.stack_pushFrame (some returnType)
  | pop => exact h.stack_pop
  | defineVariable symbol =>
    refine (h.stack_modifyCurrent ?_).trans ?_
    · intro frame
      rfl
    · simp only [shown, FrameStack.step, stack, Table.get?_insert]
  | defineFunction signature =>
    refine (h.stack_modifyCurrent ?_).trans ?_
    · intro frame
      rfl
    · simp only [shown, FrameStack.step, stack, Table.get?_insert, Prod.mk.injEq]

theorem stack_foldl_step (h : scopes.Linked) (actions : List FrameAction) :
    (actions.foldl Scopes.step scopes).stack = actions.foldl FrameStack.step scopes.stack := by
  induction actions generalizing scopes with
  | nil => rfl
  | cons action rest ih =>
    rw [List.foldl_cons, List.foldl_cons, ih (h.step action), h.stack_step]

theorem isTree (h : scopes.Linked) : scopes.IsTree where
  parent_lt {number parent} hParent := by
    obtain ⟨rest, hOuter⟩ := List.head?_eq_some_iff.mp hParent
    exact h.lt_size hOuter
  root {number} hLt := by
    constructor
    · intro hParent
      exact h.outermost hLt (List.head?_eq_none_iff.mp hParent)
    · rintro rfl
      apply List.head?_eq_none_iff.mpr
      apply List.eq_nil_iff_forall_not_mem.mpr
      intro parent hParent
      exact Nat.not_lt_zero parent (h.valid.outer_lt 0 parent hParent)

theorem parentPath (h : scopes.Linked) (number : Nat) (hLt : number < scopes.frames.size) :
    scopes.ParentPath number (number :: (scopes.frame number).outer) := by
  induction number using Nat.strongRecOn with
  | ind number ih =>
    cases hOuter : (scopes.frame number).outer with
    | nil =>
      have hParent : scopes.parent? number = none := List.head?_eq_none_iff.mpr hOuter
      obtain rfl := (h.isTree.root hLt).mp hParent
      exact .root hLt hParent
    | cons parent rest =>
      have hParent : scopes.parent? number = some parent := by
        rw [parent?, hOuter]
        rfl
      obtain ⟨hOlder, _⟩ := h.lt_size hOuter
      rw [h.outer_eq hOuter]
      exact .inside hLt hParent (ih parent hOlder (by omega))

theorem parentPath_iff (h : scopes.Linked) (path : List Nat) :
    scopes.ParentPath scopes.current path ↔ path = scopes.chain := by
  have hChain := h.parentPath _ h.valid.current_lt
  constructor
  · intro hPath
    exact hPath.unique hChain
  · rintro rfl
    exact hChain

theorem chain_modifyCurrent (h : scopes.Linked) {f : Frame → Frame}
    (hOuter : ∀ frame, (f frame).outer = frame.outer) :
    (scopes.modifyCurrent f).chain = scopes.chain :=
  congrArg (scopes.current :: ·) (h.outer_modifyCurrent hOuter scopes.current)

theorem chain_nested (h : scopes.Linked) {inner : List FrameAction}
    (hNested : FrameAction.Nested inner) :
    (inner.foldl Scopes.step scopes).chain = scopes.chain := by
  induction hNested generalizing scopes with
  | nil => rfl
  | symbol _ ih =>
    refine (ih (h.step _)).trans (h.chain_modifyCurrent ?_)
    intro frame
    rfl
  | signature _ ih =>
    refine (ih (h.step _)).trans (h.chain_modifyCurrent ?_)
    intro frame
    rfl
  | @block enter inner rest hEnter _ _ ihInner ihRest =>
    have hInside := (ihInner (h.step enter)).trans (chain_step_enters hEnter scopes)
    have hLinked := (h.step enter).foldl_step inner
    have hLeft := hLinked.chain_pop (List.cons.inj hInside).2
    rw [List.foldl_cons, List.foldl_append, List.foldl_cons]
    exact (ihRest (hLinked.step .pop)).trans hLeft

/-- To leave a frame is to be where one was before it was entered. -/
theorem chain_block (h : scopes.Linked) {enter : FrameAction} {inner : List FrameAction}
    (hEnter : enter.enters = true) (hNested : FrameAction.Nested inner) :
    ((enter :: (inner ++ [.pop])).foldl Scopes.step scopes).chain = scopes.chain :=
  h.chain_nested (.block hEnter hNested .nil)

end Linked

theorem linked_run (actions : List FrameAction) : (run actions).Linked :=
  Linked.empty.foldl_step actions

theorem run_append (actions more : List FrameAction) :
    run (actions ++ more) = more.foldl step (run actions) :=
  List.foldl_append

theorem size_foldl_step (scopes : Scopes) (actions : List FrameAction) :
    (actions.foldl step scopes).frames.size =
      scopes.frames.size + actions.countP FrameAction.enters := by
  induction actions generalizing scopes with
  | nil => rfl
  | cons action rest ih =>
    rw [List.foldl_cons, ih, size_step, List.countP_cons]
    omega

theorem run_answersAs (actions : List FrameAction) :
    (run actions).AnswersAs (FrameStack.run actions) := by
  have hStack : (run actions).stack = FrameStack.run actions :=
    Linked.empty.stack_foldl_step actions
  rw [← hStack]
  exact answersAs_stack _

/-- Whatever is done to new scopes, they answer as a stack would to which the same is done. New
frames get the next number, the frames are a tree in which the current one and those around it are a
path to the outermost one, and to leave a frame leads back to where it was entered. -/
theorem run_refines_stack (actions : List FrameAction) :
    (run actions).AnswersAs (FrameStack.run actions) ∧
    (run actions).frames.size = 1 + actions.countP FrameAction.enters ∧
    (∀ enter : FrameAction, enter.enters = true →
      (run (actions ++ [enter])).current = (run actions).frames.size) ∧
    (run actions).IsTree ∧
    (∀ path, (run actions).ParentPath (run actions).current path ↔ path = (run actions).chain) ∧
    ∀ (enter : FrameAction) (inner : List FrameAction),
      enter.enters = true → FrameAction.Nested inner →
        (run (actions ++ enter :: (inner ++ [.pop]))).current = (run actions).current ∧
        (run (actions ++ enter :: (inner ++ [.pop]))).AnswersAs (FrameStack.run actions) := by
  have h := linked_run actions
  refine ⟨run_answersAs actions, size_foldl_step {} actions, ?_, h.isTree, ?_, ?_⟩
  · intro enter hEnter
    rw [run_append]
    exact (List.cons.inj (chain_step_enters hEnter (run actions))).1
  · exact h.parentPath_iff
  · intro enter inner hEnter hNested
    have hAnswers := run_answersAs (actions ++ enter :: (inner ++ [.pop]))
    rw [FrameStack.run_block hEnter hNested] at hAnswers
    rw [run_append] at hAnswers ⊢
    exact ⟨(List.cons.inj (h.chain_block hEnter hNested)).1, hAnswers⟩

theorem run_refines_stack_shadowed :
    let x : Variable := ⟨"x", .integer, true⟩
    let actions := [.defineVariable x, .push, .pop]
    let inner := [.defineVariable ⟨"x", .string, false⟩, .push, .pop]
    FrameAction.Nested inner ∧ (run (actions ++ [.push])).current = 2 ∧
      (run (actions ++ .push :: (inner ++ [.pop]))).current = 0 ∧
      (run (actions ++ .push :: (inner ++ [.pop]))).lookupVariable "x" = some x := by
  intro x actions inner
  have hNested : FrameAction.Nested inner := .symbol (.block rfl .nil .nil)
  obtain ⟨_, _, hNext, _, _, hBlock⟩ := run_refines_stack actions
  obtain ⟨hCurrent, hAnswers⟩ := hBlock .push inner rfl hNested
  exact ⟨hNested, hNext .push rfl, hCurrent, hAnswers.lookupVariable "x"⟩

end Scopes

end ProcLang
