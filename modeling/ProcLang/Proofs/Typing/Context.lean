import ProcLang.Proofs.Chain
import ProcLang.Typing.Checker

/-! # Contexts

A context says what a piece of code can mention, whatever frames the symbols are in. The frames of
the checker describe a context, and each operation on them does to it what its name says: a new
block sees what was seen before, a definition hides the earlier symbol of the same name.
-/

namespace ProcLang

set_option autoImplicit false

structure Context where
  symbol? : String → Option Variable
  signature? : String → Nat → Option Signature
  returnType : Ty

namespace Context

/-- The code behind the definition of a variable. -/
def bind (Γ : Context) (symbol : Variable) : Context :=
  { Γ with symbol? := fun name => if symbol.name = name then some symbol else Γ.symbol? name }

/-- The code behind the definition of a function. -/
def declare (Γ : Context) (signature : Signature) : Context :=
  { Γ with
    signature? := fun name arity =>
      if signature.name = name ∧ signature.arity = arity then some signature
      else Γ.signature? name arity }

/-- A whole program: it can mention the printing function only. -/
def initial : Context :=
  declare ⟨fun _ => none, fun _ _ => none, .nil⟩ Checker.print

/-- The body of a function. -/
def enter (Γ : Context) (parameters : List (String × Ty)) (returnType : Ty) : Context :=
  parameters.foldl (fun Γ (name, ty) => Γ.bind ⟨name, ty, false⟩) { Γ with returnType }

end Context

namespace Scopes

def context (scopes : Scopes) : Context :=
  ⟨scopes.lookupVariable, scopes.lookupFunction, scopes.returnType.getD .nil⟩

/-- Frames as the checker makes them: the current one exists, those around a frame are older than
it, and each symbol stands under its own name. -/
structure Valid (scopes : Scopes) : Prop where
  current_lt : scopes.current < scopes.frames.size
  outer_lt : ∀ number, ∀ j ∈ (scopes.frame number).outer, j < number
  symbol_name : ∀ number name symbol,
    (scopes.frame number).symbols.get? name = some symbol → symbol.name = name
  signature_key : ∀ number name arity signature,
    (scopes.frame number).signatures.get? (name, arity) = some signature →
      signature.name = name ∧ signature.arity = arity

theorem frame_pushFrame (scopes : Scopes) (returnType : Option Ty) (number : Nat) :
    (scopes.pushFrame returnType).frame number =
      if number = scopes.frames.size then { returnType, outer := scopes.chain }
      else scopes.frame number := by
  unfold frame pushFrame
  rw [Array.getElem?_push]
  split <;> rfl

theorem frame_modifyCurrent {scopes : Scopes} (h : scopes.current < scopes.frames.size)
    (f : Frame → Frame) (number : Nat) :
    (scopes.modifyCurrent f).frame number =
      if number = scopes.current then f (scopes.frame number) else scopes.frame number := by
  unfold frame modifyCurrent
  simp only [Array.getElem?_modify, eq_comm (a := number)]
  split
  · rename_i hCurrent
    rw [← hCurrent, Array.getElem?_eq_getElem h]
    rfl
  · rfl

/-- The first answer that a frame of the chain gives. -/
def search {β : Type} (scopes : Scopes) (g : Frame → Option β) : Option β :=
  scopes.chain.findSome? fun number => g (scopes.frame number)

theorem search_eq {β : Type} (scopes : Scopes) (g : Frame → Option β) :
    scopes.search g = (g scopes.currentFrame).or
      (scopes.currentFrame.outer.findSome? fun number => g (scopes.frame number)) := by
  have hHere : g (scopes.frame scopes.current) = g scopes.currentFrame := rfl
  rw [search, chain, List.findSome?_cons, hHere]
  cases g scopes.currentFrame <;> rfl

namespace Valid

variable {β : Type} {scopes : Scopes}

theorem chain_le (h : scopes.Valid) {number : Nat} (hNumber : number ∈ scopes.chain) :
    number ≤ scopes.current := by
  rcases List.mem_cons.mp hNumber with rfl | hOuter
  · exact Nat.le_refl _
  · exact Nat.le_of_lt (h.outer_lt _ _ hOuter)

theorem chain_lt (h : scopes.Valid) {number : Nat} (hNumber : number ∈ scopes.chain) :
    number < scopes.frames.size :=
  Nat.lt_of_le_of_lt (h.chain_le hNumber) h.current_lt

theorem empty : ({} : Scopes).Valid where
  current_lt := by decide
  outer_lt number j hj := by
    cases number <;> cases hj
  symbol_name number name symbol hSymbol := by
    cases number <;> cases hSymbol
  signature_key number name arity signature hSignature := by
    cases number <;> cases hSignature

theorem pushFrame (h : scopes.Valid) (returnType : Option Ty) :
    (scopes.pushFrame returnType).Valid where
  current_lt := by simp [Scopes.pushFrame]
  outer_lt number j hj := by
    rw [frame_pushFrame] at hj
    split at hj
    · rename_i hNew
      exact hNew ▸ h.chain_lt hj
    · exact h.outer_lt number j hj
  symbol_name number name symbol hSymbol := by
    rw [frame_pushFrame] at hSymbol
    split at hSymbol
    · cases hSymbol
    · exact h.symbol_name number name symbol hSymbol
  signature_key number name arity signature hSignature := by
    rw [frame_pushFrame] at hSignature
    split at hSignature
    · cases hSignature
    · exact h.signature_key number name arity signature hSignature

theorem push (h : scopes.Valid) : scopes.push.Valid :=
  h.pushFrame scopes.returnType

theorem modifyCurrent (h : scopes.Valid) {f : Frame → Frame}
    (hOuter : ∀ frame, (f frame).outer = frame.outer)
    (hSymbols : ∀ frame name symbol, (f frame).symbols.get? name = some symbol →
      symbol.name = name ∨ frame.symbols.get? name = some symbol)
    (hSignatures : ∀ frame name arity signature,
      (f frame).signatures.get? (name, arity) = some signature →
        signature.name = name ∧ signature.arity = arity ∨
          frame.signatures.get? (name, arity) = some signature) :
    (scopes.modifyCurrent f).Valid where
  current_lt := by
    simpa [Scopes.modifyCurrent] using h.current_lt
  outer_lt number j hj := by
    rw [frame_modifyCurrent h.current_lt] at hj
    apply h.outer_lt number j
    split at hj
    · rwa [hOuter] at hj
    · exact hj
  symbol_name number name symbol hSymbol := by
    rw [frame_modifyCurrent h.current_lt] at hSymbol
    split at hSymbol
    · rcases hSymbols _ name symbol hSymbol with hName | hOld
      · exact hName
      · exact h.symbol_name number name symbol hOld
    · exact h.symbol_name number name symbol hSymbol
  signature_key number name arity signature hSignature := by
    rw [frame_modifyCurrent h.current_lt] at hSignature
    split at hSignature
    · rcases hSignatures _ name arity signature hSignature with hKey | hOld
      · exact hKey
      · exact h.signature_key number name arity signature hOld
    · exact h.signature_key number name arity signature hSignature

theorem defineVariable (h : scopes.Valid) (symbol : Variable) :
    (scopes.defineVariable symbol).Valid := by
  refine h.modifyCurrent (fun _ => ?_) ?_ ?_
  · rfl
  · intro frame name found hFound
    rw [Table.get?_insert] at hFound
    split at hFound
    · rename_i hName
      cases hFound
      exact .inl hName
    · exact .inr hFound
  · intro frame name arity signature hSignature
    exact .inr hSignature

theorem defineFunction (h : scopes.Valid) (signature : Signature) :
    (scopes.defineFunction signature).Valid := by
  refine h.modifyCurrent (fun _ => ?_) ?_ ?_
  · rfl
  · intro frame name symbol hSymbol
    exact .inr hSymbol
  · intro frame name arity found hFound
    rw [Table.get?_insert] at hFound
    split at hFound
    · rename_i hKey
      cases hFound
      exact .inl (Prod.mk.inj hKey)
    · exact .inr hFound

theorem key_of_lookupFunction (h : scopes.Valid) {name : String} {arity : Nat}
    {signature : Signature} (hSignature : scopes.lookupFunction name arity = some signature) :
    signature.name = name ∧ signature.arity = arity := by
  obtain ⟨number, _, hFound⟩ := List.exists_of_findSome?_eq_some hSignature
  exact h.signature_key number name arity signature hFound

theorem search_pushFrame (h : scopes.Valid) (returnType : Option Ty) {g : Frame → Option β}
    (hNew : g { returnType, outer := scopes.chain } = none) :
    (scopes.pushFrame returnType).search g = scopes.search g := by
  have hCurrent : (scopes.pushFrame returnType).currentFrame =
      { returnType, outer := scopes.chain } :=
    (frame_pushFrame scopes returnType scopes.frames.size).trans (if_pos rfl)
  rw [search_eq, hCurrent, hNew, Option.none_or]
  apply findSome?_congr
  intro number hNumber
  rw [frame_pushFrame, if_neg (Nat.ne_of_lt (h.chain_lt hNumber))]

theorem currentFrame_modifyCurrent (h : scopes.Valid) (f : Frame → Frame) :
    (scopes.modifyCurrent f).currentFrame = f scopes.currentFrame :=
  (frame_modifyCurrent h.current_lt f scopes.current).trans (if_pos rfl)

theorem search_modifyCurrent (h : scopes.Valid) {f : Frame → Frame} {g : Frame → Option β}
    (hOuter : ∀ frame, (f frame).outer = frame.outer) (answer : Option β)
    (hAnswer : g (f scopes.currentFrame) = answer.or (g scopes.currentFrame)) :
    (scopes.modifyCurrent f).search g = answer.or (scopes.search g) := by
  rw [search_eq, h.currentFrame_modifyCurrent, hAnswer, hOuter, search_eq, Option.or_assoc]
  congr 2
  apply findSome?_congr
  intro number hNumber
  rw [frame_modifyCurrent h.current_lt, if_neg (Nat.ne_of_lt (h.outer_lt _ _ hNumber))]

theorem context_pushFrame (h : scopes.Valid) (returnType : Option Ty) :
    (scopes.pushFrame returnType).context =
      { scopes.context with returnType := returnType.getD .nil } := by
  have hVariables : (scopes.pushFrame returnType).lookupVariable = scopes.lookupVariable := by
    funext name
    exact h.search_pushFrame returnType (g := fun frame => frame.symbols.get? name) rfl
  have hFunctions : (scopes.pushFrame returnType).lookupFunction = scopes.lookupFunction := by
    funext name arity
    exact h.search_pushFrame returnType (g := fun frame => frame.signatures.get? (name, arity)) rfl
  have hReturn : (scopes.pushFrame returnType).returnType = returnType := by
    rw [Scopes.returnType, currentFrame, frame_pushFrame]
    exact congrArg Frame.returnType (if_pos rfl)
  rw [context, hVariables, hFunctions, hReturn]
  rfl

theorem context_push (h : scopes.Valid) : scopes.push.context = scopes.context :=
  h.context_pushFrame scopes.returnType

theorem context_defineVariable (h : scopes.Valid) (symbol : Variable) :
    (scopes.defineVariable symbol).context = scopes.context.bind symbol := by
  have hVariables : (scopes.defineVariable symbol).lookupVariable =
      (scopes.context.bind symbol).symbol? := by
    funext name
    have hAnswer : (scopes.defineVariable symbol).search (fun frame => frame.symbols.get? name) =
        (if symbol.name = name then some symbol else none).or
          (scopes.search fun frame => frame.symbols.get? name) := by
      refine h.search_modifyCurrent (fun _ => ?_) _ ?_
      · rfl
      · rw [Table.get?_insert]
        split <;> rfl
    refine hAnswer.trans ?_
    change _ = if symbol.name = name then some symbol else scopes.lookupVariable name
    split <;> rfl
  have hFunctions : (scopes.defineVariable symbol).lookupFunction = scopes.lookupFunction := by
    funext name arity
    refine h.search_modifyCurrent (g := fun frame => frame.signatures.get? (name, arity))
      (fun _ => ?_) none ?_ <;> rfl
  have hReturn : (scopes.defineVariable symbol).returnType = scopes.returnType := by
    rw [Scopes.returnType, Scopes.defineVariable, h.currentFrame_modifyCurrent]
    rfl
  rw [context, hVariables, hFunctions, hReturn]
  rfl

theorem context_defineFunction (h : scopes.Valid) (signature : Signature) :
    (scopes.defineFunction signature).context = scopes.context.declare signature := by
  have hFunctions : (scopes.defineFunction signature).lookupFunction =
      (scopes.context.declare signature).signature? := by
    funext name arity
    have hAnswer : (scopes.defineFunction signature).search
        (fun frame => frame.signatures.get? (name, arity)) =
        (if signature.name = name ∧ signature.arity = arity then some signature else none).or
          (scopes.search fun frame => frame.signatures.get? (name, arity)) := by
      refine h.search_modifyCurrent (fun _ => ?_) _ ?_
      · rfl
      · rw [Table.get?_insert]
        simp only [Prod.mk.injEq]
        split <;> rfl
    refine hAnswer.trans ?_
    change _ = if signature.name = name ∧ signature.arity = arity then some signature
      else scopes.lookupFunction name arity
    split <;> rfl
  have hVariables : (scopes.defineFunction signature).lookupVariable = scopes.lookupVariable := by
    funext name
    refine h.search_modifyCurrent (g := fun frame => frame.symbols.get? name)
      (fun _ => ?_) none ?_ <;> rfl
  have hReturn : (scopes.defineFunction signature).returnType = scopes.returnType := by
    rw [Scopes.returnType, Scopes.defineFunction, h.currentFrame_modifyCurrent]
    rfl
  rw [context, hVariables, hFunctions, hReturn]
  rfl

end Valid

end Scopes

end ProcLang
