import Mathlib.Data.List.Forall2

/-! # Searching chains

Names are looked up along chains of scopes, innermost first. A search only depends on what it asks
the scopes of its chain.
-/

namespace ProcLang

set_option autoImplicit false

variable {α β : Type}

theorem findSome?_congr {f g : α → Option β} {chain : List α} (h : ∀ a ∈ chain, f a = g a) :
    chain.findSome? f = chain.findSome? g := by
  induction chain with
  | nil => rfl
  | cons a chain ih =>
    rw [List.findSome?_cons, List.findSome?_cons, h a List.mem_cons_self,
      ih fun b hb => h b (List.mem_cons_of_mem a hb)]

theorem rel_imp {R S : α → β → Prop} (h : ∀ {a b}, R a b → S a b) {a? : Option α} {b? : Option β}
    (hRel : Option.Rel R a? b?) : Option.Rel S a? b? := by
  cases hRel with
  | none => exact .none
  | some hRel => exact .some (h hRel)

/-- Searches along chains whose scopes correspond to one another. -/
theorem findSome?_rel {γ : Type} {Q : α → α → Prop} {R : β → γ → Prop} {f : α → Option β}
    {g : α → Option γ} (h : ∀ {a b}, Q a b → Option.Rel R (f a) (g b)) {chain chain' : List α}
    (hChain : List.Forall₂ Q chain chain') :
    Option.Rel R (chain.findSome? f) (chain'.findSome? g) := by
  induction hChain with
  | nil => exact .none
  | @cons a b chain chain' hHead _ ih =>
    have hFound := h hHead
    rw [List.findSome?_cons, List.findSome?_cons]
    cases hf : f a <;> cases hg : g b <;> rw [hf, hg] at hFound <;> cases hFound
    · exact ih
    · exact .some ‹_›

theorem findSome?_eq_of_mem {f : α → Option β} {chain : List α} {a : α} (hMem : a ∈ chain)
    (hOthers : ∀ b ∈ chain, b ≠ a → f b = none) : chain.findSome? f = f a := by
  induction chain with
  | nil => cases hMem
  | cons b chain ih =>
    rw [List.findSome?_cons]
    by_cases hba : b = a
    · subst hba
      cases hf : f b with
      | some result => rfl
      | none =>
        simp only [List.findSome?_eq_none_iff]
        intro c hc
        by_cases hcb : c = b
        · rw [hcb, hf]
        · exact hOthers c (List.mem_cons_of_mem b hc) hcb
    · rw [hOthers b List.mem_cons_self hba]
      rcases List.mem_cons.mp hMem with hab | hMem
      · exact absurd hab.symm hba
      · exact ih hMem fun c hc => hOthers c (List.mem_cons_of_mem b hc)

end ProcLang
