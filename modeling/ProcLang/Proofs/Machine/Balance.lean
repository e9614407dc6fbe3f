import ProcLang.Proofs.Machine.Preservation
import ProcLang.Proofs.Traversal

/-! # Balanced execution

Whatever is executed and however it ends, the scopes that were entered have been left again and as
many calls are under way as before. Expressions that call nothing do not change the machine at all.
-/

namespace ProcLang

set_option autoImplicit false

/-- The same scopes are entered and as many calls are under way. -/
structure Machine.Resumes (machine machine' : Machine) : Prop where
  env_eq : machine'.env = machine.env
  callDepth_eq : machine'.callDepth = machine.callDepth
  callLimit_eq : machine'.callLimit = machine.callLimit

instance : Std.Refl Machine.Resumes where
  refl _ := ⟨rfl, rfl, rfl⟩

instance : IsTrans Machine Machine.Resumes where
  trans _ _ _ h h' := ⟨h'.env_eq.trans h.env_eq, h'.callDepth_eq.trans h.callDepth_eq,
    h'.callLimit_eq.trans h.callLimit_eq⟩

namespace Machine.Resumes

variable {machine machine' : Machine}

theorem popScope (h : machine.pushScope.Resumes machine') : machine.Resumes machine'.popScope where
  env_eq := by
    rw [Machine.popScope, h.env_eq]
    rfl
  callDepth_eq := h.callDepth_eq
  callLimit_eq := h.callLimit_eq

theorem leaveFrame {closure : ScopeId} {arguments : List (String × Value)}
    (h : (machine.enterFrame closure arguments).Resumes machine') :
    machine.Resumes (machine'.leaveFrame machine.env) where
  env_eq := rfl
  callDepth_eq := by
    rw [Machine.leaveFrame, h.callDepth_eq]
    exact Nat.add_sub_cancel ..
  callLimit_eq := h.callLimit_eq

end Machine.Resumes

namespace Exec

theorem lasting_resumes : Lasting Machine.Resumes where
  define _ _ _ _ := ⟨rfl, rfl, rfl⟩
  assign name value machine := by
    unfold assign
    split <;> exact ⟨rfl, rfl, rfl⟩
  print _ _ := ⟨rfl, rfl, rfl⟩
  popScope h := h.popScope
  leaveFrame _ _ h := h.leaveFrame

abbrev AllBalanced (n : Nat) : Prop :=
  AllKeep Machine.Resumes n

theorem AllBalanced.all (n : Nat) : AllBalanced n :=
  AllKeep.all lasting_resumes n

theorem keeps_resumes_defineFunction (function : Function) :
    Keeps Machine.Resumes (defineFunction function) :=
  fun _ => ⟨rfl, rfl, rfl⟩

theorem keeps_resumes_run (n : Nat) (source : Source) : Keeps Machine.Resumes (run n source) :=
  lasting_resumes.run keeps_resumes_defineFunction source

end Exec

def Expr.isCallFree (e : Expr) : Bool :=
  e.every fun part => !part.isCall

namespace Exec

open Keeps

/-- What calls nothing changes nothing. -/
theorem keeps_eq_of_isCallFree (n : Nat) :
    (∀ e : Expr, e.isCallFree = true → Keeps Eq (evaluate n e)) ∧
    (∀ es : List Expr, (∀ e ∈ es, e.isCallFree = true) → Keeps Eq (evaluateAll n es)) := by
  induction n with
  | zero => exact ⟨fun _ _ => of_exhausted, fun _ _ => of_exhausted⟩
  | succ n ih =>
    obtain ⟨hEvaluate, hEvaluateAll⟩ := ih
    constructor
    · intro e hFree
      cases e with
      | literal literal ty => exact of_pure literal.value
      | access name symbol ty => exact of_lookup name
      | group inner ty => exact hEvaluate inner hFree
      | call => cases hFree
      | binary operator left right ty =>
        simp only [Expr.isCallFree, Expr.every, Bool.and_eq_true] at hFree
        have hLeft := hEvaluate left hFree.1.2
        have hRight := hEvaluate right hFree.2
        by_cases hAnd : operator = .and
        · subst hAnd
          exact of_bind hLeft fun _ => of_ite (of_bind hRight fun _ => of_pure _) (of_pure _)
        by_cases hOr : operator = .or
        · subst hOr
          exact of_bind hLeft fun _ => of_ite (of_pure _) (of_bind hRight fun _ => of_pure _)
        rw [evaluate_binary hAnd hOr]
        exact of_bind hLeft fun _ => of_bind hRight fun _ => of_ofExcept _
      | element name index symbol ty =>
        apply of_bind (of_lookup name)
        intro list
        exact of_bind (hEvaluate index hFree) fun _ => of_ofExcept _
      | list items ty =>
        have hItems := (Expr.everyItem_iff items).mp hFree
        exact of_bind (hEvaluateAll items hItems) fun _ => of_pure _
    · intro es hFree
      cases es with
      | nil => exact of_pure []
      | cons e es =>
        apply of_bind (hEvaluate e (hFree e List.mem_cons_self))
        intro value
        exact of_bind (hEvaluateAll es fun other hMem => hFree other (List.mem_cons_of_mem e hMem))
          fun _ => of_pure _

end Exec

end ProcLang
