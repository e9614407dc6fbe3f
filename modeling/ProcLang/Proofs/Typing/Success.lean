import Mathlib.Data.List.Forall2
import ProcLang.Typing.Checker

/-! # Successful computations

A computation that succeeds has succeeded at each of its steps.
-/

namespace ProcLang

set_option autoImplicit false

section Except

variable {ε α β : Type}

theorem except_bind_ok {first : Except ε α} {next : α → Except ε β} {result : β}
    (h : (first >>= next) = .ok result) : ∃ a, first = .ok a ∧ next a = .ok result := by
  cases first with
  | error error => cases h
  | ok a => exact ⟨a, rfl, h⟩

theorem except_ok_bind (a : α) (next : α → Except ε β) : (.ok a >>= next) = next a :=
  rfl

/-- A computation can be run to see what it succeeds with. -/
theorem exists_of_any_ok {computation : Except ε α} {p : α → Bool}
    (h : computation.toOption.any p = true) : ∃ a, computation = .ok a ∧ p a = true := by
  cases computation with
  | error error => cases h
  | ok a => exact ⟨a, rfl, h⟩

theorem except_unless_ok {p : Prop} [Decidable p] {error : ε} {next : Unit → Except ε β}
    {result : β}
    (h : (if p then next () else (throw error : Except ε Unit) >>= next) = .ok result) :
    p ∧ next () = .ok result := by
  split at h
  · rename_i hp
    exact ⟨hp, h⟩
  · cases h

theorem except_mapM_ok {f : α → Except ε β} {as : List α} {bs : List β}
    (h : as.mapM f = .ok bs) : List.Forall₂ (fun a b => f a = .ok b) as bs := by
  induction as generalizing bs with
  | nil =>
    cases h
    exact .nil
  | cons a as ih =>
    rw [List.mapM_cons] at h
    obtain ⟨b, hHead, h⟩ := except_bind_ok h
    obtain ⟨bs, hTail, h⟩ := except_bind_ok h
    cases h
    exact .cons hHead (ih hTail)

theorem except_mapM_of_forall₂ {f : α → Except ε β} {as : List α} {bs : List β}
    (h : List.Forall₂ (fun a b => f a = .ok b) as bs) : as.mapM f = .ok bs := by
  induction h with
  | nil => rfl
  | cons hHead _ ih =>
    rw [List.mapM_cons, hHead, ih]
    rfl

end Except

/-- A computation that succeeds and leaves other scopes. -/
def Check.Yields {α : Type} (computation : Check α) (scopes : Scopes) (result : α)
    (scopes' : Scopes) : Prop :=
  computation.run.run scopes = (.ok result, scopes')

namespace Check

variable {α β : Type} {scopes scopes' : Scopes}

theorem yields_pure {a result : α} (h : Yields (pure a) scopes result scopes') :
    a = result ∧ scopes = scopes' := by
  cases h
  exact ⟨rfl, rfl⟩

theorem yields_bind {first : Check α} {next : α → Check β} {result : β}
    (h : Yields (first >>= next) scopes result scopes') :
    ∃ a scopes₁, Yields first scopes a scopes₁ ∧ Yields (next a) scopes₁ result scopes' := by
  unfold Yields at h
  simp only [ExceptT.run_bind, StateT.run_bind] at h
  rcases hFirst : first.run.run scopes with ⟨a, scopes₁⟩
  rw [hFirst] at h
  cases a with
  | error error => cases h
  | ok a => exact ⟨a, scopes₁, hFirst, h⟩

theorem Yields.bind {first : Check α} {next : α → Check β} {a : α} {scopes₁ : Scopes} {result : β}
    (hFirst : Yields first scopes a scopes₁) (hNext : Yields (next a) scopes₁ result scopes') :
    Yields (first >>= next) scopes result scopes' := by
  unfold Yields at hFirst hNext ⊢
  simp only [ExceptT.run_bind, StateT.run_bind]
  rw [hFirst]
  exact hNext

theorem yields_get : Yields (get : Check Scopes) scopes scopes scopes :=
  rfl

theorem yields_modify (f : Scopes → Scopes) :
    Yields (modify f : Check Unit) scopes () (f scopes) :=
  rfl

theorem yields_liftExcept_of_ok {computation : Except SemanticError α} {result : α}
    (h : computation = .ok result) : Yields (liftExcept computation) scopes result scopes := by
  subst h
  rfl

theorem yields_liftExcept {computation : Except SemanticError α} {result : α}
    (h : Yields (liftExcept computation) scopes result scopes') :
    computation = .ok result ∧ scopes = scopes' := by
  cases computation with
  | error error => cases h
  | ok a =>
    cases h
    exact ⟨rfl, rfl⟩

end Check

end ProcLang
