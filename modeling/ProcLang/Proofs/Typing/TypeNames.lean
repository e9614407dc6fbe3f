import ProcLang.Proofs.Typing.Errors
import ProcLang.Proofs.Typing.Reuse

/-! # Type names

A name means the same type in all later registries, and names tell the types of a registry apart.
The types that a checker finds and makes are known to its registry, so no error shows two of them by
one name.
-/

namespace ProcLang

set_option autoImplicit false

namespace TypeRegistry

variable {types : TypeRegistry}

theorem lookup_ofNames_append {names : List String} {name : String} {ty : Ty}
    (h : (ofNames names).lookup name = some ty) (more : List String) :
    (ofNames (names ++ more)).lookup name = some ty := by
  induction more generalizing names with
  | nil => rwa [List.append_nil]
  | cons other more ih =>
    rw [List.append_cons]
    refine ih ?_
    rw [ofNames_append_singleton]
    exact lookup_register_of_some h other

/-- Known types of one name are one type, which fits itself. -/
theorem Knows.name_ne {expected found : Ty} (hExpected : types.Knows expected)
    (hFound : types.Knows found) (h : expected.accepts found = false) :
    expected.name ≠ found.name := by
  intro hName
  obtain rfl := hExpected.eq_of_name_eq hFound hName
  rw [Ty.accepts_refl] at h
  cases h

end TypeRegistry

open SemanticError (Grounded)

theorem Source.grounded (types : TypeRegistry) (source : Source) :
    (source.check types).FailsAs types (Grounded types fun _ => true) :=
  source.grounded_check fun function _ => Stmt.everyIn_of_forall (fun _ => rfl) function.body

namespace Checker

/-- One program after another leaves sound scopes, whether it is accepted or not. -/
theorem Built.sound {checker : Checker} (h : checker.Built) (hTypes : checker.types.Coherent) :
    checker.scopes.Sound checker.types := by
  induction h with
  | ofTypes types => exact .initial hTypes
  | @check checker h source ih => exact (source.grounded checker.types checker.scopes (ih hTypes)).2

theorem Built.grounded {checker : Checker} (h : checker.Built) (hTypes : checker.types.Coherent)
    (source : Source) : FailsAs (Grounded checker.types fun _ => true) (checker.check source).1 :=
  (source.grounded checker.types checker.scopes (h.sound hTypes)).1

end Checker

/-- A registry finds types under their own names only, the built-in ones always, and what it has
found once also after any registrations. A registration returns what is found from then on. No
program is refused for two types that are shown by the same name. -/
theorem type_names_are_unambiguous (names : List String) :
    (∀ name ty, (TypeRegistry.ofNames names).lookup name = some ty → ty.name = name) ∧
    (∀ ty ∈ Ty.builtins, (TypeRegistry.ofNames names).lookup ty.name = some ty) ∧
    (∀ name, ((TypeRegistry.ofNames names).register name).2 = .ofNames (names ++ [name]) ∧
      (TypeRegistry.ofNames (names ++ [name])).lookup name =
        some ((TypeRegistry.ofNames names).register name).1) ∧
    (∀ more name ty, (TypeRegistry.ofNames names).lookup name = some ty →
      (TypeRegistry.ofNames (names ++ more)).lookup name = some ty) ∧
    ∀ checker : Checker, checker.Built → checker.types = .ofNames names →
      ∀ source expected found,
        (checker.check source).1 = .error (.typeMismatch expected found) →
          expected.name ≠ found.name := by
  have hTypes := TypeRegistry.coherent_ofNames names
  have hRegister (name : String) := (TypeRegistry.ofNames_append_singleton names name).symm
  refine ⟨fun _ _ => hTypes.name_eq, hTypes.builtin, fun name => ⟨hRegister name, ?_⟩,
    fun more _ _ h => TypeRegistry.lookup_ofNames_append h more, ?_⟩
  · rw [← hRegister name, TypeRegistry.lookup_register, if_pos rfl]
  · intro checker hBuilt hNames source expected found hError
    rw [← hNames] at hTypes
    obtain ⟨hExpected, hFound, hAccepts⟩ := hBuilt.grounded hTypes source _ hError
    exact hExpected.name_ne hFound hAccepts

/-- A nominal type where a built-in one is expected whose name was to be registered as well. -/
def displaced : Source :=
  ⟨[⟨"origin", some "Point", false, none, none⟩],
    [⟨"main", [], [], some "Integer", [.returns (.access "origin" none none)], none⟩]⟩

theorem type_names_are_unambiguous_displaced :
    let checker := Checker.ofTypes (.ofNames ["Point", "Integer", "Point"])
    (checker.check displaced).1 = .error (.typeMismatch .integer (.named "Point")) ∧
      Ty.integer.name ≠ (Ty.named "Point").name := by
  intro checker
  have hError : (checker.check displaced).1 =
      .error (.typeMismatch .integer (.named "Point")) := by
    rfl
  obtain ⟨-, -, -, -, hNames⟩ := type_names_are_unambiguous ["Point", "Integer", "Point"]
  exact ⟨hError, hNames checker (.ofTypes _) rfl displaced _ _ hError⟩

end ProcLang
